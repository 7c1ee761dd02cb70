import PolyglotSql.Proofs.Canonical.Mentions

/-!
# PolyglotSql.Proofs.Canonical.Constants

The constants of a query, and what its tree carries for them. An accepted query's tree has a value
for each literal with its sign, each list of literals and each value that is not written but meant,
in the order in which the tree lists them (`querySelection_carries`), so every 64-bit integer that
is written anywhere is carried as it is carried by itself (`tree_integers`).
-/

namespace PolyglotSql

/-- The values of a term, each node before those below it. -/
abbrev Term.values : Term → List Value := gather .values

/-- The constants of a query, in the order of the canonical form. -/
def Sql.Query.constants (q : Sql.Query) : List Sql.Constant :=
  q.collect .constants []

namespace Canonical

open Sql (Constant)

/-- Some values are what a tree may have for some constants, one for each. -/
abbrev Carries (cs : List Constant) (vs : List Value) : Prop :=
  List.Forall₂ Constant.CarriedAs cs vs

theorem represents_constants (catalog : Catalog) :
    Represents catalog .constants .values Constant.CarriedAs where
  reference _ := .nil
  constant _ _ h := .cons h .nil

theorem querySelection_carries (catalog : Catalog) (q : Sql.Query) :
    Gives (fun s => Carries q.constants s.toTerm.values) (querySelection ⟨catalog, []⟩ q) := by
  intro s hs
  rw [Term.values, Selection.gather_toTerm]
  exact querySelection_collects (represents_constants catalog) [] q s hs

/-- A 64-bit integer that is written as an expression or as an item of a list is accepted, and
carried as itself or, if it is the least one, as a binary fraction. The values of a query's tree are
those of its constants, in their order, so that it is carried so wherever it stands. -/
theorem tree_integers {e : Sql.Expr} {k : Int64} (hwrites : e.Writes k.toInt) :
    (∀ scope, exprTerm scope e = .ok (.value (Sql.carried k))) ∧
    e.listValue = .ok (Sql.carried k) ∧
    (Sql.carried k = .integer k ↔ k ≠ Int64.minValue) ∧
    ∀ (catalog : Catalog) (q : Sql.Query) (t : Tree), tree catalog (.query q) = .ok t →
      ∃ term, t.term t.root = .ok term ∧
        List.Forall₂ Constant.CarriedAs q.constants term.values := by
  refine ⟨fun scope => Sql.exprTerm_integer scope hwrites, Sql.listValue_integer hwrites,
    Sql.carried_eq_integer_iff, ?_⟩
  intro catalog q t h
  obtain ⟨s, hs, ht⟩ := bind_eq_ok.1 h
  cases ht
  exact ⟨s.toTerm, Term.build_term _, querySelection_carries catalog q s hs⟩

/-- Digits with a minus sign in front. -/
def minusDigits (digits : String) : Sql.Expr :=
  .unary .minus (.literal (.number digits false) .empty)

/-- `SELECT n, a IN (n) FROM t` -/
def twice (n : Sql.Expr) : Sql.Query :=
  .selecting [.expr n, .expr (.inList false (.identifier (.bare "a")) [n])]
    [⟨.named [.bare "t"], []⟩]

theorem twice_carried {n : Sql.Expr} {k : Int64} (h : n.Writes k.toInt) {vs : List Value}
    (hvs : Carries [.alone n, .listed [n]] vs) : vs = [Sql.carried k, .list [Sql.carried k]] := by
  obtain ⟨v, rest, hv, hrest, rfl⟩ := List.forall₂_cons_left_iff.1 hvs
  obtain ⟨list, last, hlist, hlast, rfl⟩ := List.forall₂_cons_left_iff.1 hrest
  cases hv with
  | alone hv =>
    cases hlist with
    | listed hitems =>
      obtain ⟨w, ws, hw, hws, rfl⟩ := List.forall₂_cons_left_iff.1 hitems
      cases hws
      cases hlast
      rw [hv k h, hw k h]

theorem writes_minusDigits {digits : String} {n : Nat} {k : Int64}
    (h : Sql.IsDecimal digits n) (hk : k.toInt = -n) : (minusDigits digits).Writes k.toInt := by
  rw [hk]
  exact .minus h false .empty

theorem tree_integers_aboveLeast :
    let k : Int64 := -9223372036854775807
    let e := minusDigits "9223372036854775807"
    e.Writes k.toInt ∧ exprTerm ⟨.empty, []⟩ e = .ok (.value (.integer k)) ∧
      e.listValue = .ok (.integer k) ∧ k ≠ Int64.minValue ∧
      ∃ t term, tree .empty (.query (twice e)) = .ok t ∧ t.term t.root = .ok term ∧
        term.values = [.integer k, .list [.integer k]] := by
  intro k e
  have hwrites : e.Writes k.toInt :=
    writes_minusDigits (Sql.isDecimal_toString 9223372036854775807) (by decide)
  obtain ⟨hexpr, hlist, hcarried, hquery⟩ := tree_integers hwrites
  have hleast : k ≠ Int64.minValue := by decide
  rw [hcarried.2 hleast] at hexpr hlist
  obtain ⟨t, h⟩ : ∃ t, tree .empty (.query (twice e)) = .ok t := ⟨_, rfl⟩
  obtain ⟨term, hterm, hvalues⟩ := hquery _ _ t h
  refine ⟨hwrites, hexpr _, hlist, hleast, t, term, h, hterm, ?_⟩
  rw [← hcarried.2 hleast]
  exact twice_carried hwrites hvalues

/-- The least integer is carried as a fraction, in a list and elsewhere. -/
theorem leastInteger_isFraction :
    (minusDigits "9223372036854775808").Writes Int64.minValue.toInt ∧
      ∃ t term, tree .empty (.query (twice (minusDigits "9223372036854775808"))) = .ok t ∧
        t.term t.root = .ok term ∧
        term.values = [.float ⟨0xC3E0000000000000⟩, .list [.float ⟨0xC3E0000000000000⟩]] ∧
        term.values ≠ [.integer Int64.minValue, .list [.integer Int64.minValue]] := by
  have hwrites : (minusDigits "9223372036854775808").Writes Int64.minValue.toInt :=
    writes_minusDigits (Sql.isDecimal_toString 9223372036854775808) (by decide)
  obtain ⟨s, hs⟩ : ∃ s, querySelection ⟨.empty, []⟩ (twice (minusDigits "9223372036854775808")) =
      .ok s := ⟨_, rfl⟩
  have hvalues : s.toTerm.values =
      [.float ⟨0xC3E0000000000000⟩, .list [.float ⟨0xC3E0000000000000⟩]] :=
    twice_carried hwrites (querySelection_carries _ _ s hs)
  refine ⟨hwrites, s.toTerm.build, s.toTerm, ?_, Term.build_term _, hvalues, ?_⟩
  · rw [tree, hs]
    rfl
  · rw [hvalues]
    decide

end Canonical
end PolyglotSql
