import PolyglotSql.Proofs.Canonical.Attributes
import PolyglotSql.Proofs.Canonical.Mentions

/-!
# PolyglotSql.Proofs.Canonical.References

The column references of a query, and what the columns of its tree carry. The columns of an accepted
query's tree are its references, in the order in which the tree lists them
(`querySelection_columns`), so nothing but the tables of the selects around a reference decides what
is known about it.

A qualified reference belongs to the innermost select with a table under its qualifier. Where that
table does not have the column, tables under the same qualifier further out are asked
(`tree_references`).
-/

namespace PolyglotSql

/-- The columns of a term, each node before those below it. -/
abbrev Term.columns : Term → List ColumnRef := gather .columns

/-- The column references of a query inside of selects with given sources, in the order of the
canonical form. -/
def Sql.Query.references (around : List (List Sql.Source)) (q : Sql.Query) : List Sql.Reference :=
  q.collect .references around

namespace Canonical

open Sql (Reference)

theorem represents_references (catalog : Catalog) :
    Represents catalog .references .columns fun r column => r.columnRef catalog = column where
  reference _ := .cons rfl .nil
  constant _ _ _ := .nil

theorem querySelection_columns (catalog : Catalog) (q : Sql.Query) :
    Gives (fun s => s.toTerm.columns = (q.references []).map (Reference.columnRef catalog))
      (querySelection ⟨catalog, []⟩ q) := by
  intro s hs
  have hcolumns : List.Forall₂ (fun r column => Reference.columnRef catalog r = column)
      (q.references []) (s.gather .columns) :=
    querySelection_collects (represents_references catalog) [] q s hs
  rw [← List.forall₂_map_left_iff (f := Reference.columnRef catalog), List.forall₂_eq_eq_eq]
    at hcolumns
  rw [Term.columns, Selection.gather_toTerm]
  exact hcolumns.symm

end Canonical

/-! ## What a qualifier means -/

namespace Sql

/-- Whether a select with given sources has a table under a qualifier. -/
def Declares (catalog : Catalog) (table : String) (sources : List Source) : Prop :=
  ∃ v ∈ Scope.tables catalog sources, Text.sameIgnoringCase v.key table = true

instance (catalog : Catalog) (table : String) (sources : List Source) :
    Decidable (Declares catalog table sources) :=
  inferInstanceAs (Decidable (∃ v ∈ _, _))

/-- What the tables under a qualifier in one select tell about a column. -/
def told (catalog : Catalog) (table column : String) (sources : List Source) : Option Attribute :=
  Scope.resolveIn (some table) column (Scope.tables catalog sources)

variable {catalog : Catalog} {table column : String} {r : Reference}

theorem told_eq_none {sources : List Source} (h : ¬ Declares catalog table sources) :
    told catalog table column sources = none := by
  refine List.findSome?_eq_none_iff.2 fun v hv => if_neg fun hkey => h ⟨v, hv, ?_⟩
  simpa using hkey

theorem findSome?_told_eq_none {around : List (List Source)}
    (h : ∀ sources ∈ around, ¬ Declares catalog table sources) :
    around.findSome? (told catalog table column) = none :=
  List.findSome?_eq_none_iff.2 fun sources hsources => told_eq_none (h sources hsources)

namespace Reference

/-- A qualified reference looked up from inside: nothing is known if no select around it has a
table under the qualifier; otherwise what the innermost of these tells, and if that tells nothing,
what those around that one tell. -/
inductive LookedUp (catalog : Catalog) (table : String) (r : Reference) : Prop
  | undeclared (hnone : ∀ sources ∈ r.around, ¬ Declares catalog table sources)
    (hknown : r.known catalog = none)
  | declared (nearer : List (List Source)) (sources : List Source) (outer : List (List Source))
    (haround : r.around = nearer ++ sources :: outer)
    (hnearer : ∀ sources ∈ nearer, ¬ Declares catalog table sources)
    (hdeclares : Declares catalog table sources)
    (hknown : r.known catalog = (told catalog table r.column sources).or
      (outer.findSome? (told catalog table r.column)))

theorem lookedUp (h : r.table = some table) : r.LookedUp catalog table := by
  have hknown : r.known catalog = r.around.findSome? (told catalog table r.column) := by
    rw [known, Scope.resolve, h, Scope.inside, List.findSome?_map]
    rfl
  cases hfound : r.around.find? (fun sources => decide (Declares catalog table sources)) with
  | none =>
    have hnone : ∀ sources ∈ r.around, ¬ Declares catalog table sources := by
      simpa using List.find?_eq_none.1 hfound
    exact .undeclared hnone (hknown.trans (findSome?_told_eq_none hnone))
  | some sources =>
    obtain ⟨hdeclares, nearer, outer, haround, hnearer⟩ :=
      List.find?_eq_some_iff_append.1 hfound
    have hnone : ∀ sources ∈ nearer, ¬ Declares catalog table sources := by simpa using hnearer
    refine .declared nearer sources outer haround hnone (by simpa using hdeclares) ?_
    rw [hknown, haround, List.findSome?_append, findSome?_told_eq_none hnone, Option.none_or,
      List.findSome?_cons]
    cases told catalog table r.column sources <;> rfl

end Reference
end Sql

namespace Canonical

/-- The columns of a query's tree are its column references, in the order of the tree, each with
what is known from the selects around it; a qualified one is looked up from inside, past selects
whose table under the qualifier does not have the column. -/
theorem tree_references {catalog : Catalog} {q : Sql.Query} {t : Tree}
    (h : tree catalog (.query q) = .ok t) :
    ∃ term, t.term t.root = .ok term ∧
      term.columns = (q.references []).map (Sql.Reference.columnRef catalog) ∧
      ∀ r ∈ q.references [], ∀ table, r.table = some table → r.LookedUp catalog table := by
  obtain ⟨s, hs, ht⟩ := bind_eq_ok.1 h
  cases ht
  refine ⟨s.toTerm, Term.build_term _, ?_, fun r _ table htable => r.lookedUp htable⟩
  exact querySelection_columns catalog q s hs

/-- A source that is one table with the alias `t`. -/
def asT (name : String) : Sql.Source :=
  ⟨.table [.bare name] (some ⟨false, .bare "t", []⟩) nameOnly, []⟩

/-- `SELECT t.c, (SELECT t.c FROM u t) FROM a t`. -/
def nestedAliases : Sql.Query :=
  .selecting [.expr (.compound [.bare "t", .bare "c"]),
    .expr (.subquery (.selecting [.expr (.compound [.bare "t", .bare "c"])] [asT "u"]))] [asT "a"]

/-- Tables `a` and `u`, each with a column `c` of its own length. -/
def bothTables : Catalog :=
  (Catalog.empty.insert ⟨"a", [codeColumn]⟩).insert ⟨"u", [{ codeColumn with maxLength := some 5 }]⟩

theorem tree_references_nestedAliases :
    ∃ t term, tree bothTables (.query nestedAliases) = .ok t ∧ t.term t.root = .ok term ∧
      term.columns = [⟨some "t", "c", some codeColumn⟩,
        ⟨some "t", "c", some { codeColumn with maxLength := some 5 }⟩] := by
  obtain ⟨t, h⟩ : ∃ t, tree bothTables (.query nestedAliases) = .ok t := ⟨_, rfl⟩
  obtain ⟨term, hterm, hcolumns, -⟩ := tree_references h
  exact ⟨t, term, h, hterm, hcolumns.trans (by decide)⟩

/-- If `u` is unknown, `t.c` in the inner select is taken for the column of `a`, although the
innermost select around it has a table under `t`, and that tells nothing. -/
theorem unknownTable_seesOuter :
    let catalog := Catalog.empty.insert ⟨"a", [codeColumn]⟩
    nestedAliases.references [] =
        [⟨[[asT "a"]], some "t", "c"⟩, ⟨[[asT "u"], [asT "a"]], some "t", "c"⟩] ∧
      Sql.Declares catalog "t" [asT "u"] ∧ Sql.told catalog "t" "c" [asT "u"] = none ∧
      ∃ t term, tree catalog (.query nestedAliases) = .ok t ∧ t.term t.root = .ok term ∧
        term.columns = [⟨some "t", "c", some codeColumn⟩, ⟨some "t", "c", some codeColumn⟩] := by
  intro catalog
  obtain ⟨s, hs⟩ : ∃ s, querySelection ⟨catalog, []⟩ nestedAliases = .ok s := ⟨_, rfl⟩
  refine ⟨rfl, by decide, by decide, s.toTerm.build, s.toTerm, ?_, Term.build_term _, ?_⟩
  · rw [tree, hs]
    rfl
  · rw [querySelection_columns catalog nestedAliases s hs]
    decide

end Canonical
end PolyglotSql
