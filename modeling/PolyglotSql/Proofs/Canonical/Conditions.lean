import PolyglotSql.Proofs.Canonical.Selects
import PolyglotSql.Proofs.Canonical.Shapes
import PolyglotSql.Proofs.Rendering.Conditions

/-!
# PolyglotSql.Proofs.Canonical.Conditions

Conditions of statements. The term of a condition is put together as the condition is, from the terms
of its predicates (`exprTerm_means`), and a query has it where the statement has the condition
(`tree_select`). So what is written of a condition says what the condition says, however it came into
the query (`Translator.translateTree_conditions`).
-/

namespace PolyglotSql

/-- Whether a condition of a statement holds where each of its predicates has a truth value. -/
def Sql.Expr.truth (σ : Sql.Expr → Bool) : Sql.Expr → Bool
  | .nested e => e.truth σ
  | .unary .not e => !e.truth σ
  | .unary .plus e => e.truth σ
  | .binary left .and right => left.truth σ && right.truth σ
  | .binary left .or right => left.truth σ || right.truth σ
  | e => σ e

namespace Canonical

open Term (Means)

variable {scope : Scope}

/-- What is put together from no other conditions is a predicate. -/
theorem predicate_means {e : Sql.Expr} (htruth : ∀ σ, e.truth σ = σ e)
    (h : Gives (fun t => ∀ op, t.node ≠ .boolean op) (exprTerm scope e)) :
    Gives (Means (fun e t => exprTerm scope e = .ok t) fun σ => e.truth σ) (exprTerm scope e) := by
  intro t ht
  simp only [htruth]
  exact .atom ht (h t ht)

theorem columnTerm_predicate (scope : Scope) (path : Sql.Path) :
    Gives (fun t => ∀ op, t.node ≠ .boolean op) (columnTerm scope path) := by
  unfold columnTerm
  split
  · exact gives_ok nofun
  · exact gives_ok nofun
  · exact gives_refused _

theorem binary_predicate {op : Sql.BinaryOperator} (hand : op ≠ .and) (hor : op ≠ .or)
    (left right : Term) : Gives (fun t => ∀ op, t.node ≠ .boolean op) (binary op left right) := by
  cases op with
  | and => exact absurd rfl hand
  | or => exact absurd rfl hor
  | concat =>
    refine gives_ok ?_
    unfold concat
    split <;> exact nofun
  | other shown => exact gives_refused _
  | _ => exact gives_ok nofun

theorem withEscape_predicate (ignoreCase negated : Bool) (subject pattern : Term)
    (escape : Option Sql.Literal) :
    Gives (fun t => ∀ op, t.node ≠ .boolean op)
      (withEscape (.matching ignoreCase negated subject pattern) escape) := by
  cases escape with
  | none => cases ignoreCase <;> exact gives_ok nofun
  | some l => cases ignoreCase <;> exact (gives_any _).map fun _ _ => nofun

theorem call_predicate (name : String) (args : List Term) (op : BooleanOp) :
    (Term.call name args).node ≠ .boolean op := by
  intro h
  cases h

theorem callTerm_predicate (scope : Scope) (c : Sql.Call) :
    Gives (fun t => ∀ op, t.node ≠ .boolean op) (callTerm scope c) := by
  obtain ⟨path, parameters, arguments, withinGroup, filter, nullTreatment, overClause, braced⟩ := c
  rw [callTerm]
  split
  · exact gives_refused _
  · cases arguments with
    | none => exact (gives_any _).map fun _ _ => call_predicate _ _
    | subquery q => exact gives_refused _
    | list duplicates args clauses =>
      exact (gives_any _).bind fun _ _ => (gives_any _).map fun _ _ => call_predicate _ _

/-- The term of a condition is the condition, in terms of its predicates. -/
theorem exprTerm_means (scope : Scope) (e : Sql.Expr) :
    Gives (Means (fun e t => exprTerm scope e = .ok t) fun σ => e.truth σ) (exprTerm scope e) := by
  cases e with
  | nested e =>
    cases e with
    | subquery q => exact exprTerm_means scope (.subquery q)
    | _ => exact (exprTerm_means scope _).map fun t ht => ht.group
  | unary op e =>
    cases op with
    | plus => exact exprTerm_means scope e
    | minus =>
      refine predicate_means (fun _ => rfl) ?_
      cases e with
      | literal l span =>
        exact (gives_any _).bind fun _ _ => (gives_any _).map fun _ _ => nofun
      | _ => exact gives_refused _
    | not =>
      -- The brackets of what is negated are not kept, but others are written.
      cases e with
      | nested e => exact (exprTerm_means scope e).map fun t ht => ht.not
      | _ => exact (exprTerm_means scope _).map fun t ht => ht.not
    | complement => exact gives_refused _
  | binary left op right =>
    cases op with
    | and =>
      refine (exprTerm_means scope left).bind fun l hl => ?_
      exact (exprTerm_means scope right).bind fun r hr => gives_ok (.connect .and hl hr)
    | or =>
      refine (exprTerm_means scope left).bind fun l hl => ?_
      exact (exprTerm_means scope right).bind fun r hr => gives_ok (.connect .or hl hr)
    | _ =>
      refine predicate_means (fun _ => rfl)
        ((gives_any _).bind fun l _ => (gives_any _).bind fun r _ => binary_predicate ?_ ?_ l r)
      all_goals exact nofun
  | isNull negated e =>
    refine predicate_means (fun _ => rfl) ?_
    cases negated <;> exact (gives_any _).map fun _ _ => nofun
  | like ignoreCase negated any subject pattern escape =>
    cases any with
    | true => exact gives_refused _
    | false =>
      exact predicate_means (fun _ => rfl)
        ((gives_any _).bind fun s _ => (gives_any _).bind fun p _ =>
          withEscape_predicate ignoreCase negated s p escape)
  | compound path => exact predicate_means (fun _ => rfl) (columnTerm_predicate scope path)
  | call c => exact predicate_means (fun _ => rfl) (callTerm_predicate scope c)
  | identifier name => exact predicate_means (fun _ => rfl) (gives_ok nofun)
  | literal l span => exact predicate_means (fun _ => rfl) ((gives_any _).map fun _ _ => nofun)
  | subquery q | exists_ negated q =>
    exact predicate_means (fun _ => rfl) ((gives_any _).map fun _ _ => nofun)
  | trim e => exact predicate_means (fun _ => rfl) ((gives_any _).map fun _ _ => nofun)
  | inList negated subject list | inSubquery negated subject q | extract field comma e
  | position needle haystack =>
    exact predicate_means (fun _ => rfl)
      ((gives_any _).bind fun _ _ => (gives_any _).map fun _ _ => nofun)
  | between negated subject low high | substring form short e start length =>
    exact predicate_means (fun _ => rfl)
      ((gives_any _).bind fun _ _ => (gives_any _).bind fun _ _ =>
        (gives_any _).map fun _ _ => nofun)
  | access root steps => exact gives_refused _
  | other shown => exact gives_refused _

/-- What a condition of a statement says is said at a place in some SQL. -/
def Conveyed (tr : Translator) (scope : Scope) (e : Sql.Expr) (place : ConditionPlace)
    (sql : String) : Prop :=
  ∃ condition, exprTerm scope e = .ok condition ∧
    condition.Conveyed tr (fun e t => exprTerm scope e = .ok t) (fun σ => e.truth σ) place sql

/-- The conditions of a select are conveyed in their clauses. -/
theorem tree_conveyed {tr : Translator} {catalog : Catalog} {q : Sql.Query} {s : Sql.Select}
    {t : Tree} {rendered : RenderedSql} (hselects : q.Selects s)
    (h : tree catalog (.query q) = .ok t)
    (htr : ∃ t', Yields tr.translateTree t (.ok rendered) t') :
    (∀ e, s.selection = some e →
      Conveyed tr (Scope.enter ⟨catalog, []⟩ s.sources) e .whereClause rendered.sql) ∧
    ∀ e, s.having = some e →
      Conveyed tr (Scope.enter ⟨catalog, []⟩ s.sources) e .having rendered.sql := by
  obtain ⟨sel, rfl, hclauses⟩ := tree_select hselects h
  have hplace {place : ConditionPlace} {e : Sql.Expr} {condition? : Option Term}
      (hcondition : optionalTerm (Scope.enter ⟨catalog, []⟩ s.sources) (some e) = .ok condition?)
      (hstands : ∀ condition, condition? = some condition → place.Takes condition ∧
        place.term condition ∈ sel.toTerm.children) :
      Conveyed tr (Scope.enter ⟨catalog, []⟩ s.sources) e place rendered.sql := by
    obtain ⟨condition, hexpr, hsome⟩ := bind_eq_ok.1 hcondition
    cases hsome
    obtain ⟨htakes, hmem⟩ := hstands condition rfl
    obtain ⟨l, hshown, hterm⟩ := sel.toTerm_within hmem
    exact ⟨condition, hexpr, (exprTerm_means _ e condition hexpr).rendered _ [l] place rendered
      sel.toTerm.build_wellFormed (by rw [sel.toTerm.build_term, hterm])
      (Term.writtenIn_cons.2 ⟨hshown, Term.writtenIn_nil⟩) htakes htr⟩
  constructor
  · intro e he
    refine hplace (he ▸ hclauses.condition) fun condition hsome => ⟨trivial, ?_⟩
    simp [Selection.toTerm, Selection.clause, Term.of, Term.children, ConditionPlace.term, hsome]
  · intro e he
    refine hplace (he ▸ hclauses.having) fun condition hsome => ⟨trivial, ?_⟩
    simp [Selection.toTerm, Selection.clause, Term.of, Term.children, ConditionPlace.term, hsome]

end Canonical

namespace Translator

/-- What is written of a condition, in any dialect and wherever a query has it, says what the
condition says: of every condition that is put together from predicates, of conditions that are added
one after another to a select, and of every condition of a statement, in the clauses of its select
and elsewhere. -/
theorem translateTree_conditions (tr : Translator) :
    (∀ {α : Type} (terms : α → Term → Prop) (truth : (α → Bool) → Bool) (condition : Term),
      condition.Means terms truth → condition.Rendered tr terms truth) ∧
    (∀ {α : Type} (terms : α → Term → Prop) (conditions : List (((α → Bool) → Bool) × Term))
      (s : Selection), conditions ≠ [] → (∀ c ∈ conditions, c.2.Means terms c.1) →
      (s.condition = none → ∃ all,
        ((conditions.map Prod.snd).foldl Selection.addWhere s).condition = some all ∧
        all.Rendered tr terms fun σ => conditions.all fun c => c.1 σ) ∧
      (s.having = none → ∃ all,
        ((conditions.map Prod.snd).foldl Selection.addHaving s).having = some all ∧
        all.Rendered tr terms fun σ => conditions.all fun c => c.1 σ)) ∧
    (∀ (scope : Scope) (e : Sql.Expr) (condition : Term),
      Canonical.exprTerm scope e = .ok condition →
      condition.Rendered tr (fun e t => Canonical.exprTerm scope e = .ok t) fun σ => e.truth σ) ∧
    ∀ (catalog : Catalog) (q : Sql.Query) (s : Sql.Select) (t : Tree) (rendered : RenderedSql),
      q.Selects s → Canonical.tree catalog (.query q) = .ok t →
      (∃ t', Yields tr.translateTree t (.ok rendered) t') →
      (∀ e, s.selection = some e → Canonical.Conveyed tr (Scope.enter ⟨catalog, []⟩ s.sources) e
        .whereClause rendered.sql) ∧
      ∀ e, s.having = some e → Canonical.Conveyed tr (Scope.enter ⟨catalog, []⟩ s.sources) e
        .having rendered.sql := by
  refine ⟨fun terms truth condition h => h.rendered, fun terms conditions s hsome h => ?_,
    fun scope e condition h => (Canonical.exprTerm_means scope e condition h).rendered,
    fun catalog q s t rendered hselects h htr => Canonical.tree_conveyed hselects h htr⟩
  constructor
  · intro hnone
    obtain ⟨all, hall, hmeans⟩ := Selection.chained_means Selection.condition Selection.addWhere
      (fun _ _ => rfl) hnone hsome h
    exact ⟨all, hall, hmeans.rendered⟩
  · intro hnone
    obtain ⟨all, hall, hmeans⟩ := Selection.chained_means Selection.having Selection.addHaving
      (fun _ _ => rfl) hnone hsome h
    exact ⟨all, hall, hmeans.rendered⟩

/-- `SELECT a FROM t` with another clause. -/
def choosing : List Term.Layer :=
  [⟨.select, none,
    [.of .result [.leaf (.column ⟨none, "a", none⟩)], .of .fromClause [.leaf (.table "t" none none)]],
    [.leaf (.limitOffset 0 0)]⟩]

/-- One column below another. -/
def below (left right : String) : Term :=
  .compare .lt (.leaf (.column ⟨none, left, none⟩)) (.leaf (.column ⟨none, right, none⟩))

/-- `a < b`, of the columns of a statement. -/
def belowExpr (left right : String) : Sql.Expr :=
  .binary (.identifier (.bare left)) .lt (.identifier (.bare right))

/-- `a < b OR b < c`, in brackets. -/
def eitherBelow : Term :=
  (Term.connect .or (below "a" "b") (below "b" "c")).group

/-- `(a < b OR b < c) AND NOT (c < a)`. -/
def upward : Term :=
  .connect .and eitherBelow (below "c" "a").not

def upwardExpr : Sql.Expr :=
  .binary (.nested (.binary (belowExpr "a" "b") .or (belowExpr "b" "c"))) .and
    (.unary .not (belowExpr "c" "a"))

/-- `SELECT a FROM t WHERE (a < b OR b < c) AND NOT c < a`. -/
def upwardSelect : Sql.Select where
  token := ""
  flavor := .standard
  distinct := .none
  top := none
  items := [.expr (.identifier (.bare "a"))]
  into := none
  sources := [⟨.named [.bare "t"], []⟩]
  lateralViews := []
  prewhere := none
  selection := some upwardExpr
  groupBy := .exprs [] []
  clusterBy := []
  distributeBy := []
  sortBy := []
  having := none
  windows := []
  qualify := none
  windowsFirst := false
  connectBy := none

def upwardRows : Sql.Query :=
  { Sql.Query.selecting [] [] with body := .select upwardSelect }

theorem translateTree_conditions_upward : ∃ rendered t t',
    Yields (translateTree ⟨.oracle, .whenNeeded⟩) t (.ok rendered) t' ∧
    rendered.sql = "SELECT a FROM t WHERE (a < b OR b < c) AND NOT (c < a)" ∧
    t = (Term.within choosing (ConditionPlace.whereClause.term upward)).build ∧
    upward.Conveyed ⟨.oracle, .whenNeeded⟩ Eq
      (fun σ => (σ (below "a" "b") || σ (below "b" "c")) && !σ (below "c" "a"))
      .whereClause rendered.sql ∧
    ([eitherBelow, (below "c" "a").not].foldl Selection.addWhere .empty).condition = some upward ∧
    upward.Conveyed ⟨.oracle, .whenNeeded⟩ Eq
      (fun σ => [σ (below "a" "b") || σ (below "b" "c"), !σ (below "c" "a")].all id)
      .whereClause rendered.sql ∧
    Canonical.exprTerm ⟨.empty, []⟩ upwardExpr = .ok upward ∧
    upward.Conveyed ⟨.oracle, .whenNeeded⟩
      (fun e t => Canonical.exprTerm ⟨.empty, []⟩ e = .ok t)
      (fun σ => (σ (belowExpr "a" "b") || σ (belowExpr "b" "c")) && !σ (belowExpr "c" "a"))
      .whereClause rendered.sql ∧
    Canonical.tree .empty (.query upwardRows) = .ok t ∧
    Canonical.Conveyed ⟨.oracle, .whenNeeded⟩ (Scope.enter ⟨.empty, []⟩ upwardSelect.sources)
      upwardExpr .whereClause rendered.sql := by
  have hsql : (Term.within choosing (ConditionPlace.whereClause.term upward)).translated
      ⟨.oracle, .whenNeeded⟩ =
        some ⟨"SELECT a FROM t WHERE (a < b OR b < c) AND NOT (c < a)", []⟩ := by
    rw [Term.translated, Term.adapted_within]
    decide +kernel
  obtain ⟨t', htr⟩ := (translateTree_iff ⟨.oracle, .whenNeeded⟩ (Term.build_wellFormed _)
    (Term.build_term _)).2 hsql
  have hplace {α : Type} {terms : α → Term → Prop} {truth : (α → Bool) → Bool}
      (h : upward.Rendered ⟨.oracle, .whenNeeded⟩ terms truth) :=
    h _ choosing .whereClause _ (Term.build_wellFormed _) (Term.build_term _) (by decide) trivial
      ⟨t', htr⟩
  have hbelow (left right : String) : (below left right).Means Eq fun σ => σ (below left right) :=
    .atom rfl (by simp [below, Term.compare, Term.of, Term.node])
  have heither : eitherBelow.Means Eq fun σ => σ (below "a" "b") || σ (below "b" "c") :=
    .group (.connect .or (hbelow _ _) (hbelow _ _))
  have hnot : (below "c" "a").not.Means Eq fun σ => !σ (below "c" "a") := .not (hbelow _ _)
  have hexpr : Canonical.exprTerm ⟨.empty, []⟩ upwardExpr = .ok upward := rfl
  have htree : Canonical.tree .empty (.query upwardRows) =
      .ok (Term.within choosing (ConditionPlace.whereClause.term upward)).build := by rfl
  obtain ⟨hmeans, hchained, hstatement, hselect⟩ :=
    translateTree_conditions ⟨.oracle, .whenNeeded⟩
  obtain ⟨all, hall, hrendered⟩ :=
    (hchained Eq [(_, eitherBelow), (_, (below "c" "a").not)] .empty (by simp)
      (by simpa using ⟨heither, hnot⟩)).1 rfl
  obtain rfl : all = upward := (Option.some.inj hall).symm
  exact ⟨_, _, t', htr, rfl, rfl, hplace (hmeans Eq _ _ (.connect .and heither hnot)), hall,
    hplace hrendered, hexpr, hplace (hstatement _ _ _ hexpr), htree,
    (hselect .empty upwardRows upwardSelect _ _ (.direct rfl) htree ⟨t', htr⟩).1 _ rfl⟩

end Translator
end PolyglotSql
