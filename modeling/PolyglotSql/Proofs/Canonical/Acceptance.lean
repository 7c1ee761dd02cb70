import PolyglotSql.Proofs.Canonical.Selects
import PolyglotSql.Proofs.Canonical.Shapes
import PolyglotSql.Proofs.Dialect.Completeness

/-!
# PolyglotSql.Proofs.Canonical.Acceptance

What an accepted statement is good for. The tree of one is well-formed and shaped throughout
(`tree_shaped`). So no dialect finds a call in it with a number of arguments that does not fit
(`adapted_missing`), and every translation of it ends, with SQL or with a function that the dialect
has nothing for.
-/

namespace PolyglotSql

open PolyglotSql.Tree

theorem FunctionCatalogue.checkArity_locate {n : Nat} (h : checkArity "LOCATE" n = .ok ()) :
    n = 2 := by
  have harity : arity? "LOCATE" = some ⟨2, some 2⟩ := rfl
  rw [checkArity, harity] at h
  by_cases haccepts : Arity.accepts ⟨2, some 2⟩ n = true
  · simp only [Arity.accepts, Bool.and_eq_true, decide_eq_true_eq] at haccepts
    omega
  · simp [haccepts] at h

/-- The dialects that have something for every canonical function. -/
def Dialect.complete : List Dialect :=
  [.generic, .postgresql, .mysql, .h2, .hsqldb, .firebird, .sqlite, .db2]

theorem Dialect.missing_complete (d : Dialect) (h : d ∈ complete) : d.missing = [] := by
  have hnone : ∀ d ∈ complete, d.missing = [] := by decide
  exact hnone d h

namespace Term

/-- A call with a number of arguments that fits is refused only if the dialect has nothing for the
function. -/
theorem Shaped.misfit {d : Dialect} {refusal : Refusal} {node : Node} {args : List Term}
    (h : Shaped node args) (hm : Misfit d refusal node args) :
    ∃ name ∈ d.missing, refusal = .function name d ∧ node.canonicalFunction? = some name := by
  cases hm with
  | count harity hcount =>
    have hfits := h.arguments _ rfl
    simp [FunctionCatalogue.checkArity, harity, hcount] at hfits
  | missing hname hcount => exact ⟨_, hname, rfl, rfl⟩

theorem Every.misfit {d : Dialect} {refusal : Refusal} {t : Term} (h : Every Shaped t)
    (hs : Somewhere (Misfit d refusal) t) :
    ∃ name ∈ d.missing, refusal = .function name d ∧
      Somewhere (fun node _ => node.canonicalFunction? = some name) t := by
  induction hs with
  | top hm =>
    obtain ⟨name, hname, hrefusal, hnode⟩ := (every_mk.1 h).1.misfit hm
    exact ⟨name, hname, hrefusal, .top hnode⟩
  | deeper ht hs ih =>
    obtain ⟨name, hname, hrefusal, hdeep⟩ := ih ((every_mk.1 h).2 _ ht)
    exact ⟨name, hname, hrefusal, .deeper ht hdeep⟩

/-- What keeps a dialect from adapting a query that is shaped throughout. -/
theorem adapted_missing {d : Dialect} {refusal : Refusal} {query : Term} (h : Every Shaped query)
    (hr : (query.adapted d).2 = some refusal) :
    ∃ name ∈ d.missing, refusal = .function name d ∧
      Somewhere (fun node _ => node.canonicalFunction? = some name) query :=
  h.misfit (adapted_meets d hr)

end Term

namespace Canonical

open FunctionCatalogue (checkArity_locate)
open Term

theorem tree_shaped (catalog : Catalog) (stmt : Sql.Statement) :
    Gives (fun t => t.WellFormed ∧ ∃ query, t.term t.root = .ok query ∧ Every Term.Shaped query)
      (tree catalog stmt) := by
  cases stmt with
  | query q =>
    refine (querySelection_shaped _ q).map fun s hs => ?_
    exact ⟨build_wellFormed _, _, build_term _, hs.toTerm.every⟩
  | _ => exact gives_refused _

variable {catalog : Catalog} {stmt : Sql.Statement} {t : Tree}

/-- The translation of an accepted statement ends, with SQL or with a refusal. Its comparisons,
matches, membership and range tests have the operands that they take, calls of `LOCATE` have two
arguments, and so it is after the tree has been adapted, too: nothing that is looked for below a
node is missing, and what has no placeholder is not bound to one. -/
theorem translateTree_ends (h : tree catalog stmt = .ok t) :
    ∃ query, t.term t.root = .ok query ∧ query.Counted ∧
      Every (fun node args => node.canonicalFunction? = some "LOCATE" → argumentCount args = 2)
        query ∧
      ∀ tr : Translator, ∃ outcome t' result, Yields tr.translateTree t outcome t' ∧
        t'.term t'.root = .ok result ∧ result.Counted := by
  obtain ⟨hwf, query, hquery, hshaped⟩ := tree_shaped catalog stmt t h
  have hcounted := hshaped.counted
  refine ⟨query, hquery, hcounted, ?_, fun tr => ?_⟩
  · exact every_imp (fun node args hnode hname => checkArity_locate (hnode.arguments _ hname))
      hshaped
  · obtain ⟨outcome, t', hy, hresult, -⟩ := tr.translateTree_of_counted hwf hquery hcounted
    exact ⟨outcome, t', _, hy, hresult, adapted_counted tr.dialect hcounted⟩

/-- `SELECT POSITION(b IN a), a || b || c, a ILIKE b FROM t`. -/
def locatedPattern : Sql.Query :=
  let column (name : String) : Sql.Expr := .identifier (.bare name)
  .selecting [.expr (.position (column "b") (column "a")),
      .expr (.binary (.binary (column "a") .concat (column "b")) .concat (column "c")),
      .expr (.like true false false (column "a") (column "b") none)]
    [⟨.named [.bare "t"], []⟩]

theorem translateTree_ends_locatedPattern : ∃ t rendered t',
    tree .empty (.query locatedPattern) = .ok t ∧
    Yields (Translator.translateTree ⟨.postgresql, .whenNeeded⟩) t (.ok rendered) t' ∧
    rendered.sql = "SELECT POSITION(b IN a), a || b || c, a ILIKE b FROM t" ∧
    ∃ query, t.term t.root = .ok query ∧ query.Counted ∧
      Every (fun node args => node.canonicalFunction? = some "LOCATE" → argumentCount args = 2)
        query ∧
      ∀ tr : Translator, ∃ outcome t' result, Yields tr.translateTree t outcome t' ∧
        t'.term t'.root = .ok result ∧ result.Counted := by
  let column (name : String) : Term := leaf (.column ⟨none, name, none⟩)
  let sel : Selection := { Selection.empty with
    results := [.call "LOCATE" [column "a", column "b"],
      .call "CONCAT" [column "a", column "b", column "c"],
      .matching true false (column "a") (column "b")]
    sources := [leaf (.table "t" none none)] }
  have htree : tree .empty (.query locatedPattern) = .ok sel.toTerm.build := by rfl
  have hsql : sel.toTerm.translated ⟨.postgresql, .whenNeeded⟩ =
      some ⟨"SELECT POSITION(b IN a), a || b || c, a ILIKE b FROM t", []⟩ := by
    rw [Term.translated, Term.adapted_within]
    decide +kernel
  obtain ⟨t', hy⟩ := (Translator.translateTree_iff ⟨.postgresql, .whenNeeded⟩
    sel.toTerm.build_wellFormed sel.toTerm.build_term).2 hsql
  exact ⟨_, _, t', htree, hy, rfl, translateTree_ends htree⟩

/-- The calls in an accepted statement have numbers of arguments that fit their functions, so that
adapting its tree is refused only for a canonical function in it that the dialect has nothing for.
Where the dialect has something for all of them, the statement is translated. -/
theorem adapt_refuses_missing (h : tree catalog stmt = .ok t) :
    ∃ query, t.term t.root = .ok query ∧
      Every (fun node args => ∀ name, node.canonicalFunction? = some name →
        FunctionCatalogue.checkArity name (argumentCount args) = .ok ()) query ∧
      (∀ d : Dialect, ∃ outcome t', Yields d.adapt t outcome t' ∧
        ∀ refusal, outcome = .error refusal → ∃ name ∈ d.missing, refusal = .function name d ∧
          Somewhere (fun node _ => node.canonicalFunction? = some name) query) ∧
      ∀ d ∈ Dialect.complete, ∀ mode, ∃ rendered t',
        Yields (Translator.translateTree ⟨d, mode⟩) t (.ok rendered) t' := by
  obtain ⟨hwf, query, hquery, hshaped⟩ := tree_shaped catalog stmt t h
  refine ⟨query, hquery, every_imp (fun _ _ h => h.arguments) hshaped, fun d => ?_,
    fun d hd mode => ?_⟩
  · obtain ⟨t', hy, -⟩ := Dialect.adapt_holds (d := d) hwf hquery
    refine ⟨_, t', hy, fun refusal he => ?_⟩
    -- how the walk in the tree ends is how the rewriting of the query ends
    cases hr : (query.adapted d).2 with
    | none =>
      rw [hr] at he
      cases he
    | some refusal' =>
      rw [hr] at he
      cases he
      exact adapted_missing hshaped hr
  · obtain ⟨outcome, t', hy, -, hrefused⟩ :=
      Translator.translateTree_of_counted ⟨d, mode⟩ hwf hquery hshaped.counted
    cases outcome with
    | ok rendered => exact ⟨rendered, t', hy⟩
    | error refusal =>
      obtain ⟨name, hname, -⟩ := adapted_missing hshaped ((hrefused refusal).1 rfl)
      rw [d.missing_complete hd] at hname
      cases hname

/-- `SELECT EXTRACT(DOW FROM a) FROM t`. -/
def dayOfWeek : Sql.Query :=
  .selecting [.expr (.extract ⟨"DOW", "DOW"⟩ false (.identifier (.bare "a")))]
    [⟨.named [.bare "t"], []⟩]

theorem adapt_refuses_missing_dayOfWeek : ∃ t t', tree .empty (.query dayOfWeek) = .ok t ∧
    Yields Dialect.derby.adapt t (.error (.function "DAY_OF_WEEK" .derby)) t' ∧
    ∃ query, t.term t.root = .ok query ∧
      Every (fun node args => ∀ name, node.canonicalFunction? = some name →
        FunctionCatalogue.checkArity name (argumentCount args) = .ok ()) query ∧
      (∀ d : Dialect, ∃ outcome t', Yields d.adapt t outcome t' ∧
        ∀ refusal, outcome = .error refusal → ∃ name ∈ d.missing, refusal = .function name d ∧
          Somewhere (fun node _ => node.canonicalFunction? = some name) query) ∧
      ∀ d ∈ Dialect.complete, ∀ mode, ∃ rendered t',
        Yields (Translator.translateTree ⟨d, mode⟩) t (.ok rendered) t' := by
  let sel : Selection := { Selection.empty with
    results := [.call "DAY_OF_WEEK" [leaf (.column ⟨none, "a", none⟩)]]
    sources := [leaf (.table "t" none none)] }
  have htree : tree .empty (.query dayOfWeek) = .ok sel.toTerm.build := by rfl
  have hadapted : (sel.toTerm.adapted .derby).2 = some (.function "DAY_OF_WEEK" .derby) := by
    rw [Term.adapted_within]
    rfl
  obtain ⟨t', hy, -⟩ := Dialect.adapt_holds (d := .derby) sel.toTerm.build_wellFormed
    sel.toTerm.build_term
  rw [hadapted] at hy
  exact ⟨_, t', htree, hy, adapt_refuses_missing htree⟩

end Canonical
end PolyglotSql
