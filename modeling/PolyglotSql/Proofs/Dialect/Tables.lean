import PolyglotSql.Dialect.Rules
import PolyglotSql.Proofs.Rendering.Scanning

/-!
# PolyglotSql.Proofs.Dialect.Tables

The rules of the dialects as tables. A function outside of the catalogue is kept by every dialect,
so what is to be known of a rule can be read off for the listed functions (`functionRule_all`).
-/

namespace PolyglotSql

namespace FunctionRule

/-- Whether a rule exchanges the first two arguments. -/
def swaps : FunctionRule → Bool
  | .renameSwapped _ | .keywordsSwapped _ _ => true
  | _ => false

/-- Whether a rule leaves a name without parentheses, and so without arguments. -/
def isBare : FunctionRule → Bool
  | .rename _ parentheses => !parentheses
  | _ => false

/-- The words that a rule puts into a query. -/
def words : FunctionRule → List String
  | .keep | .refuse => []
  | .rename name _ | .renameSwapped name => [name]
  | .operator symbol => [symbol]
  | .keywords name between | .keywordsSwapped name between => name :: between
  | .extract part => [part]
  | .nested outer inner => [outer, inner]
  | .nestedFormat outer inner format => [outer, inner, format]
  | .formattedCast format => [format]

end FunctionRule

namespace FunctionCatalogue

theorem checkArity_ok {name : String} {a : Arity} {args : Nat} (h : arity? name = some a)
    (hok : checkArity name args = .ok ()) : a.accepts args = true := by
  rw [checkArity, h] at hok
  by_cases haccepts : a.accepts args = true
  · exact haccepts
  · simp [haccepts] at hok

end FunctionCatalogue

namespace Dialect

theorem mem_all (d : Dialect) : d ∈ all := by
  cases d <;> decide

/-- Functions outside of the catalogue are kept. -/
theorem functionRule_unlisted {name : String} (h : name ∉ FunctionCatalogue.names) (d : Dialect) :
    d.functionRule name = .keep := by
  have hother {known : String} (hk : known ∈ FunctionCatalogue.names) : name ≠ known :=
    fun he => h (he ▸ hk)
  have hbare : bareCurrent name = .keep := by
    unfold bareCurrent
    rw [if_neg]
    intro hc
    simp only [FunctionCatalogue.isCurrent, List.contains_iff_mem] at hc
    exact h (List.mem_append_left _ (List.mem_append_left _ (List.mem_append_right _ hc)))
  have hpart : strftimeFormat? name = none := by
    unfold strftimeFormat?
    split
    all_goals first
      | rfl
      | exact absurd rfl (hother (by decide))
  cases d <;> unfold functionRule <;> simp only [hpart]
  all_goals try split
  all_goals first
    | rfl
    | exact hbare
    | exact absurd rfl (hother (by decide))

/-- What holds of kept calls and of the listed functions holds of every function. -/
theorem functionRule_all {P : String → FunctionRule → Prop} (keep : ∀ name, P name .keep)
    (listed : ∀ d ∈ all, ∀ name ∈ FunctionCatalogue.names, P name (d.functionRule name))
    (d : Dialect) (name : String) : P name (d.functionRule name) := by
  by_cases h : name ∈ FunctionCatalogue.names
  · exact listed d d.mem_all name h
  · rw [functionRule_unlisted h]
    exact keep name

/-- Only one function has its arguments exchanged. -/
theorem functionRule_swaps {d : Dialect} {name : String} (h : (d.functionRule name).swaps = true) :
    name = "LOCATE" := by
  have hall := functionRule_all (P := fun name rule => rule.swaps = true → name = "LOCATE")
    (fun name h => absurd h Bool.false_ne_true) (by decide +kernel)
  exact hall d name h

/-- Only the functions without arguments lose their parentheses. -/
theorem functionRule_isBare {d : Dialect} {name : String}
    (h : (d.functionRule name).isBare = true) : name ∈ FunctionCatalogue.currents := by
  have hall := functionRule_all
    (P := fun name rule => rule.isBare = true → name ∈ FunctionCatalogue.currents)
    (fun name h => absurd h Bool.false_ne_true) (by decide +kernel)
  exact hall d name h

/-- A call that loses its parentheses has no arguments. -/
theorem functionRule_bareArity {d : Dialect} {name : String} {args : Nat}
    (h : (d.functionRule name).isBare = true)
    (harity : FunctionCatalogue.checkArity name args = .ok ()) : args = 0 := by
  have hcurrent : ∀ name ∈ FunctionCatalogue.currents,
      FunctionCatalogue.arity? name = some ⟨0, some 0⟩ := by
    decide
  have haccepts := FunctionCatalogue.checkArity_ok (hcurrent name (functionRule_isBare h)) harity
  simpa [FunctionCatalogue.Arity.accepts] using haccepts

/-- No rule brings in a question mark or a delimiter. -/
theorem functionRule_inert {d : Dialect} {name w : String} (h : w ∈ (d.functionRule name).words) :
    Placeholder.isInert w = true := by
  have hall := functionRule_all
    (P := fun _ rule => ∀ w ∈ rule.words, Placeholder.isInert w = true)
    (fun name w h => absurd h List.not_mem_nil) (by decide +kernel)
  exact hall d name w h

end Dialect
end PolyglotSql
