import PolyglotSql.Proofs.Rendering.Bindings
import PolyglotSql.Proofs.Tree.Rendering

/-!
# PolyglotSql.Proofs.Rendering.Styles

Rendering one tree under different quoting policies. Whether it fails, and how, and what is bound do
not depend on the policy, whatever the tree (`Tree.render_styles`).
-/

namespace PolyglotSql

/-- Both with the same defect, or both with the same bindings. -/
inductive SameBindings : Except Defect Sink → Except Defect Sink → Prop
  | error (d : Defect) : SameBindings (.error d) (.error d)
  | ok {s s' : Sink} (h : s.bindings = s'.bindings) : SameBindings (.ok s) (.ok s')

namespace SameBindings

theorem bind {x y : Except Defect Sink} {f g : Sink → Except Defect Sink} (h : SameBindings x y)
    (hfg : ∀ s s', s.bindings = s'.bindings → SameBindings (f s) (g s')) :
    SameBindings (x >>= f) (y >>= g) := by
  cases h with
  | error d => exact .error d
  | ok h => exact hfg _ _ h

/-- What is read off a tree is the same on both sides. -/
theorem read {α : Type} (x : Except Defect α) {f g : α → Except Defect Sink}
    (h : ∀ a, SameBindings (f a) (g a)) : SameBindings (x >>= f) (x >>= g) := by
  cases x with
  | error d => exact .error d
  | ok a => exact h a

end SameBindings

/-- Going on from sinks with the same bindings fails alike, or leads to such sinks. -/
def Respects (f : Sink → Except Defect Sink) : Prop :=
  ∀ ⦃s s' : Sink⦄, s.bindings = s'.bindings → SameBindings (f s) (f s')

namespace Tree

section

variable {t : Tree} {render : NodeId → Sink → Except Defect Sink}

theorem renderValue_respects (column : Option Attribute) (value : Value) :
    Respects (renderValue column value) := by
  intro s s' h
  rw [renderValue_pieces, renderValue_pieces]
  exact .ok (by rw [Sink.putAll_numbered, Sink.putAll_numbered, h])

theorem renderColumn_bindings (s : Slot) (ref : ColumnRef) (sink : Sink) :
    (t.renderColumn s ref sink).bindings = sink.bindings := by
  unfold renderColumn renderQualifier
  split
  · dsimp only
    split <;> rfl
  · rfl

theorem renderEscape_bindings (escape : Option Char) (sink : Sink) :
    (renderEscape escape sink).bindings = sink.bindings := by
  cases escape with
  | none => rfl
  | some c =>
    unfold renderEscape
    dsimp only
    split <;> rfl

theorem renderSeparated_respects {between : Nat → NodeId → NodeId → Except Defect String}
    (hrender : ∀ id, Respects (render id)) (index : Nat) (before : Option NodeId)
    (ids : List NodeId) : Respects (renderSeparated between render index before ids) := by
  induction ids generalizing index before with
  | nil => exact fun _ _ h => .ok h
  | cons id ids ih =>
    intro s s' h
    cases before with
    | none => exact (hrender id h).bind fun _ _ h => ih _ _ h
    | some b =>
      refine .read _ fun separator => ?_
      exact SameBindings.bind (hrender id h) fun _ _ h => ih _ _ h

theorem renderShape_respects (hrender : ∀ id, Respects (render id)) (id : NodeId) (s : Slot) :
    Respects (t.renderShape render id s) := by
  intro sink sink' h
  have hall (separator : String) (ids : List NodeId) :
      Respects (renderAll separator render ids) := renderSeparated_respects hrender 0 none ids
  unfold renderShape
  cases s.node
  case select =>
    refine .read _ fun above => ?_
    refine .bind (hall _ _ ?_) fun _ _ h => ?_
    · split <;> exact h
    · split <;> exact .ok h
  case distinct => exact .read _ fun above => .ok h
  case fromClause => exact renderSeparated_respects hrender 0 none _ h
  case table name schema alias_ => cases schema <;> cases alias_ <;> exact .ok h
  case join kind =>
    rcases s.children with _ | ⟨table, _ | ⟨condition, _⟩⟩
    · exact .ok h
    · exact hrender table h
    · exact SameBindings.bind (hrender table h) fun _ _ h => hrender condition h
  case ordering direction =>
    refine .bind (hall _ _ h) fun _ _ h => ?_
    cases direction <;> exact .ok h
  case limitOffset | page | text => exact .ok h
  case column ref => exact .ok (by rw [renderColumn_bindings, renderColumn_bindings, h])
  case trimmedColumn ref strip =>
    refine .ok ?_
    show (renderColumn ..).bindings = (renderColumn ..).bindings
    rw [renderColumn_bindings, renderColumn_bindings]
    exact h
  case value value column => exact renderValue_respects column value h
  case castValue value column target length =>
    refine .bind (renderValue_respects column value ?_) fun _ _ h => .ok h
    exact h
  case function name parentheses origin =>
    cases parentheses with
    | false => exact .ok h
    | true =>
      refine .bind (renderSeparated_respects hrender 0 none _ ?_) fun _ _ h => .ok h
      exact h
  case keywordCall name keywords =>
    refine .bind (renderSeparated_respects hrender 0 none _ ?_) fun _ _ h => .ok h
    exact h
  case group | not =>
    refine .bind (hall _ _ ?_) fun _ _ h => .ok h
    exact h
  case boolean op =>
    refine .read _ fun above => .bind (hall _ _ ?_) fun _ _ h => .ok ?_
    · split <;> exact h
    · split <;> exact h
  case equality op =>
    refine .read _ fun ⟨left, right⟩ => .bind (hrender left h) fun _ _ h => .read _ fun other => ?_
    split
    · exact .ok h
    · exact hrender right h
  case like operator ignoreCase negated escape =>
    refine .read _ fun ⟨left, right⟩ => .bind (hrender left h) fun _ _ h => ?_
    refine .bind (hrender right ?_) fun _ _ h => .ok ?_
    · exact h
    · rw [renderEscape_bindings, renderEscape_bindings, h]
  case in_ negated =>
    exact .read _ fun ⟨left, right⟩ => .bind (hrender left h) fun _ _ h => hrender right h
  case between negated =>
    refine .read _ fun ⟨subject, low, high⟩ => .bind (hrender subject h) fun _ _ h => ?_
    exact SameBindings.bind (hrender low h) fun _ _ h => hrender high h
  all_goals exact hall _ _ h

theorem renderAlias_respects (s : Slot) : Respects (t.renderAlias s) := by
  intro sink sink' h
  unfold renderAlias
  cases s.alias_ with
  | none => exact .ok h
  | some alias_ =>
    refine .read _ fun above => ?_
    split <;> exact .ok h

theorem renderBelow_respects (depth : Nat) (id : NodeId) : Respects (t.renderBelow depth id) := by
  induction depth generalizing id with
  | zero => exact fun _ _ _ => .error _
  | succ depth ih =>
    intro sink sink' h
    refine .read _ fun s => .bind (renderShape_respects ih id s h) fun _ _ h => ?_
    exact renderAlias_respects s h

/-- Two policies render a tree with the same bindings, or fail with the same defect. -/
theorem render_styles (style style' : QuoteStyle) :
    (t.render style).map (·.bindings) = (t.render style').map (·.bindings) := by
  have h : SameBindings (t.renderInto (Sink.new style)) (t.renderInto (Sink.new style')) :=
    renderBelow_respects _ _ rfl
  unfold render
  generalize t.renderInto (Sink.new style) = x at h ⊢
  generalize t.renderInto (Sink.new style') = y at h ⊢
  cases h with
  | error d => rfl
  | ok h => exact congrArg Except.ok h

end
end Tree
end PolyglotSql
