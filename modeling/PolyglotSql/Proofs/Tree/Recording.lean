import PolyglotSql.Proofs.Tree.Run
import PolyglotSql.Tree.Walk

/-!
# PolyglotSql.Proofs.Tree.Recording

What a walk tells its visitor. `Visitor.recorded` notes every call that is made of a visitor, with
the tree that the call found and the tree it left, and is otherwise the visitor itself
(`walk_erases`). `Concludes` says what holds when a computation has ended, with a result or with a
defect.
-/

namespace PolyglotSql

open PolyglotSql.Tree

/-! ## How a computation ends -/

section Ending

variable {σ α β : Type} {s : σ} {Q : α → σ → Prop} {E : Defect → σ → Prop}

/-- Started in `s`, the computation ends with a result of which `Q` holds, or with a defect of which
`E` holds. -/
def Concludes (e : ExceptT Defect (StateM σ) α) (s : σ) (Q : α → σ → Prop) (E : Defect → σ → Prop) :
    Prop :=
  match e.run.run s with
  | (.ok a, s') => Q a s'
  | (.error d, s') => E d s'

theorem concludes_pure {a : α} (h : Q a s) : Concludes (pure a) s Q E := h

theorem concludes_throw {d : Defect} (h : E d s) :
    Concludes (throw d : ExceptT Defect (StateM σ) α) s Q E := h

theorem Concludes.imp {e : ExceptT Defect (StateM σ) α} {Q' : α → σ → Prop} (h : Concludes e s Q E)
    (hq : ∀ a s', Q a s' → Q' a s') : Concludes e s Q' E := by
  unfold Concludes at *
  split at h
  · exact hq _ _ h
  · exact h

theorem Concludes.bind {e : ExceptT Defect (StateM σ) α} {f : α → ExceptT Defect (StateM σ) β}
    {R : β → σ → Prop} (h : Concludes e s Q E) (hf : ∀ a s', Q a s' → Concludes (f a) s' R E) :
    Concludes (e >>= f) s R E := by
  unfold Concludes at h ⊢
  rw [run_sequence]
  cases he : e.run.run s with
  | mk r s₁ =>
    rw [he] at h
    cases r with
    | ok a => exact hf a s₁ h
    | error d => exact h

end Ending

/-! ## Events and calls -/

/-- What a visitor is told. -/
inductive Event where
  | nodeStart (node : NodeId)
  | childStart (parent child : NodeId) (index : Nat) (hasMore : Bool)
  | childEnd (parent child : NodeId) (index : Nat) (hasMore : Bool)
  | nodeEnd (node : NodeId)
deriving DecidableEq

/-- A call of a visitor: the tree it found, its answer or the defect it stopped with, and the tree
it left. -/
structure Call where
  event : Event
  found : Tree
  answer : Except Defect Bool
  left : Tree

/-- A walk carries also the calls that were made so far. -/
abbrev Recorded (σ : Type) := σ × List Call

namespace WalkState

variable {σ : Type}

/-- Without the calls. -/
def erase (s : WalkState (Recorded σ)) : WalkState σ :=
  ⟨s.tree, s.memory.1⟩

def calls (s : WalkState (Recorded σ)) : List Call :=
  s.memory.2

end WalkState

/-- Runs a callback and notes the call. -/
def Walk.noted {σ α : Type} (event : Event) (answer : α → Bool) (callback : Walk σ α) :
    Walk (Recorded σ) α := do
  let s ← get
  match callback.run.run s.erase with
  | (result, s') =>
    set ({ tree := s'.tree
           memory := (s'.memory, s.calls ++ [⟨event, s.tree, result.map answer, s'.tree⟩]) } :
      WalkState (Recorded σ))
    match result with
    | .ok a => pure a
    | .error d => throw d

/-- The visitor that notes its calls. -/
def Visitor.recorded {σ : Type} (v : Visitor σ) : Visitor (Recorded σ) where
  onNodeStart node := .noted (.nodeStart node) id (v.onNodeStart node)
  onChildStart parent child index hasMore :=
    .noted (.childStart parent child index hasMore) id (v.onChildStart parent child index hasMore)
  onChildEnd parent child index hasMore :=
    .noted (.childEnd parent child index hasMore) (fun _ => true)
      (v.onChildEnd parent child index hasMore)
  onNodeEnd node := .noted (.nodeEnd node) (fun _ => true) (v.onNodeEnd node)

namespace Walk

variable {σ α β : Type}

theorem run_noted (event : Event) (answer : α → Bool) (callback : Walk σ α)
    (s : WalkState (Recorded σ)) :
    (noted event answer callback).run.run s =
      ((callback.run.run s.erase).1,
        ⟨(callback.run.run s.erase).2.tree, ((callback.run.run s.erase).2.memory,
          s.calls ++ [⟨event, s.tree, (callback.run.run s.erase).1.map answer,
            (callback.run.run s.erase).2.tree⟩])⟩) := by
  refine ((yields_get s).run_bind _).trans ?_
  cases callback.run.run s.erase with
  | mk result s' => cases result <;> rfl

theorem run_edit (e : Edit α) (s : WalkState σ) : (edit e : Walk σ α).run.run s =
    ((e.run.run s.tree).1, { s with tree := (e.run.run s.tree).2 }) := by
  refine ((yields_get s).run_bind _).trans ?_
  cases e.run.run s.tree with
  | mk result tree => cases result <;> rfl

theorem run_read (look : Tree → Except Defect α) (s : WalkState σ) :
    (read look : Walk σ α).run.run s = (look s.tree, s) := by
  rw [read, run_edit, Edit.run_read]

/-! ## Erasure -/

/-- Up to the calls that it notes, `e` runs as `e₀` does. -/
def Erases (e : Walk (Recorded σ) α) (e₀ : Walk σ α) : Prop :=
  ∀ s, e₀.run.run s.erase = ((e.run.run s).1, (e.run.run s).2.erase)

theorem erases_pure (a : α) : Erases (pure a : Walk (Recorded σ) α) (pure a) := fun _ => rfl

theorem erases_throw (d : Defect) : Erases (throw d : Walk (Recorded σ) α) (throw d) := fun _ => rfl

theorem erases_read (look : Tree → Except Defect α) :
    Erases (read look : Walk (Recorded σ) α) (read look) := by
  intro s
  rw [run_read, run_read]
  rfl

theorem erases_noted (event : Event) (answer : α → Bool) (callback : Walk σ α) :
    Erases (noted event answer callback) callback := by
  intro s
  rw [run_noted]
  rfl

theorem Erases.bind {e : Walk (Recorded σ) α} {e₀ : Walk σ α} {f : α → Walk (Recorded σ) β}
    {f₀ : α → Walk σ β} (h : Erases e e₀) (hf : ∀ a, Erases (f a) (f₀ a)) :
    Erases (e >>= f) (e₀ >>= f₀) := by
  intro s
  have hs := h s
  rw [run_sequence, run_sequence]
  cases he : e.run.run s with
  | mk r s₁ =>
    rw [he] at hs
    rw [hs]
    cases r with
    | ok a => exact hf a s₁
    | error d => rfl

theorem Erases.ite {c : Prop} [Decidable c] {e f : Walk (Recorded σ) α} {e₀ f₀ : Walk σ α}
    (he : Erases e e₀) (hf : Erases f f₀) :
    Erases (if c then e else f) (if c then e₀ else f₀) := by
  by_cases h : c
  · rwa [if_pos h, if_pos h]
  · rwa [if_neg h, if_neg h]

end Walk

namespace Visitor

variable {σ : Type} (v : Visitor σ)

theorem walk_erases (steps : Nat) :
    (∀ node, Walk.Erases (v.recorded.visitNode steps node) (v.visitNode steps node)) ∧
      ∀ node index, Walk.Erases (v.recorded.visitChildren steps node index)
        (v.visitChildren steps node index) := by
  induction steps with
  | zero => exact ⟨fun node => Walk.erases_throw _, fun node index => Walk.erases_throw _⟩
  | succ steps ih =>
    refine ⟨fun node => ?_, fun node index => ?_⟩
    · rw [visitNode, visitNode]
      refine (Walk.erases_noted _ _ _).bind fun descend => ?_
      exact .ite ((ih.2 node 0).bind fun _ => Walk.erases_noted _ _ _) (Walk.erases_noted _ _ _)
    · have hend (child : NodeId) :
          Walk.Erases (do
              let count ← Walk.read (·.childCount node)
              v.recorded.onChildEnd node child index (index + 1 < count)
              v.recorded.visitChildren steps node (index + 1))
            (do
              let count ← Walk.read (·.childCount node)
              v.onChildEnd node child index (index + 1 < count)
              v.visitChildren steps node (index + 1)) :=
        (Walk.erases_read _).bind fun count =>
          (Walk.erases_noted _ _ _).bind fun _ => ih.2 node (index + 1)
      rw [visitChildren, visitChildren]
      refine (Walk.erases_read _).bind fun count => .ite ?_ (Walk.erases_pure ())
      refine (Walk.erases_read _).bind fun child => (Walk.erases_noted _ _ _).bind fun descend => ?_
      refine (Walk.erases_read _).bind fun count => .ite ?_ (Walk.erases_pure ())
      refine (Walk.erases_read _).bind fun child => ?_
      exact .ite ((ih.1 child).bind fun _ => hend child) (hend child)

/-- The walk makes these calls, and ends so. -/
structure Makes (steps : Nat) (s : WalkState σ) (result : Except Defect Unit) (s' : WalkState σ)
    (calls : List Call) : Prop where
  run : (v.visit steps).run.run s = (result, s')
  recorded : (v.recorded.visit steps).run.run ⟨s.tree, (s.memory, [])⟩ =
    (result, ⟨s'.tree, (s'.memory, calls)⟩)

/-- The calls of a walk are those of the visitor that notes them. -/
theorem makes_recorded (steps : Nat) (s : WalkState σ) {result : Except Defect Unit}
    {s' : WalkState (Recorded σ)}
    (h : (v.recorded.visitNode steps s.tree.root).run.run ⟨s.tree, (s.memory, [])⟩ =
      (result, s')) :
    v.Makes steps s result s'.erase s'.calls := by
  have herases := (v.walk_erases steps).1 s.tree.root ⟨s.tree, (s.memory, [])⟩
  rw [h] at herases
  exact ⟨((yields_get s).run_bind _).trans herases, ((yields_get _).run_bind _).trans h⟩

end Visitor
end PolyglotSql
