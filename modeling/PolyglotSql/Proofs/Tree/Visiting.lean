import Mathlib.Data.List.Chain
import PolyglotSql.Proofs.Tree.Recording

/-!
# PolyglotSql.Proofs.Tree.Visiting

How the calls of a walk follow each other. The callbacks may edit the tree as they like, so this is
all that is known of an arbitrary walk (`Journal`):

* Read with the nodes that are open, its calls nest as brackets, and the children of a node are
  started in turn, from the first one on (`Event.read`).
* A node is entered right after its place was started, and it is what stands in that place then
  (`Call.Precedes`).
* The walk itself asks for no child that is missing: it stops with a defect of a callback, at a slot
  outside of the arena, or when its steps are used up (`Stops`).

`walk_journal` is the invariant of the whole walk; the induction is on the steps that may still be
nested.
-/

namespace PolyglotSql

open PolyglotSql.Tree

namespace Event

/-- Reads an event with the nodes that are open, innermost first, each with the number of its
children that were started; an event out of order is none. -/
def read : List (NodeId × Nat) → Event → Option (List (NodeId × Nat))
  | opened, nodeStart node => some ((node, 0) :: opened)
  | (node, count) :: opened, childStart parent _ index _ =>
    if parent = node ∧ index = count then some ((node, count + 1) :: opened) else none
  | (node, count) :: opened, childEnd parent _ index _ =>
    if parent = node ∧ index + 1 = count then some ((node, count) :: opened) else none
  | (node, _) :: opened, nodeEnd last => if last = node then some opened else none
  | [], _ => none

/-- An event around a child tells whether more children follow; when the child starts, it is in its
place. -/
def Placed (t : Tree) : Event → Prop
  | childStart parent child index hasMore => t.child parent index = .ok child ∧
    ∃ count, t.childCount parent = .ok count ∧ hasMore = decide (index + 1 < count)
  | childEnd parent _ index hasMore =>
    ∃ count, t.childCount parent = .ok count ∧ hasMore = decide (index + 1 < count)
  | _ => True

end Event

namespace Call

/-- What a call lets come next. A node is entered exactly if the call before started its place, was
not declined, and left the node in that place. A child ends that was visited or declined. -/
structure Precedes (a : Call) (event : Event) : Prop where
  enters : ∀ node, event = .nodeStart node ↔ ∃ parent child index hasMore,
    a.event = .childStart parent child index hasMore ∧ a.answer = .ok true ∧
      a.left.child parent index = .ok node
  leaves : ∀ parent child index hasMore, event = .childEnd parent child index hasMore →
    a.event = .nodeEnd child ∨ ∃ former hadMore,
      a.event = .childStart parent former index hadMore ∧ a.answer = .ok false ∧
        a.left.child parent index = .ok child

structure Follows (a b : Call) : Prop where
  found : b.found = a.left
  answered : a.answer.isOk
  precedes : a.Precedes b.event

/-- After the call, no node is to be entered. -/
def Idle (a : Call) : Prop :=
  ∀ parent child index hasMore node, a.event = .childStart parent child index hasMore →
    a.answer = .ok true → a.left.child parent index ≠ .ok node

theorem Idle.precedes_childStart {a : Call} (h : a.Idle) (parent child : NodeId) (index : Nat)
    (hasMore : Bool) : a.Precedes (.childStart parent child index hasMore) where
  enters _ := ⟨nofun, fun ⟨_, _, _, _, he, ha, hc⟩ => absurd hc (h _ _ _ _ _ he ha)⟩
  leaves := nofun

theorem Idle.precedes_nodeEnd {a : Call} (h : a.Idle) (node : NodeId) :
    a.Precedes (.nodeEnd node) where
  enters _ := ⟨nofun, fun ⟨_, _, _, _, he, ha, hc⟩ => absurd hc (h _ _ _ _ _ he ha)⟩
  leaves := nofun

theorem idle_of_event {a : Call}
    (h : ∀ parent child index hasMore, a.event ≠ .childStart parent child index hasMore) : a.Idle :=
  fun _ _ _ _ _ he => absurd he (h _ _ _ _)

/-- The place was started and not declined, so what stands there is entered. -/
theorem precedes_nodeStart {a : Call} {parent former child : NodeId} {index : Nat} {hasMore : Bool}
    (he : a.event = .childStart parent former index hasMore) (ha : a.answer = .ok true)
    (hc : a.left.child parent index = .ok child) : a.Precedes (.nodeStart child) where
  enters node := by
    refine ⟨fun hn => ?_, fun ⟨_, _, _, _, he', _, hc'⟩ => ?_⟩
    · obtain rfl := Event.nodeStart.inj hn
      exact ⟨parent, former, index, hasMore, he, ha, hc⟩
    · obtain ⟨rfl, -, rfl, -⟩ := Event.childStart.inj (he.symm.trans he')
      rw [Except.ok.inj (hc.symm.trans hc')]
  leaves := nofun

/-- The place was declined, so what stands there ends at once. -/
theorem precedes_declined {a : Call} {parent former child : NodeId} {index : Nat}
    {hadMore hasMore : Bool} (he : a.event = .childStart parent former index hadMore)
    (ha : a.answer = .ok false) (hc : a.left.child parent index = .ok child) :
    a.Precedes (.childEnd parent child index hasMore) where
  enters _ := ⟨nofun, fun ⟨_, _, _, _, _, ha', _⟩ => nomatch ha.symm.trans ha'⟩
  leaves _ _ _ _ hend := by
    obtain ⟨rfl, rfl, rfl, -⟩ := Event.childEnd.inj hend
    exact .inr ⟨former, hadMore, he, ha, hc⟩

theorem precedes_visited {a : Call} {parent child : NodeId} {index : Nat} {hasMore : Bool}
    (he : a.event = .nodeEnd child) : a.Precedes (.childEnd parent child index hasMore) where
  enters _ := ⟨nofun, fun ⟨_, _, _, _, he', _⟩ => nomatch he.symm.trans he'⟩
  leaves _ _ _ _ hend := by
    obtain ⟨rfl, rfl, rfl, -⟩ := Event.childEnd.inj hend
    exact .inl he

end Call

/-- What is known of the calls that a walk over `t` made, with the nodes that are open after
them. -/
structure Journal (t : Tree) (calls : List Call) (opened : List (NodeId × Nat)) : Prop where
  reads : (calls.map Call.event).foldlM Event.read [] = some opened
  first : ∀ a ∈ calls.head?, a.event = .nodeStart t.root ∧ a.found = t
  chain : calls.IsChain Call.Follows
  placed : ∀ a ∈ calls, a.event.Placed a.found

/-- Why a walk stops early: a callback stopped, or the walk itself came to a slot outside of the
arena or used up its steps. -/
inductive Stops (calls : List Call) (t : Tree) : Defect → Prop where
  | callback {a : Call} {d : Defect} : calls.getLast? = some a → a.answer = .error d →
      Stops calls t d
  | foreign {node : NodeId} : (∀ a ∈ calls.getLast?, a.answer.isOk) → t.size ≤ node →
      Stops calls t (.foreignNode node)
  | endless {node : NodeId} : (∀ a ∈ calls.getLast?, a.answer.isOk) →
      Stops calls t (.endless node)

/-! ## One call more -/

/-- The tree that some calls left, the first of which found `t`. -/
def leftBy (t : Tree) (calls : List Call) : Tree :=
  (calls.getLast?.map Call.left).getD t

/-- An event that may come after some calls. -/
def Admits (t : Tree) (calls : List Call) (event : Event) : Prop :=
  match calls.getLast? with
  | none => event = .nodeStart t.root
  | some a => a.Precedes event

section Track

variable {σ α : Type} {t : Tree} {opened opened' : List (NodeId × Nat)} {calls : List Call}
  {s s' : WalkState (Recorded σ)}

@[simp] theorem leftBy_snoc (t : Tree) (calls : List Call) (b : Call) :
    leftBy t (calls ++ [b]) = b.left := by
  simp [leftBy]

theorem admits_last {a : Call} {event : Event} (ha : calls.getLast? = some a)
    (h : a.Precedes event) : Admits t calls event := by
  rw [Admits, ha]
  exact h

/-- One call more, of an event that may come next and that can be read. -/
theorem Journal.snoc (h : Journal t calls opened) (hanswered : ∀ a ∈ calls.getLast?, a.answer.isOk)
    {b : Call} (hadmits : Admits t calls b.event) (hfound : b.found = leftBy t calls)
    (hread : b.event.read opened = some opened') (hplaced : b.event.Placed b.found) :
    Journal t (calls ++ [b]) opened' where
  reads := by
    rw [List.map_append, List.foldlM_append, h.reads]
    simp [hread]
  first a ha := by
    cases calls with
    | nil =>
      obtain rfl : b = a := by simpa using ha
      exact ⟨hadmits, hfound⟩
    | cons c calls => exact h.first a (by simpa using ha)
  chain := by
    refine h.chain.append (.singleton b) fun a ha b' hb => ?_
    obtain rfl : b = b' := by simpa using hb
    have hlast : calls.getLast? = some a := ha
    rw [Admits, hlast] at hadmits
    rw [leftBy, hlast] at hfound
    exact ⟨hfound, hanswered a ha, hadmits⟩
  placed a ha := by
    rcases List.mem_append.1 ha with ha | ha
    · exact h.placed a ha
    · rw [List.mem_singleton.1 ha]
      exact hplaced

/-- A walk over `t` that goes on. -/
structure Track (t : Tree) (opened : List (NodeId × Nat)) (s : WalkState (Recorded σ)) : Prop where
  journal : Journal t s.calls opened
  tree : s.tree = leftBy t s.calls
  answered : ∀ a ∈ s.calls.getLast?, a.answer.isOk

/-- A walk over `t` that stopped. -/
def Broken (t : Tree) (d : Defect) (s : WalkState (Recorded σ)) : Prop :=
  ∃ opened, Journal t s.calls opened ∧ s.tree = leftBy t s.calls ∧ Stops s.calls s.tree d

theorem Track.endless (h : Track t opened s) (node : NodeId) : Broken t (.endless node) s :=
  ⟨opened, h.journal, h.tree, .endless h.answered⟩

/-- Calling back: the call is noted, however it ends. -/
theorem Track.concludes_noted (h : Track t opened s) {event : Event} (answer : α → Bool)
    (callback : Walk σ α) (hadmits : Admits t s.calls event)
    (hread : event.read opened = some opened') (hplaced : event.Placed s.tree) :
    Concludes (Walk.noted event answer callback) s (fun a s' => Track t opened' s' ∧
      s'.calls.getLast? = some ⟨event, s.tree, .ok (answer a), s'.tree⟩) (Broken t) := by
  have hsnoc (result : Except Defect Bool) (left : Tree) :
      Journal t (s.calls ++ [⟨event, s.tree, result, left⟩]) opened' :=
    h.journal.snoc h.answered hadmits h.tree hread hplaced
  have hleft (result : Except Defect Bool) (left : Tree) :
      left = leftBy t (s.calls ++ [⟨event, s.tree, result, left⟩]) := by simp
  have hlast (b : Call) : (s.calls ++ [b]).getLast? = some b := by simp
  unfold Concludes
  rw [Walk.run_noted]
  cases callback.run.run s.erase with
  | mk result s' =>
    cases result with
    | ok a =>
      refine ⟨⟨hsnoc _ _, hleft _ _, fun b hb => ?_⟩, hlast _⟩
      obtain rfl := Option.some.inj ((hlast _).symm.trans hb)
      rfl
    | error d =>
      exact ⟨opened', hsnoc _ _, hleft _ _, .callback (hlast _) rfl⟩

theorem Track.concludes_childCount (h : Track t opened s) (node : NodeId) :
    Concludes (Walk.read (·.childCount node)) s (fun count s' => s' = s ∧
      s.tree.childCount node = .ok count) (Broken t) := by
  unfold Concludes
  rw [Walk.run_read]
  cases hs : s.tree.slots[node]? with
  | none =>
    simp only [childCount, slot, hs, Except.map]
    exact ⟨opened, h.journal, h.tree, .foreign h.answered (Array.getElem?_eq_none_iff.1 hs)⟩
  | some slot => simp [childCount, slot_ok hs, Except.map]

/-- Exactly the children that are counted are there. -/
theorem child_iff {node index count : Nat} (hcount : t.childCount node = .ok count) :
    (∃ child, t.child node index = .ok child) ↔ index < count := by
  obtain ⟨slot, hs, rfl⟩ := childCount_ok.1 hcount
  simp [child_ok, hs, List.getElem?_eq_some_iff]

theorem concludes_child {node index count : Nat} {E : Defect → WalkState (Recorded σ) → Prop}
    (hcount : s.tree.childCount node = .ok count) (hindex : index < count) :
    Concludes (Walk.read (·.child node index)) s (fun child s' => s' = s ∧
      s.tree.child node index = .ok child) E := by
  obtain ⟨child, hchild⟩ := (child_iff hcount).2 hindex
  unfold Concludes
  rw [Walk.run_read, hchild]
  exact ⟨rfl, rfl⟩

end Track

/-! ## The whole walk -/

namespace Visitor

variable {σ : Type}

/-- A visit of a node that may be entered now opens and closes it. -/
def NodeJournal (v : Visitor σ) (steps : Nat) : Prop :=
  ∀ {t : Tree} {opened : List (NodeId × Nat)} {s : WalkState (Recorded σ)} (node : NodeId),
    Track t opened s → Admits t s.calls (.nodeStart node) →
    Concludes (v.recorded.visitNode steps node) s
      (fun _ s' => Track t opened s' ∧ ∃ a, s'.calls.getLast? = some a ∧ a.event = .nodeEnd node)
      (Broken t)

/-- A visit of the children of a node from some index on leaves the node open. -/
def ChildrenJournal (v : Visitor σ) (steps : Nat) : Prop :=
  ∀ {t : Tree} {opened : List (NodeId × Nat)} {s : WalkState (Recorded σ)} (node : NodeId)
    (index : Nat), Track t ((node, index) :: opened) s →
    (∃ a, s.calls.getLast? = some a ∧ a.Idle) →
    Concludes (v.recorded.visitChildren steps node index) s
      (fun _ s' => (∃ count, Track t ((node, count) :: opened) s') ∧
        ∃ a, s'.calls.getLast? = some a ∧ a.Idle)
      (Broken t)

theorem nodeJournal_succ {v : Visitor σ} {steps : Nat} (ih : v.ChildrenJournal steps) :
    v.NodeJournal (steps + 1) := by
  intro t opened s node h hadmits
  have hend {count : Nat} {s' : WalkState (Recorded σ)} (h : Track t ((node, count) :: opened) s')
      {a : Call} (ha : s'.calls.getLast? = some a) (hidle : a.Idle) :
      Concludes (v.recorded.onNodeEnd node) s'
        (fun _ s' => Track t opened s' ∧
          ∃ a, s'.calls.getLast? = some a ∧ a.event = .nodeEnd node) (Broken t) := by
    refine (h.concludes_noted _ _ (admits_last ha (hidle.precedes_nodeEnd node)) (if_pos rfl)
      trivial).imp ?_
    rintro _ s₁ ⟨h₁, hlast⟩
    exact ⟨h₁, _, hlast, rfl⟩
  rw [visitNode]
  refine (h.concludes_noted _ _ hadmits rfl trivial).bind ?_
  rintro descend s₁ ⟨h₁, hlast⟩
  have hidle : Call.Idle ⟨.nodeStart node, s.tree, .ok (id descend), s₁.tree⟩ :=
    Call.idle_of_event (by simp)
  cases descend with
  | false => exact hend h₁ hlast hidle
  | true =>
    refine (ih node 0 h₁ ⟨_, hlast, hidle⟩).bind ?_
    rintro _ s₂ ⟨⟨_, h₂⟩, _, ha, hidle⟩
    exact hend h₂ ha hidle

theorem childrenJournal_succ {v : Visitor σ} {steps : Nat} (ihnode : v.NodeJournal steps)
    (ih : v.ChildrenJournal steps) : v.ChildrenJournal (steps + 1) := by
  rintro t opened s node index h ⟨a, ha, hidle⟩
  -- What comes once a child was visited or declined.
  have hend (child : NodeId) {s' : WalkState (Recorded σ)}
      (h : Track t ((node, index + 1) :: opened) s')
      (hadmits : ∀ hasMore, Admits t s'.calls (.childEnd node child index hasMore)) :
      Concludes (do
          let count ← Walk.read (·.childCount node)
          v.recorded.onChildEnd node child index (index + 1 < count)
          v.recorded.visitChildren steps node (index + 1)) s'
        (fun _ s' => (∃ count, Track t ((node, count) :: opened) s') ∧
          ∃ a, s'.calls.getLast? = some a ∧ a.Idle) (Broken t) := by
    refine (h.concludes_childCount node).bind ?_
    rintro count _ ⟨rfl, hcount⟩
    refine (h.concludes_noted _ _ (hadmits _) (if_pos ⟨rfl, rfl⟩) ⟨count, hcount, rfl⟩).bind ?_
    rintro _ s₁ ⟨h₁, hlast⟩
    exact ih node (index + 1) h₁
      ⟨_, hlast, Call.idle_of_event (by simp)⟩
  rw [visitChildren]
  refine (h.concludes_childCount node).bind ?_
  rintro count _ ⟨rfl, hcount⟩
  split
  case isFalse => exact concludes_pure ⟨⟨index, h⟩, a, ha, hidle⟩
  case isTrue hlt =>
    refine (concludes_child hcount hlt).bind ?_
    rintro former _ ⟨rfl, hformer⟩
    refine (h.concludes_noted _ _ (admits_last ha (hidle.precedes_childStart _ _ _ _))
      (if_pos ⟨rfl, rfl⟩) ⟨hformer, count, hcount, rfl⟩).bind ?_
    rintro descend s₁ ⟨h₁, hlast⟩
    refine (h₁.concludes_childCount node).bind ?_
    rintro count₁ _ ⟨rfl, hcount₁⟩
    split
    case isFalse hgone =>
      refine concludes_pure ⟨⟨_, h₁⟩, _, hlast, fun _ _ _ _ child he _ hchild => ?_⟩
      obtain ⟨rfl, -, rfl, -⟩ := Event.childStart.inj he
      exact hgone ((child_iff hcount₁).1 ⟨child, hchild⟩)
    case isTrue hlt₁ =>
      refine (concludes_child hcount₁ hlt₁).bind ?_
      rintro child _ ⟨rfl, hchild⟩
      cases descend with
      | false =>
        exact hend child h₁ fun _ => admits_last hlast (Call.precedes_declined rfl rfl hchild)
      | true =>
        have henter := admits_last (t := t) hlast (Call.precedes_nodeStart rfl rfl hchild)
        refine (ihnode child h₁ henter).bind ?_
        rintro _ s₂ ⟨h₂, b, hb, hevent⟩
        exact hend child h₂ fun _ => admits_last hb (Call.precedes_visited hevent)

theorem walk_journal (v : Visitor σ) (steps : Nat) :
    v.NodeJournal steps ∧ v.ChildrenJournal steps := by
  induction steps with
  | zero =>
    exact ⟨fun node h _ => concludes_throw (h.endless node),
      fun node _ h _ => concludes_throw (h.endless node)⟩
  | succ steps ih => exact ⟨nodeJournal_succ ih.2, childrenJournal_succ ih.1 ih.2⟩

/-- Every walk has its journal. When it has ended, no node is open, and the root was left last. -/
theorem makes_journal (v : Visitor σ) (steps : Nat) (s : WalkState σ) :
    ∃ result s' calls opened, v.Makes steps s result s' calls ∧ Journal s.tree calls opened ∧
      s'.tree = leftBy s.tree calls ∧
      (result = .ok () → opened = [] ∧
        ∃ a, calls.getLast? = some a ∧ a.event = .nodeEnd s.tree.root) ∧
      ∀ d, result = .error d → Stops calls s'.tree d := by
  have hstart : Track s.tree [] (⟨s.tree, (s.memory, [])⟩ : WalkState (Recorded σ)) :=
    ⟨⟨rfl, nofun, .nil, nofun⟩, rfl, nofun⟩
  have hends := (v.walk_journal steps).1 s.tree.root hstart rfl
  unfold Concludes at hends
  cases hrun : (v.recorded.visitNode steps s.tree.root).run.run ⟨s.tree, (s.memory, [])⟩ with
  | mk result s' =>
    rw [hrun] at hends
    have hmakes := v.makes_recorded steps s hrun
    cases result with
    | ok u =>
      obtain ⟨htrack, hlast⟩ := hends
      exact ⟨_, _, _, [], hmakes, htrack.journal, htrack.tree, fun _ => ⟨rfl, hlast⟩, nofun⟩
    | error d =>
      obtain ⟨opened, hjournal, htree, hstops⟩ := hends
      refine ⟨_, _, _, opened, hmakes, hjournal, htree, nofun, fun d' hd => ?_⟩
      obtain rfl := Except.error.inj hd
      exact hstops

end Visitor
end PolyglotSql
