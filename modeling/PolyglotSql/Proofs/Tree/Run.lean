import PolyglotSql.Tree.Edit

/-!
# PolyglotSql.Proofs.Tree.Run

Running edits, step by step. `Yields e s a s'` says that `e` started in `s` ends without a defect,
gives `a` and leaves `s'`; the rule for sequences chains such facts. Each primitive edit gets one
fact, with the tree it leaves written out by `Tree.change` and `Tree.grow`.

The edits that attach a node ask for an ascent: `Ascends t id up` says that following parents from
`id` visits the slots `up` and ends at a slot without a parent. A node outside of `up` may be
attached at `id`.
-/

namespace PolyglotSql

/-- Started in `s`, the computation ends without a defect, gives `a` and leaves `s'`. -/
def Yields {σ α : Type} (e : ExceptT Defect (StateM σ) α) (s : σ) (a : α) (s' : σ) : Prop :=
  e.run.run s = (.ok a, s')

/-- A sequence goes on after a result and stops after a defect. -/
theorem run_sequence {σ α β : Type} (e : ExceptT Defect (StateM σ) α)
    (f : α → ExceptT Defect (StateM σ) β) (s : σ) :
    (e >>= f).run.run s =
      match e.run.run s with
      | (.ok a, s') => (f a).run.run s'
      | (.error d, s') => (.error d, s') := by
  rw [ExceptT.run_bind]
  simp only [StateT.run_bind]
  cases e.run.run s with
  | mk r s' => cases r <;> rfl

theorem Yields.run_bind {σ α β : Type} {e : ExceptT Defect (StateM σ) α} {s s₁ : σ} {a : α}
    (h : Yields e s a s₁) (f : α → ExceptT Defect (StateM σ) β) :
    (e >>= f).run.run s = (f a).run.run s₁ := by
  unfold Yields at h
  rw [run_sequence, h]

theorem Yields.bind {σ α β : Type} {e : ExceptT Defect (StateM σ) α}
    {f : α → ExceptT Defect (StateM σ) β} {s s₁ s₂ : σ} {a : α} {b : β}
    (h : Yields e s a s₁) (hf : Yields (f a) s₁ b s₂) : Yields (e >>= f) s b s₂ :=
  (h.run_bind f).trans hf

theorem yields_pure {σ α : Type} (a : α) (s : σ) :
    Yields (pure a : ExceptT Defect (StateM σ) α) s a s := rfl

theorem yields_get {σ : Type} (s : σ) : Yields (get : ExceptT Defect (StateM σ) σ) s s s := rfl

/-- A computation has one result. -/
theorem Yields.unique {σ α : Type} {e : ExceptT Defect (StateM σ) α} {s s₁ s₂ : σ} {a b : α}
    (h₁ : Yields e s a s₁) (h₂ : Yields e s b s₂) : a = b ∧ s₁ = s₂ := by
  have h : ((.ok a, s₁) : Except Defect α × σ) = (.ok b, s₂) := h₁.symm.trans h₂
  cases h
  exact ⟨rfl, rfl⟩

/-- The steps of a sequence that ends without a defect. -/
theorem Yields.steps {σ α β : Type} {e : ExceptT Defect (StateM σ) α}
    {f : α → ExceptT Defect (StateM σ) β} {s s₂ : σ} {b : β} (h : Yields (e >>= f) s b s₂) :
    ∃ a s₁, Yields e s a s₁ ∧ Yields (f a) s₁ b s₂ := by
  unfold Yields at *
  rw [run_sequence] at h
  cases he : e.run.run s with
  | mk r s₁ =>
    rw [he] at h
    cases r with
    | error defect => cases h
    | ok a => exact ⟨a, s₁, rfl, h⟩

/-- What follows the first step of a sequence. -/
theorem Yields.rest {σ α β : Type} {e : ExceptT Defect (StateM σ) α}
    {f : α → ExceptT Defect (StateM σ) β} {s s₁ s₂ : σ} {a : α} {b : β}
    (h : Yields (e >>= f) s b s₂) (he : Yields e s a s₁) : Yields (f a) s₁ b s₂ := by
  obtain ⟨a', s', he', hf⟩ := h.steps
  obtain ⟨rfl, rfl⟩ := he.unique he'
  exact hf

namespace Tree

def change (t : Tree) (id : NodeId) (f : Slot → Slot) : Tree :=
  { t with slots := t.slots.modify id f }

/-- The tree with one slot more. -/
def grow (t : Tree) (s : Slot) : Tree :=
  { t with slots := t.slots.push s }

@[simp] theorem change_root (t : Tree) (id : NodeId) (f : Slot → Slot) :
    (t.change id f).root = t.root := rfl

@[simp] theorem change_size (t : Tree) (id : NodeId) (f : Slot → Slot) :
    (t.change id f).slots.size = t.slots.size := by
  simp [change]

theorem change_slots (t : Tree) (id j : NodeId) (f : Slot → Slot) :
    (t.change id f).slots[j]? = if id = j then t.slots[j]?.map f else t.slots[j]? := by
  simp [change, Array.getElem?_modify]

theorem change_self {t : Tree} {id : NodeId} {s : Slot} (f : Slot → Slot)
    (h : t.slots[id]? = some s) : (t.change id f).slots[id]? = some (f s) := by
  rw [change_slots, if_pos rfl, h]; rfl

theorem change_other {t : Tree} {id j : NodeId} (f : Slot → Slot) (h : id ≠ j) :
    (t.change id f).slots[j]? = t.slots[j]? := by
  rw [change_slots, if_neg h]

@[simp] theorem grow_root (t : Tree) (s : Slot) : (t.grow s).root = t.root := rfl

@[simp] theorem grow_size (t : Tree) (s : Slot) : (t.grow s).slots.size = t.slots.size + 1 := by
  simp [grow]

theorem grow_new (t : Tree) (s : Slot) : (t.grow s).slots[t.slots.size]? = some s := by
  simp [grow]

theorem grow_old {t : Tree} {id : NodeId} (s : Slot) (h : id < t.slots.size) :
    (t.grow s).slots[id]? = t.slots[id]? := by
  simp [grow, Array.getElem?_push, Nat.ne_of_lt h]

theorem lt_of_slot {t : Tree} {id : NodeId} {s : Slot} (h : t.slots[id]? = some s) :
    id < t.slots.size := by
  obtain ⟨hlt, _⟩ := Array.getElem?_eq_some_iff.1 h
  exact hlt

theorem slot_ok {t : Tree} {id : NodeId} {s : Slot} (h : t.slots[id]? = some s) :
    t.slot id = .ok s := by
  simp [slot, h]

theorem slot_map_ok {α : Type} {t : Tree} {id : NodeId} {f : Slot → α} {a : α} :
    (t.slot id).map f = .ok a ↔ ∃ s, t.slots[id]? = some s ∧ f s = a := by
  cases hs : t.slots[id]? with
  | none => simp [slot, hs, Except.map]
  | some s => simp [slot_ok hs, Except.map]

theorem children_ok {t : Tree} {id : NodeId} {cs : List NodeId} :
    t.children id = .ok cs ↔ ∃ s, t.slots[id]? = some s ∧ s.children = cs := slot_map_ok

theorem childCount_ok {t : Tree} {id : NodeId} {count : Nat} :
    t.childCount id = .ok count ↔ ∃ s, t.slots[id]? = some s ∧ s.children.length = count :=
  slot_map_ok

theorem child_ok {t : Tree} {id c : NodeId} {index : Nat} :
    t.child id index = .ok c ↔ ∃ s, t.slots[id]? = some s ∧ s.children[index]? = some c := by
  cases hs : t.slots[id]? with
  | none => simp [child, slot, hs]
  | some s => cases hc : s.children[index]? <;> simp [child, slot, hs, hc]

/-! ## Ascents -/

/-- Following parents from `id` visits `up`, `id` first, and ends at a slot without a parent. -/
inductive Ascends (t : Tree) : NodeId → List NodeId → Prop where
  | top {id : NodeId} {s : Slot} : t.slots[id]? = some s → s.parent = none → Ascends t id [id]
  | step {id p : NodeId} {s : Slot} {up : List NodeId} :
      t.slots[id]? = some s → s.parent = some p → Ascends t p up → Ascends t id (id :: up)

namespace Ascends

theorem head_mem {t : Tree} {id : NodeId} {up : List NodeId} (h : Ascends t id up) : id ∈ up := by
  cases h <;> simp

theorem eq_cons {t : Tree} {id : NodeId} {up : List NodeId} (h : Ascends t id up) :
    ∃ rest, up = id :: rest := by
  cases h with
  | top => exact ⟨[], rfl⟩
  | step => exact ⟨_, rfl⟩

theorem lt_size {t : Tree} {id x : NodeId} {up : List NodeId} (h : Ascends t id up)
    (hx : x ∈ up) : x < t.slots.size := by
  induction h with
  | top hs _ =>
    rw [List.mem_singleton.1 hx]
    exact lt_of_slot hs
  | step hs _ _ ih =>
    rcases List.mem_cons.1 hx with rfl | hx
    · exact lt_of_slot hs
    · exact ih hx

theorem unique {t : Tree} {id : NodeId} {up up' : List NodeId} (h : Ascends t id up)
    (h' : Ascends t id up') : up = up' := by
  induction h generalizing up' with
  | top hs hp =>
    cases h' with
    | top _ _ => rfl
    | step hs' hp' _ =>
      rw [hs] at hs'; cases hs'
      rw [hp] at hp'; cases hp'
  | step hs hp _ ih =>
    cases h' with
    | top hs' hp' =>
      rw [hs] at hs'; cases hs'
      rw [hp] at hp'; cases hp'
    | step hs' hp' h' =>
      rw [hs] at hs'; cases hs'
      rw [hp] at hp'; cases hp'
      rw [ih h']

/-- An ascent only depends on the parents of the slots it visits. -/
theorem frame {t t' : Tree} {id : NodeId} {up : List NodeId} (h : Ascends t id up)
    (hs : ∀ x ∈ up, t'.slots[x]?.map Slot.parent = t.slots[x]?.map Slot.parent) :
    Ascends t' id up := by
  induction h with
  | top hs₁ hp =>
    have h₁ := hs _ List.mem_cons_self
    rw [hs₁] at h₁
    obtain ⟨s', hs', he⟩ := Option.map_eq_some_iff.1 h₁
    exact .top hs' (he.trans hp)
  | step hs₁ hp _ ih =>
    have h₁ := hs _ List.mem_cons_self
    rw [hs₁] at h₁
    obtain ⟨s', hs', he⟩ := Option.map_eq_some_iff.1 h₁
    exact .step hs' (he.trans hp) (ih fun x hx => hs x (List.mem_cons_of_mem _ hx))

/-- An ascent visits no slot twice. -/
theorem nodup {t : Tree} {id : NodeId} {up : List NodeId} (h : t.Ascends id up) : up.Nodup := by
  have hsuffix : ∀ {id up}, t.Ascends id up → ∀ x ∈ up, ∃ low high, up = low ++ high ∧
      t.Ascends x high := by
    intro id up h
    induction h with
    | top hs hp =>
      intro x hx
      obtain rfl := List.mem_singleton.1 hx
      exact ⟨[], _, rfl, .top hs hp⟩
    | step hs hp h ih =>
      intro x hx
      rcases List.mem_cons.1 hx with rfl | hx
      · exact ⟨[], _, rfl, .step hs hp h⟩
      · obtain ⟨low, high, rfl, hhigh⟩ := ih x hx
        exact ⟨_ :: low, high, rfl, hhigh⟩
  induction h with
  | top hs hp => simp
  | @step id p s up hs hp h ih =>
    refine List.nodup_cons.2 ⟨fun hm => ?_, ih⟩
    obtain ⟨low, high, hup, hid⟩ := hsuffix h id hm
    have hlen := congrArg List.length ((Ascends.step hs hp h).unique hid)
    have := congrArg List.length hup
    simp at hlen this
    omega

theorem length_le {t : Tree} {id : NodeId} {up : List NodeId} (h : t.Ascends id up) :
    up.length ≤ t.slots.size := by
  have hsub : up ⊆ List.range t.slots.size := fun x hx => List.mem_range.2 (h.lt_size hx)
  simpa using h.nodup.length_le_of_subset hsub

end Ascends

/-- A node that an ascent does not visit may be attached at its foot. -/
theorem checkNotAbove_ok {t : Tree} {child parent id : NodeId} {up : List NodeId}
    (h : Ascends t id up) (hc : child ∉ up) (steps : Nat) :
    t.checkNotAbove child parent steps id = .ok () := by
  induction h generalizing steps with
  | top hs hp =>
    cases steps with
    | zero => rfl
    | succ n =>
      have hne := Ne.symm (List.ne_of_not_mem_cons hc)
      rw [checkNotAbove, if_neg hne, slot_ok hs]
      simp [hp]
  | step hs hp _ ih =>
    cases steps with
    | zero => rfl
    | succ n =>
      have hne := Ne.symm (List.ne_of_not_mem_cons hc)
      rw [checkNotAbove, if_neg hne, slot_ok hs]
      simp [hp, ih (List.not_mem_of_not_mem_cons hc)]

end Tree

/-! ## Primitive edits -/

namespace Edit

variable {t : Tree}

theorem yields_read {α : Type} {look : Tree → Except Defect α} {a : α} (h : look t = .ok a) :
    Yields (read look) t a t := by
  refine .bind (yields_get t) ?_
  rw [h]
  exact yields_pure a t

theorem run_read {α : Type} (look : Tree → Except Defect α) (t : Tree) :
    (read look).run.run t = (look t, t) := by
  refine ((yields_get t).run_bind _).trans ?_
  cases look t <;> rfl

theorem read_ok {α : Type} {look : Tree → Except Defect α} {a : α} {t' : Tree}
    (h : Yields (read look) t a t') : look t = .ok a := by
  have hlook := h.rest (yields_get t)
  cases hr : look t with
  | ok b =>
    rw [hr] at hlook
    rw [((yields_pure b t).unique hlook).1]
  | error defect =>
    rw [hr] at hlook
    cases hlook

theorem yields_update {id : NodeId} {s : Slot} {f : Slot → Slot} (h : t.slots[id]? = some s) :
    Yields (update id f) t () (t.change id f) := by
  refine .bind (yields_get t) ?_
  rw [if_pos (Tree.lt_of_slot h)]
  rfl

section Lookup

variable {id : NodeId} {s : Slot} (h : t.slots[id]? = some s)
include h

theorem read_node : Yields (read (·.node id)) t s.node t :=
  yields_read (by simp [Tree.node, Tree.slot_ok h, Except.map])

theorem read_kind : Yields (read (·.kind id)) t s.node.kind t :=
  yields_read (by simp [Tree.kind, Tree.slot_ok h, Except.map])

theorem read_parent : Yields (read (·.parent id)) t s.parent t :=
  yields_read (by simp [Tree.parent, Tree.slot_ok h, Except.map])

theorem read_children : Yields (read (·.children id)) t s.children t :=
  yields_read (by simp [Tree.children, Tree.slot_ok h, Except.map])

theorem read_alias : Yields (read (·.alias_ id)) t s.alias_ t :=
  yields_read (by simp [Tree.alias_, Tree.slot_ok h, Except.map])

theorem read_childCount : Yields (read (·.childCount id)) t s.children.length t :=
  yields_read (by simp [Tree.childCount, Tree.slot_ok h, Except.map])

theorem read_indexOf (child : NodeId) :
    Yields (read (·.indexOf id child)) t (s.children.idxOf? child) t :=
  yields_read (by simp [Tree.indexOf, Tree.slot_ok h, Except.map])

theorem read_child {index : Nat} {c : NodeId} (hc : s.children[index]? = some c) :
    Yields (read (·.child id index)) t c t :=
  yields_read (by simp [Tree.child, Tree.slot_ok h, hc])

end Lookup

theorem yields_add (t : Tree) (node : Node) :
    Yields (add node) t t.slots.size
      (t.grow { node, parent := none, children := [], alias_ := none }) := rfl

theorem yields_setNode {id : NodeId} {s : Slot} (node : Node) (h : t.slots[id]? = some s) :
    Yields (setNode id node) t () (t.change id fun s => { s with node }) :=
  yields_update h

theorem yields_setAlias {id : NodeId} {s : Slot} (alias_ : Option String)
    (h : t.slots[id]? = some s) :
    Yields (setAlias id alias_) t () (t.change id fun s => { s with alias_ }) :=
  yields_update h

theorem yields_takeAlias {id : NodeId} {s : Slot} (h : t.slots[id]? = some s) :
    Yields (takeAlias id) t s.alias_ (t.change id fun s => { s with alias_ := none }) :=
  .bind (read_alias h) (.bind (yields_setAlias none h) (yields_pure _ _))

theorem yields_setRoot {id : NodeId} {s : Slot} (h : t.slots[id]? = some s)
    (hp : s.parent = none) : Yields (setRoot id) t () { t with root := id } := by
  refine .bind (read_parent h) ?_
  rw [hp]
  rfl

theorem yields_detach_free {child : NodeId} {s : Slot} (h : t.slots[child]? = some s)
    (hp : s.parent = none) : Yields (detach child) t () t := by
  refine .bind (read_parent h) ?_
  rw [hp]
  exact yields_pure () t

theorem yields_detach {child p : NodeId} {s sp : Slot} (h : t.slots[child]? = some s)
    (hp : s.parent = some p) (hsp : t.slots[p]? = some sp) (hne : child ≠ p) :
    Yields (detach child) t ()
      ((t.change child fun s => { s with parent := none }).change p
        fun s => { s with children := s.children.filter (· ≠ child) }) := by
  refine .bind (read_parent h) ?_
  rw [hp]
  refine .bind (yields_update h) (yields_update (s := sp) ?_)
  rw [Tree.change_other _ hne, hsp]

theorem yields_assertNotAbove {child p : NodeId} {up : List NodeId} (h : t.Ascends p up)
    (hc : child ∉ up) : Yields (assertNotAbove child p) t () t :=
  yields_read (Tree.checkNotAbove_ok h hc _)

/-- Attaching a detached node. -/
theorem yields_insertChild {p child : NodeId} {index : Nat} {sp sc : Slot} {up : List NodeId}
    (hp : t.slots[p]? = some sp) (hc : t.slots[child]? = some sc) (hfree : sc.parent = none)
    (hup : t.Ascends p up) (hnot : child ∉ up) (hi : index ≤ sp.children.length) :
    Yields (insertChild p index child) t ()
      ((t.change p fun s => { s with children := s.children.insertIdx index child }).change child
        fun s => { s with parent := some p }) := by
  have hne : p ≠ child := fun he => hnot (he ▸ hup.head_mem)
  refine .bind (yields_assertNotAbove hup hnot) ?_
  refine .bind (yields_detach_free hc hfree) ?_
  refine .bind (read_childCount hp) ?_
  rw [if_pos hi]
  refine .bind (yields_update hp) (yields_update (s := sc) ?_)
  rw [Tree.change_other _ hne, hc]

theorem idxOf?_append_cons {before after : List NodeId} {a : NodeId} (h : a ∉ before) :
    (before ++ a :: after).idxOf? a = some before.length := by
  induction before with
  | nil => simp [List.idxOf?_cons]
  | cons b before ih =>
    have hne : (b == a) = false := by simpa using Ne.symm (List.ne_of_not_mem_cons h)
    simp [List.idxOf?_cons, hne, ih (List.not_mem_of_not_mem_cons h)]

/-- Putting a node in the place of a child; `t₁` is the tree once the node has left its former
place. -/
theorem yields_replaceChild {t₁ : Tree} {p old new : NodeId} {before after up : List NodeId}
    {sp so sn : Slot} (hp : t.slots[p]? = some { sp with children := before ++ old :: after })
    (hdetach : Yields (detach new) t () t₁)
    (hp₁ : t₁.slots[p]? = some { sp with children := before ++ old :: after })
    (hold : t₁.slots[old]? = some so) (hnew : t₁.slots[new]? = some sn)
    (hup : t.Ascends p up) (hnot : new ∉ up) (hne : old ≠ new) (hpo : p ≠ old)
    (hfirst : old ∉ before) :
    Yields (replaceChild p before.length new) t old
      (((t₁.change p fun s => { s with children := s.children.set before.length new }).change new
        fun s => { s with parent := some p }).change old fun s => { s with parent := none }) := by
  have hpn : p ≠ new := fun he => hnot (he ▸ hup.head_mem)
  refine .bind (read_child (c := old) hp (by simp)) ?_
  rw [if_neg hne]
  refine .bind (yields_assertNotAbove hup hnot) ?_
  refine .bind hdetach ?_
  refine .bind (read_indexOf hp₁ old) ?_
  rw [idxOf?_append_cons hfirst]
  refine .bind (yields_update hp₁) ?_
  refine .bind (yields_update (s := sn) ?_) (.bind (yields_update (s := so) ?_) (yields_pure _ _))
  · rw [Tree.change_other _ hpn, hnew]
  · rw [Tree.change_other _ (Ne.symm hne), Tree.change_other _ hpo, hold]

end Edit
end PolyglotSql
