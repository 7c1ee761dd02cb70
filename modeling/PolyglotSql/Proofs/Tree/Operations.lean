import PolyglotSql.Proofs.Tree.Copying

/-!
# PolyglotSql.Proofs.Tree.Operations

What the structural edits keep. Each of them keeps links that agree, whether it ends or stops with
a defect (`keeps_insertChild`, `keeps_replaceChild`, `keeps_transferChildren` and so on): between
the steps that write one direction of a link and those that write the other, nothing can fail.

`Operation` lists the edits with all their arguments. A tree that was made by any operations in any
order, defects included, has links that agree (`run_links`).
-/

namespace PolyglotSql

open PolyglotSql.Tree

/-- What is in the slot `id` once `source` has no children: those in `moved` are the last ones of
`target`, those in `left` have no place. -/
def Slot.moved (source target : NodeId) (moved left : List NodeId) (id : NodeId) (s : Slot) :
    Slot :=
  { s with
    parent := if id ∈ moved then some target else if id ∈ left then none else s.parent
    children :=
      if id = source then [] else if id = target then s.children ++ moved else s.children }

namespace Edit

variable {t t' : Tree} {parent child : NodeId}

theorem yields_update_lt {id : NodeId} {f : Slot → Slot} (h : id < t.slots.size) :
    Yields (update id f) t () (t.change id f) := by
  obtain ⟨s, hs⟩ := slot_of_lt h
  exact yields_update hs

/-- What was looked up in a slot, and that there is such a slot. -/
theorem read_slot {α : Type} {id : NodeId} {f : Slot → α} {a : α}
    (hy : Yields (read fun t => (t.slot id).map f) t a t') :
    t = t' ∧ ∃ s, t.slots[id]? = some s ∧ f s = a := by
  have hread := read_ok hy
  exact ⟨((yields_read hread).unique hy).2, slot_map_ok.1 hread⟩

theorem read_child_listed {index : Nat} {c : NodeId}
    (hy : Yields (read (·.child parent index)) t c t') :
    t = t' ∧ (t.listed parent)[index]? = some c := by
  have hread := read_ok hy
  refine ⟨((yields_read hread).unique hy).2, ?_⟩
  cases hs : t.slots[parent]? with
  | none => simp [Tree.child, slot, hs] at hread
  | some s =>
    simp only [Tree.child, slot_ok hs] at hread
    cases hc : s.children[index]? with
    | none => simp [hc] at hread
    | some c' =>
      simp only [hc, Except.ok.injEq] at hread
      rw [listed_slot hs, hc, hread]

/-! ## Detaching -/

/-- A slot has left its parent, and no other slot has. -/
structure Detached (child : NodeId) (t t' : Tree) : Prop where
  lt : child < t.slots.size
  linked : t'.Linked
  size : t'.slots.size = t.slots.size
  free : t'.above child = none
  above : ∀ x, x ≠ child → t'.above x = t.above x

theorem detach_linked (h : t.Linked) (hc : child < t.slots.size) :
    ∃ t', Yields (detach child) t () t' ∧ Detached child t t' := by
  obtain ⟨s, hs⟩ := slot_of_lt hc
  have habove := above_slot hs
  cases hp : s.parent with
  | none =>
    rw [hp] at habove
    exact ⟨t, yields_detach_free hs hp, hc, h, rfl, habove, fun _ _ => rfl⟩
  | some p =>
    rw [hp] at habove
    have hmem := (h.agree child p).1 habove
    have hlt := lt_of_listed hmem
    obtain ⟨sp, hsp⟩ := slot_of_lt hlt
    have hperm : (child :: (t.listed p).filter (· ≠ child)).Perm (t.listed p) := by
      have he := (h.nodup p).erase_eq_filter child
      have hkeep : (t.listed p).filter (· ≠ child) = (t.listed p).erase child := by
        rw [he]
        refine List.filter_congr fun x _ => ?_
        by_cases hx : x = child <;> simp [hx]
      rw [hkeep]
      exact (List.perm_cons_erase hmem).symm
    refine ⟨_, yields_detach hs hp hsp (h.ne_parent habove), ?_⟩
    change Detached child t ((t.setAbove child none).relist p (·.filter (· ≠ child)))
    have hsize : child < (t.relist p (·.filter (· ≠ child))).slots.size := by simpa using hc
    have hp' : p < (t.setAbove child none).slots.size := by simpa using hlt
    refine ⟨hc, (h.release habove hperm).same (by simp) (fun x => ?_) fun x => ?_, by simp, ?_,
      fun x hx => ?_⟩
    · rw [relist_above, setAbove_above hc, setAbove_above hsize, relist_above]
    · rw [relist_listed hp', setAbove_listed, setAbove_listed, setAbove_listed, relist_listed hlt]
    · rw [relist_above, setAbove_above hc, if_pos rfl]
    · rw [relist_above, setAbove_above hc, if_neg (Ne.symm hx)]

theorem Detached.ascends {up : List NodeId} (hd : Detached child t t') (hup : t.Ascends parent up)
    (hnot : child ∉ up) : t'.Ascends parent up := by
  refine hup.stay (Nat.le_of_eq hd.size.symm) fun x hx => hd.above x ?_
  rintro rfl
  exact hnot hx

theorem Detached.of_yields {u : Unit} (h : t.Linked) (hy : Yields (detach child) t u t') :
    Detached child t t' := by
  obtain ⟨p, t₁, hread, -⟩ := hy.steps
  obtain ⟨-, s, hs, -⟩ := read_slot (f := Slot.parent) hread
  obtain ⟨t₂, hy', hd⟩ := detach_linked h (lt_of_slot hs)
  rw [(hy.unique hy').2]
  exact hd

theorem keeps_detach (child : NodeId) : Keeps Linked (detach child) := by
  intro t h
  rcases Nat.lt_or_ge child t.slots.size with hc | hc
  · obtain ⟨t', hy, hd⟩ := detach_linked h hc
    exact hy.leaves hd.linked
  · refine (keeps_read _ t h).bind fun p t₁ hread => ?_
    obtain ⟨-, s, hs, -⟩ := read_slot (f := Slot.parent) hread
    exact absurd (lt_of_slot hs) (Nat.not_lt_of_ge hc)

/-- Where a slot is not refused, no ascent comes from it. -/
theorem assertNotAbove_ascends {u : Unit} (h : t.Linked)
    (hy : Yields (assertNotAbove child parent) t u t') :
    t = t' ∧ ∃ up, t.Ascends parent up ∧ child ∉ up := by
  have hok := read_ok hy
  refine ⟨((yields_read hok).unique hy).2, ?_⟩
  obtain ⟨up, hup⟩ := h.ends parent (lt_of_checkNotAbove hok)
  exact ⟨up, hup, not_mem_of_checkNotAbove hup (Nat.le_succ_of_le hup.length_le) hok⟩

/-- What is left by an edit that first takes a slot out of its place, unless that is refused. -/
theorem leaves_detached {α : Type} {e : Edit α} (h : t.Linked)
    (he : ∀ t₁ up, Detached child t t₁ → t₁.Ascends parent up → child ∉ up → Leaves e t₁ Linked) :
    Leaves (do
      assertNotAbove child parent
      detach child
      e) t Linked := by
  refine (keeps_read _ t h).bind fun _ _ hcheck => ?_
  obtain ⟨rfl, up, hup, hnot⟩ := assertNotAbove_ascends h hcheck
  refine (keeps_detach child _ h).bind fun _ t₁ hdetach => ?_
  have hd := Detached.of_yields h hdetach
  exact he t₁ up hd (hd.ascends hup hnot) hnot

/-! ## What the edits keep -/

theorem keeps_add (node : Node) : Keeps Linked (add node) := by
  intro t h
  exact (yields_add t node).leaves (h.grow rfl rfl)

theorem keeps_setNode (id : NodeId) (node : Node) : Keeps Linked (setNode id node) :=
  keeps_update fun _ h => h.change id (fun _ => rfl) fun _ => rfl

theorem keeps_setAlias (id : NodeId) (alias_ : Option String) :
    Keeps Linked (setAlias id alias_) :=
  keeps_update fun _ h => h.change id (fun _ => rfl) fun _ => rfl

theorem keeps_takeAlias (id : NodeId) : Keeps Linked (takeAlias id) :=
  (keeps_read _).bind fun _ => (keeps_setAlias id none).map

theorem keeps_setRoot (id : NodeId) : Keeps Linked (setRoot id) := by
  refine (keeps_read _).bind fun p => ?_
  cases p with
  | some p => exact keeps_throw _
  | none => exact fun t h => h.same rfl (fun _ => rfl) fun _ => rfl

theorem keeps_insertChild (parent : NodeId) (index : Nat) (child : NodeId) :
    Keeps Linked (insertChild parent index child) := by
  intro t h
  refine leaves_detached h fun t₁ up hd hup hnot => ?_
  refine (keeps_read _ t₁ hd.linked).bind fun count _ hcount => ?_
  obtain ⟨rfl, sp, hsp, rfl⟩ := read_slot (f := fun s => s.children.length) hcount
  by_cases hi : index ≤ sp.children.length
  · rw [if_pos hi]
    have hlt : child < t₁.slots.size := hd.size ▸ hd.lt
    -- Both slots are there, so neither direction of the link is written without the other.
    refine Yields.leaves (.bind (yields_update hsp) (yields_update_lt (by simpa using hlt))) ?_
    refine hd.linked.attach (f := (·.insertIdx index child)) hlt hd.free hup hnot ?_
    rw [listed_slot hsp]
    exact List.perm_insertIdx child _ hi
  · rw [if_neg hi]
    exact leaves_throw _ hd.linked

theorem keeps_appendChild (parent child : NodeId) : Keeps Linked (appendChild parent child) :=
  (keeps_read _).bind fun _ => keeps_insertChild parent _ child

theorem keeps_replaceChild (parent : NodeId) (index : Nat) (new : NodeId) :
    Keeps Linked (replaceChild parent index new) := by
  intro t h
  refine (keeps_read _ t h).bind fun old _ hchild => ?_
  obtain ⟨rfl, hold⟩ := read_child_listed hchild
  by_cases he : old = new
  · rw [if_pos he]
    exact keeps_pure old _ h
  rw [if_neg he]
  refine leaves_detached h fun t₁ up hd hup hnot => ?_
  -- The child may have moved up in the list when the new one left it.
  refine (keeps_read _ t₁ hd.linked).bind fun place _ hplace => ?_
  obtain ⟨rfl, sp, hsp, rfl⟩ := read_slot (f := fun s => s.children.idxOf? old) hplace
  cases hfound : sp.children.idxOf? old with
  | none => exact leaves_throw _ hd.linked
  | some place =>
    obtain ⟨hlt, hget, -⟩ := List.idxOf?_eq_some_iff.1 hfound
    have holdplace : (t₁.listed parent)[place]? = some old := by
      rw [listed_slot hsp, List.getElem?_eq_getElem hlt, hget]
    have hnew : new < t₁.slots.size := hd.size ▸ hd.lt
    have holdlt : old < t₁.slots.size :=
      lt_of_above ((hd.linked.agree old parent).2 (List.mem_of_getElem? holdplace))
    refine Yields.leaves (.bind (yields_update hsp) (.bind (yields_update_lt (by simpa using hnew))
      (.bind (yields_update_lt (by simpa using holdlt)) (yields_pure _ _)))) ?_
    exact hd.linked.replace holdplace hnew hd.free hup hnot

theorem keeps_removeChild (parent : NodeId) (index : Nat) :
    Keeps Linked (removeChild parent index) := by
  intro t h
  refine (keeps_read _ t h).bind fun c _ hchild => ?_
  obtain ⟨rfl, hc⟩ := read_child_listed hchild
  obtain ⟨hlt, hget⟩ := List.getElem?_eq_some_iff.1 hc
  have hmem : c ∈ t.listed parent := List.mem_of_getElem? hc
  have habove := (h.agree c parent).2 hmem
  refine Yields.leaves (.bind (yields_update_lt (lt_of_listed hmem))
    (.bind (yields_update_lt (by simpa using lt_of_above habove)) (yields_pure _ _))) ?_
  exact h.release (f := (·.eraseIdx index)) habove (hget ▸ List.getElem_cons_eraseIdx_perm hlt)

theorem exchange_perm {α : Type} (xs : List α) (a b : Nat) : (exchange xs a b).Perm xs := by
  unfold exchange
  split
  · rename_i x y hx hy
    obtain ⟨ha, rfl⟩ := List.getElem?_eq_some_iff.1 hx
    obtain ⟨hb, rfl⟩ := List.getElem?_eq_some_iff.1 hy
    exact List.set_set_perm ha hb
  · exact .refl xs

theorem keeps_swapChildren (parent : NodeId) (a b : Nat) :
    Keeps Linked (swapChildren parent a b) := by
  intro t h
  refine (keeps_read _ t h).bind fun count _ hcount => ?_
  obtain ⟨rfl, sp, hsp, rfl⟩ := read_slot (f := fun s => s.children.length) hcount
  split
  · refine (yields_update hsp).leaves ?_
    exact h.reorder (f := fun xs => exchange xs a b) (lt_of_slot hsp) (exchange_perm _ a b)
  · exact leaves_throw _ h

/-- Slots forget their parents one after the other. -/
theorem forget_slots (cs : List NodeId) (h : ∀ c ∈ cs, c < t.size) :
    ∃ t', Yields (cs.forM fun c => update c fun s => { s with parent := none }) t () t' ∧
      Slotwise (fun id s => { s with parent := if id ∈ cs then none else s.parent }) t t' := by
  induction cs generalizing t with
  | nil => exact ⟨t, yields_pure _ _, rfl, rfl, fun hs => by simpa using hs⟩
  | cons c cs ih =>
    obtain ⟨hc, hcs⟩ := List.forall_mem_cons.1 h
    have hfirst := slotwise_change t c fun s => { s with parent := none }
    obtain ⟨t', hy, hrest⟩ := ih fun x hx => hfirst.size ▸ hcs x hx
    refine ⟨t', .bind (yields_update_lt hc) hy, (hfirst.trans hrest).congr fun {id s} _ => ?_⟩
    by_cases hid : id = c <;> simp [hid]

/-- Before the first child is attached to its new parent, all of them have left the former one. -/
theorem run_transferChildren {source : NodeId} {s : Slot} (h : t.Linked)
    (hs : t.slots[source]? = some s) (target : NodeId) :
    ∃ t₁, Slotwise (Slot.moved source target [] s.children) t t₁ ∧
      (transferChildren source target).run.run t =
        (s.children.forM fun c => appendChild target c).run.run t₁ := by
  have hfirst := slotwise_change t source fun s => { s with children := [] }
  have hlt : ∀ c ∈ s.children, c < (t.change source fun s => { s with children := [] }).size :=
    fun c hc => hfirst.size ▸ lt_of_above ((h.agree c source).2 (listed_slot hs ▸ hc))
  obtain ⟨t₁, hforget, hrest⟩ := forget_slots s.children hlt
  refine ⟨t₁, (hfirst.trans hrest).congr fun {id s'} _ => ?_, ?_⟩
  · by_cases hid : id = source <;> simp [Slot.moved, hid]
  · refine ((read_children hs).run_bind _).trans ?_
    refine ((yields_update hs).run_bind _).trans ?_
    exact hforget.run_bind _

/-- By then no slot lists any of them, and none of them has a parent. -/
theorem linked_moved {source target : NodeId} {s : Slot} (h : t.Linked)
    (hs : t.slots[source]? = some s)
    (hslots : Slotwise (Slot.moved source target [] s.children) t t') : t'.Linked := by
  have habove : ∀ x, t'.above x = if x ∈ s.children then none else t.above x := by
    intro x
    rw [above, hslots.slots_eq, above]
    cases t.slots[x]? <;> simp [Slot.moved]
  have hlisted : ∀ x, t'.listed x = if x = source then [] else t.listed x := by
    intro x
    rw [listed, hslots.slots_eq, listed]
    cases t.slots[x]? <;> simp [Slot.moved]
  have hmem : ∀ x, x ∈ s.children ↔ t.above x = some source := fun x => by
    rw [h.agree, listed_slot hs]
  refine ⟨fun x q => ?_, fun q => ?_, fun id hid => ?_⟩
  · rw [habove, hlisted]
    have := h.agree x q
    have := hmem x
    grind
  · rw [hlisted]
    split
    · exact List.nodup_nil
    · exact h.nodup q
  · have hsize : t'.slots.size = t.slots.size := hslots.size
    obtain ⟨up, hup⟩ := h.ends id (hsize ▸ hid)
    refine hup.carry (Nat.le_of_eq hsize.symm) fun x _ => ?_
    rw [habove]
    split
    · exact .inl rfl
    · exact .inr (.inl rfl)

/-- The children move one by one: each of them that cannot be attached leaves the moves before it
done and the children after it detached. -/
theorem keeps_transferChildren (source target : NodeId) :
    Keeps Linked (transferChildren source target) := by
  intro t h
  cases hs : t.slots[source]? with
  | none =>
    refine (keeps_read _ t h).bind fun _ _ hmoved => ?_
    obtain ⟨-, s, hs', -⟩ := read_slot (f := Slot.children) hmoved
    cases hs.symm.trans hs'
  | some s =>
    obtain ⟨t₁, hslots, hrun⟩ := run_transferChildren h hs target
    rw [Leaves, hrun]
    exact Keeps.forM (fun child _ => keeps_appendChild target child) t₁ (linked_moved h hs hslots)

theorem keeps_copyBelow (depth : Nat) (id : NodeId) : Keeps Linked (copyBelow depth id) := by
  induction depth generalizing id with
  | zero => exact keeps_throw _
  | succ depth ih =>
    refine (keeps_read _).bind fun s => ?_
    refine (keeps_add _).bind fun copy => ?_
    refine (keeps_setAlias copy _).bind fun _ => ?_
    refine Keeps.map (.forM fun child _ => ?_)
    exact (ih child).bind fun childCopy => keeps_appendChild copy childCopy

theorem keeps_copySubtree (id : NodeId) : Keeps Linked (copySubtree id) :=
  keeps_get.bind fun _ => keeps_copyBelow _ id

end Edit

/-! ## Any operations in any order -/

/-- A structural edit with its arguments. -/
inductive Operation where
  | add (node : Node)
  | appendChild (parent child : NodeId)
  | insertChild (parent : NodeId) (index : Nat) (child : NodeId)
  | replaceChild (parent : NodeId) (index : Nat) (new : NodeId)
  | removeChild (parent : NodeId) (index : Nat)
  | transferChildren (source target : NodeId)
  | swapChildren (parent : NodeId) (a b : Nat)
  | copySubtree (id : NodeId)
  | setRoot (id : NodeId)
  | setAlias (id : NodeId) (alias_ : Option String)
  | takeAlias (id : NodeId)
  | setNode (id : NodeId) (node : Node)

namespace Operation

def edit : Operation → Edit Unit
  | .add node => discard (Edit.add node)
  | .appendChild parent child => Edit.appendChild parent child
  | .insertChild parent index child => Edit.insertChild parent index child
  | .replaceChild parent index new => discard (Edit.replaceChild parent index new)
  | .removeChild parent index => discard (Edit.removeChild parent index)
  | .transferChildren source target => Edit.transferChildren source target
  | .swapChildren parent a b => Edit.swapChildren parent a b
  | .copySubtree id => discard (Edit.copySubtree id)
  | .setRoot id => Edit.setRoot id
  | .setAlias id alias_ => Edit.setAlias id alias_
  | .takeAlias id => discard (Edit.takeAlias id)
  | .setNode id node => Edit.setNode id node

/-- The tree that an operation leaves, also where it stops with a defect. -/
def after (o : Operation) (t : Tree) : Tree :=
  (o.edit.run.run t).2

def run (ops : List Operation) (t : Tree) : Tree :=
  ops.foldl (fun t o => o.after t) t

theorem keeps_edit (o : Operation) : Keeps Linked o.edit := by
  cases o with
  | add node => exact (Edit.keeps_add node).map
  | appendChild parent child => exact Edit.keeps_appendChild parent child
  | insertChild parent index child => exact Edit.keeps_insertChild parent index child
  | replaceChild parent index new =>
    exact (Edit.keeps_replaceChild parent index new).map
  | removeChild parent index => exact (Edit.keeps_removeChild parent index).map
  | transferChildren source target => exact Edit.keeps_transferChildren source target
  | swapChildren parent a b => exact Edit.keeps_swapChildren parent a b
  | copySubtree id => exact (Edit.keeps_copySubtree id).map
  | setRoot id => exact Edit.keeps_setRoot id
  | setAlias id alias_ => exact Edit.keeps_setAlias id alias_
  | takeAlias id => exact (Edit.keeps_takeAlias id).map
  | setNode id node => exact Edit.keeps_setNode id node

theorem run_linked (ops : List Operation) {t : Tree} (h : t.Linked) : (run ops t).Linked := by
  induction ops generalizing t with
  | nil => exact h
  | cons o ops ih => exact ih (o.keeps_edit t h)

end Operation

theorem Tree.linked_new (root : Node) : (Tree.new root).Linked := by
  have hempty : Tree.Linked { slots := #[], root := 0 } :=
    ⟨fun c p => by simp [above, listed], fun p => by simp [listed], fun id hid => by simp at hid⟩
  exact hempty.grow (s := { node := root, parent := none, children := [], alias_ := none }) rfl rfl

theorem Tree.parent_ok {t : Tree} {c p : NodeId} :
    t.parent c = .ok (some p) ↔ t.above c = some p := by
  cases hs : t.slots[c]? with
  | none => simp [Tree.parent, slot, hs, Except.map, above]
  | some s => simp [Tree.parent, slot_ok hs, Except.map, above_slot hs]

theorem Tree.listed_ok {t : Tree} {p : NodeId} {cs : List NodeId} (h : t.children p = .ok cs) :
    t.listed p = cs := by
  obtain ⟨s, hs, rfl⟩ := children_ok.1 h
  exact listed_slot hs

theorem Tree.mem_listed_ok {t : Tree} {c p : NodeId} :
    (∃ cs, t.children p = .ok cs ∧ c ∈ cs) ↔ c ∈ t.listed p := by
  constructor
  · rintro ⟨cs, hcs, hc⟩
    rwa [listed_ok hcs]
  · intro hc
    obtain ⟨s, hs⟩ := slot_of_lt (lt_of_listed hc)
    exact ⟨s.children, children_ok.2 ⟨s, hs, rfl⟩, listed_slot hs ▸ hc⟩

/-- In every tree that operations have made, in any order and with any arguments, those that
stopped with a defect included: a slot has a parent exactly if the parent lists it, lists of
children repeat no slot and hold slots of the arena only, no slot is in two of them, following
parents ends without passing a slot twice, and a subtree can be copied. -/
theorem run_links (root : Node) (ops : List Operation) :
    let t := Operation.run ops (Tree.new root)
    (∀ c p, t.parent c = .ok (some p) ↔ ∃ cs, t.children p = .ok cs ∧ c ∈ cs) ∧
    (∀ p cs, t.children p = .ok cs → cs.Nodup ∧ ∀ c ∈ cs, c < t.size) ∧
    (∀ c p q cs ds, t.children p = .ok cs → t.children q = .ok ds → c ∈ cs → c ∈ ds → p = q) ∧
    (∀ id, id < t.size → ∃ up, t.Ascends id up ∧ up.Nodup) ∧
    ∀ id, id < t.size → ∃ copy t', Yields (Edit.copySubtree id) t copy t' := by
  intro t
  have h : t.Linked := Operation.run_linked ops (Tree.linked_new root)
  refine ⟨fun c p => ?_, fun p cs hcs => ?_, fun c p q cs ds hcs hds hc hd => ?_, fun id hid => ?_,
    fun id hid => ?_⟩
  · rw [Tree.parent_ok, Tree.mem_listed_ok, h.agree]
  · have hlisted := Tree.listed_ok hcs
    exact ⟨hlisted ▸ h.nodup p, fun c hc => lt_of_above ((h.agree c p).2 (hlisted ▸ hc))⟩
  · have hp := (h.agree c p).2 (Tree.listed_ok hcs ▸ hc)
    have hq := (h.agree c q).2 (Tree.listed_ok hds ▸ hd)
    exact Option.some.inj (hp.symm.trans hq)
  · obtain ⟨up, hup⟩ := h.ends id hid
    exact ⟨up, hup, hup.nodup⟩
  · obtain ⟨term, -, t', l, hy, -⟩ := copySubtree_lays h hid
    exact ⟨l.id, t', hy⟩

/-- A move of all children that stops half way: 1 has arrived below 2, and 2, which cannot be put
below itself, is left without a parent. -/
def halfMoved : List Operation :=
  [.add .distinct, .add .distinct, .appendChild 0 1, .appendChild 0 2, .insertChild 9 0 1,
    .transferChildren 0 2]

theorem run_links_halfMoved :
    (((Operation.transferChildren 0 2).edit.run.run
        (Operation.run (halfMoved.take 5) (Tree.new .group))).1 = .error (.cycle 2 2)) ∧
      (Operation.run halfMoved (Tree.new .group)).children 2 = .ok [1] ∧
      (Operation.run halfMoved (Tree.new .group)).parent 1 = .ok (some 2) ∧
      (Operation.run halfMoved (Tree.new .group)).parent 2 = .ok none := by
  refine ⟨by rfl, by rfl, ?_, by rfl⟩
  exact ((run_links .group halfMoved).1 1 2).2 ⟨[1], by rfl, by simp⟩

end PolyglotSql
