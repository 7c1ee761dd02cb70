import PolyglotSql.Proofs.Tree.Replacing

/-!
# PolyglotSql.Proofs.Tree.Stopping

What is left by operations that stop with a defect. Most of them look for what is wrong before they
write anything, so that the tree stays as it was. Three write first: an insertion counts the places
once the child has left its own, an append counts them before that, and a move of children detaches
all of them before it attaches the first. `Operation.Tears` says when these stop too late, and
`stops_changed_iff` that nothing else changes a tree and stops.
-/

namespace PolyglotSql

open PolyglotSql.Tree

/-! ## Computations that change nothing when they stop -/

section Clean

variable {σ α β : Type} {s s' : σ} {a : α}

/-- If the computation stops with a defect, it leaves the state that it found. -/
def StopsClean (e : ExceptT Defect (StateM σ) α) (s : σ) : Prop :=
  ∀ d s', e.run.run s = (.error d, s') → s' = s

theorem Yields.stopsClean {e : ExceptT Defect (StateM σ) α} (h : Yields e s a s') :
    StopsClean e s := by
  intro d s₁ hstop
  cases h.symm.trans hstop

theorem stopsClean_throw (d : Defect) :
    StopsClean (throw d : ExceptT Defect (StateM σ) α) s := by
  rintro d' s₁ hstop
  cases hstop
  rfl

/-- Nothing comes after a step that stops. -/
theorem run_stopped {e : ExceptT Defect (StateM σ) α} {d : Defect}
    (h : e.run.run s = (.error d, s')) (f : α → ExceptT Defect (StateM σ) β) :
    (e >>= f).run.run s = (.error d, s') := by
  rw [run_sequence, h]

theorem StopsClean.bind {e : ExceptT Defect (StateM σ) α} {f : α → ExceptT Defect (StateM σ) β}
    (h : StopsClean e s)
    (hf : ∀ a s₁, Yields e s a s₁ → ∀ d s', (f a).run.run s₁ = (.error d, s') → s' = s) :
    StopsClean (e >>= f) s := by
  intro d s' hstop
  rw [run_sequence] at hstop
  cases he : e.run.run s with
  | mk r s₁ =>
    rw [he] at hstop
    cases r with
    | ok a => exact hf a s₁ he d s' hstop
    | error d' =>
      cases hstop
      exact h d s' he

theorem StopsClean.map {e : ExceptT Defect (StateM σ) α} {f : α → β} (h : StopsClean e s) :
    StopsClean (e >>= fun a => pure (f a)) s :=
  h.bind fun a s₁ _ d s' hstop => by cases hstop

end Clean

namespace Edit

variable {t t' : Tree} {α β : Type} {parent child : NodeId} {d : Defect}

/-- What comes after a look-up finds the same tree. -/
theorem stopsClean_read {look : Tree → Except Defect α} {f : α → Edit β}
    (h : ∀ a, look t = .ok a → StopsClean (f a) t) : StopsClean (read look >>= f) t := by
  refine StopsClean.bind (fun d t' hstop => ?_) fun a t₁ hy d t' hstop => ?_
  · rw [run_read] at hstop
    exact (Prod.ext_iff.1 hstop).2.symm
  · have hlook := read_ok hy
    obtain ⟨-, rfl⟩ := hy.unique (yields_read hlook)
    exact h a hlook d t' hstop

theorem stopsClean_update (id : NodeId) (f : Slot → Slot) : StopsClean (update id f) t := by
  by_cases hid : id < t.slots.size
  · exact (yields_update_lt hid).stopsClean
  · intro d t' hstop
    rw [update, (yields_get t).run_bind, if_neg hid] at hstop
    exact stopsClean_throw _ _ _ hstop

theorem stopsClean_detach (h : t.Linked) (child : NodeId) : StopsClean (detach child) t := by
  rcases Nat.lt_or_ge child t.slots.size with hc | hc
  · obtain ⟨t', hy, -⟩ := h.detach_slots hc
    exact hy.stopsClean
  · refine stopsClean_read fun p hparent => ?_
    simp [Tree.parent, slot, Array.getElem?_eq_none hc, Except.map] at hparent

theorem stopsClean_setRoot (id : NodeId) : StopsClean (setRoot id) t := by
  refine stopsClean_read fun p _ => ?_
  cases p with
  | some p => exact stopsClean_throw _
  | none => exact fun d t' hstop => by cases hstop

theorem stopsClean_takeAlias (id : NodeId) : StopsClean (takeAlias id) t :=
  stopsClean_read fun _ _ => (stopsClean_update id _).map

theorem stopsClean_removeChild (h : t.Linked) (parent : NodeId) (index : Nat) :
    StopsClean (removeChild parent index) t := by
  refine stopsClean_read fun c hchild => ?_
  obtain ⟨sp, hsp, hc⟩ := child_ok.1 hchild
  have hmem : c ∈ t.listed parent := listed_slot hsp ▸ List.mem_of_getElem? hc
  have habove := (h.agree c parent).2 hmem
  exact Yields.stopsClean (.bind (yields_update hsp)
    (.bind (yields_update_lt (by simpa using lt_of_above habove)) (yields_pure _ _)))

theorem stopsClean_swapChildren (parent : NodeId) (a b : Nat) :
    StopsClean (swapChildren parent a b) t := by
  refine stopsClean_read fun count _ => ?_
  split
  · exact stopsClean_update parent _
  · exact stopsClean_throw _

/-- A replacement that is not refused finds the former child again. -/
theorem stopsClean_replaceChild (h : t.Linked) (parent : NodeId) (index : Nat) (new : NodeId) :
    StopsClean (replaceChild parent index new) t := by
  refine stopsClean_read fun old hchild => ?_
  by_cases he : old = new
  · rw [if_pos he]
    exact (yields_pure old t).stopsClean
  rw [if_neg he]
  refine stopsClean_read fun _ hcheck => ?_
  refine (stopsClean_detach h new).bind fun _ t₁ hdetach => ?_
  obtain ⟨sp, hsp, hold⟩ := child_ok.1 hchild
  obtain ⟨-, up, hup, hnot⟩ := assertNotAbove_ascends h (yields_read hcheck)
  have hnew := (Detached.of_yields h hdetach).lt
  obtain ⟨t', hy, -⟩ := h.replaceChild_exchanges hsp hold hnew hup hnot he
  have hrest := hy.rest (yields_read hchild)
  rw [if_neg he] at hrest
  intro d t'' hstop
  cases ((hrest.rest (yields_read hcheck)).rest hdetach).symm.trans hstop

theorem stopsClean_copySubtree (h : t.Linked) (id : NodeId) : StopsClean (copySubtree id) t := by
  rcases Nat.lt_or_ge id t.slots.size with hid | hid
  · obtain ⟨term, -, t', l, hy, -⟩ := copySubtree_lays h hid
    exact hy.stopsClean
  · have hslot : t.slot id = .error (.foreignNode id) := by
      simp [slot, Array.getElem?_eq_none hid]
    refine StopsClean.bind (yields_get t).stopsClean fun _ t₁ hget => ?_
    obtain ⟨rfl, rfl⟩ := (yields_get t).unique hget
    exact stopsClean_read fun s hs => by cases hslot.symm.trans hs

end Edit

namespace Slot

/-- What is in the slot `id` once `cs`, which had no place, are the last children of `target`. -/
def collected (target : NodeId) (cs : List NodeId) (id : NodeId) (s : Slot) : Slot :=
  { s with
    parent := if id ∈ cs then some target else s.parent
    children := if id = target then s.children ++ cs else s.children }

theorem collected_collected (target : NodeId) (cs ds : List NodeId) (id : NodeId) (s : Slot) :
    (s.collected target cs id).collected target ds id = s.collected target (cs ++ ds) id := by
  simp only [collected, List.mem_append]
  grind

theorem moved_collected {source target : NodeId} (hne : target ≠ source) (cs ds : List NodeId)
    (id : NodeId) (s : Slot) :
    (s.moved source target [] (cs ++ ds) id).collected target cs id =
      s.moved source target cs ds id := by
  simp only [moved, collected, List.mem_append, List.not_mem_nil, if_false, List.append_nil]
  grind

end Slot

/-! ## Insertions that come too late -/

namespace Tree

open Edit

variable {t t₁ t' : Tree} {f g : NodeId → Slot → Slot} {parent child source target : NodeId}
  {up : List NodeId} {d : Defect}

/-- An insertion behind the end stops, and the child has left its place by then. -/
theorem Linked.insertChild_beyond {sp : Slot} (h : t.Linked) (index : Nat)
    (hup : t.Ascends parent up) (hnot : child ∉ up) (hc : child < t.size)
    (hsp : t.slots[parent]? = some sp)
    (hindex : (sp.released child parent).children.length < index) :
    ∃ t', (insertChild parent index child).run.run t =
        (.error (.insertOutOfRange index (sp.released child parent).children.length), t') ∧
      Slotwise (Slot.released child) t t' := by
  obtain ⟨t₁, hdetach, hrelease⟩ := h.detach_slots hc
  have hrun := run_insertChild index hup hnot hdetach (hrelease.slots hsp)
  rw [if_neg (Nat.not_le_of_gt hindex)] at hrun
  exact ⟨t₁, hrun, hrelease⟩

/-- A child without a place has none to leave, and one with a place leaves it for a place that is
there. -/
theorem Linked.stopsClean_insertChild {index : Nat} (h : t.Linked)
    (hplace : ∀ p up sp, t.above child = some p → t.Ascends parent up → child ∉ up →
      t.slots[parent]? = some sp → index ≤ (sp.released child parent).children.length) :
    StopsClean (insertChild parent index child) t := by
  refine stopsClean_read fun _ hcheck => ?_
  obtain ⟨-, up, hup, hnot⟩ := assertNotAbove_ascends h (yields_read hcheck)
  refine (stopsClean_detach h child).bind fun _ t₁ hdetach d t' hstop => ?_
  have hc : child < t.size := (Detached.of_yields h hdetach).lt
  have hp : parent < t.size := hup.lt_size hup.head_mem
  obtain ⟨t₂, hdetach₂, hrelease⟩ := h.detach_slots hc
  obtain ⟨-, rfl⟩ := hdetach.unique hdetach₂
  obtain ⟨sp, hsp⟩ := slot_of_lt hp
  rw [(read_childCount (hrelease.slots hsp)).run_bind] at hstop
  by_cases hindex : index ≤ (sp.released child parent).children.length
  · have hne : parent ≠ child := fun he => hnot (he ▸ hup.head_mem)
    obtain ⟨t₃, hwrites, -⟩ := attach_slots index (hrelease.size ▸ hp) (hrelease.size ▸ hc) hne
    rw [if_pos hindex] at hstop
    cases hwrites.symm.trans hstop
  · obtain ⟨s, hs⟩ := slot_of_lt hc
    have habove : t.above child = none := by
      rw [Option.eq_none_iff_forall_ne_some]
      exact fun p hp => hindex (hplace p up sp hp hup hnot hsp)
    obtain ⟨-, rfl⟩ := hdetach.unique (yields_detach_free hs ((above_slot hs).symm.trans habove))
    rw [if_neg hindex] at hstop
    exact stopsClean_throw _ _ _ hstop

/-! ## Moves of children that come too late -/

/-- A slot without a place is appended where it is not above. -/
theorem appendChild_free (hup : t.Ascends target up) (hnot : child ∉ up) (hc : child < t.size)
    (hfree : t.above child = none) :
    ∃ t', Yields (appendChild target child) t () t' ∧
      Slotwise (Slot.collected target [child]) t t' := by
  have hp : target < t.size := hup.lt_size hup.head_mem
  have hne : target ≠ child := fun he => hnot (he ▸ hup.head_mem)
  obtain ⟨s, hs⟩ := slot_of_lt hc
  obtain ⟨sp, hsp⟩ := slot_of_lt hp
  have hdetach := yields_detach_free hs ((above_slot hs).symm.trans hfree)
  obtain ⟨t', hwrites, hattach⟩ := attach_slots sp.children.length hp hc hne
  refine ⟨t', ?_, hattach.congr fun {id s'} hid => ?_⟩
  · have hrun := run_appendChild hup hnot hdetach hsp hsp
    rw [if_pos (Nat.le_refl _)] at hrun
    exact hrun.trans hwrites
  · by_cases hidp : id = target
    · subst hidp
      obtain rfl := Option.some.inj (hsp.symm.trans hid)
      simp [Slot.attached, Slot.collected]
    · simp [Slot.attached, Slot.collected, hidp]

/-- Slots without a place are appended one after the other. -/
theorem appendAll_slots {cs : List NodeId} (hup : t.Ascends target up)
    (hcs : ∀ c ∈ cs, c ∉ up ∧ c < t.size ∧ t.above c = none) (hn : cs.Nodup) :
    ∃ t', Yields (cs.forM fun c => appendChild target c) t () t' ∧
      Slotwise (Slot.collected target cs) t t' ∧ t'.Ascends target up := by
  induction cs generalizing t with
  | nil => exact ⟨t, yields_pure _ _, ⟨rfl, rfl, fun hs => by simpa [Slot.collected] using hs⟩, hup⟩
  | cons c cs ih =>
    obtain ⟨⟨hnot, hc, hfree⟩, hcs⟩ := List.forall_mem_cons.1 hcs
    obtain ⟨hfresh, hn⟩ := List.nodup_cons.1 hn
    obtain ⟨t₁, hy, hfirst⟩ := appendChild_free hup hnot hc hfree
    have habove : ∀ x, x < t.size → x ≠ c → t₁.above x = t.above x := by
      intro x hx hxc
      obtain ⟨s, hs⟩ := slot_of_lt hx
      rw [hfirst.above hs, above_slot hs]
      simp [Slot.collected, hxc]
    have hup₁ : t₁.Ascends target up := hup.stay (Nat.le_of_eq hfirst.size.symm) fun x hx =>
      habove x (hup.lt_size hx) fun he => hnot (he ▸ hx)
    obtain ⟨t', hy', hrest, hup'⟩ := ih hup₁ (fun x hx => by
      obtain ⟨hxnot, hxlt, hxfree⟩ := hcs x hx
      have hxc : x ≠ c := fun he => hfresh (he ▸ hx)
      exact ⟨hxnot, hfirst.size ▸ hxlt, (habove x hxlt hxc).trans hxfree⟩) hn
    exact ⟨t', .bind hy hy',
      (hfirst.trans hrest).congr fun _ => Slot.collected_collected target [c] cs _ _, hup'⟩

/-- Following parents meets a slot that is on the way. -/
theorem checkNotAbove_cycle {id steps : Nat} (parent : NodeId) (h : t.Ascends id up)
    (hc : child ∈ up) (hsteps : up.length ≤ steps) :
    t.checkNotAbove child parent steps id = .error (.cycle child parent) := by
  induction h generalizing steps with
  | @top id s hs hp =>
    obtain ⟨n, rfl⟩ := Nat.exists_eq_succ_of_ne_zero (Nat.ne_of_gt hsteps)
    rw [checkNotAbove, if_pos (List.mem_singleton.1 hc).symm]
  | @step id p s up hs hp _ ih =>
    obtain ⟨n, rfl⟩ := Nat.exists_eq_succ_of_ne_zero (Nat.ne_of_gt (Nat.zero_lt_of_lt hsteps))
    rw [checkNotAbove]
    split
    · rfl
    · rename_i hne
      have hmem : child ∈ up := (List.mem_cons.1 hc).resolve_left (Ne.symm hne)
      simp only [slot_ok hs, hp]
      exact ih hmem (Nat.le_of_succ_le_succ hsteps)

theorem appendChild_cycle (hup : t.Ascends target up) (hc : child ∈ up) :
    (appendChild target child).run.run t = (.error (.cycle child target), t) := by
  obtain ⟨sp, hsp⟩ := slot_of_lt (hup.lt_size hup.head_mem)
  have hcheck := checkNotAbove_cycle target hup hc (Nat.le_succ_of_le hup.length_le)
  refine ((read_childCount hsp).run_bind _).trans ?_
  rw [insertChild, run_sequence, assertNotAbove, run_read]
  simp only [Tree.size, hcheck]

theorem appendChild_foreign (child : NodeId) (h : t.size ≤ target) :
    (appendChild target child).run.run t = (.error (.foreignNode target), t) := by
  rw [appendChild, run_sequence, run_read]
  simp [childCount, slot, Array.getElem?_eq_none h, Except.map]

/-- Where the slots in `cs` lose their parents, following parents ends at the first of them that is
met, if any is. -/
theorem Ascends.cut {cs : List NodeId} {id : NodeId} (h : t.Ascends id up)
    (hslots : Slotwise (Slot.moved source target [] cs) t t') :
    (t'.Ascends id up ∧ ∀ x ∈ up, x ∉ cs) ∨
      ∃ low c high, up = low ++ c :: high ∧ c ∈ cs ∧ (∀ x ∈ low, x ∉ cs) ∧
        t.Ascends c (c :: high) ∧ t'.Ascends id (low ++ [c]) := by
  induction h with
  | @top id s hs hp =>
    have hs' := hslots.slots hs
    by_cases hid : id ∈ cs
    · exact .inr ⟨[], id, [], rfl, hid, by simp, .top hs hp, .top hs' (by simp [Slot.moved, hid])⟩
    · exact .inl ⟨.top hs' (by simp [Slot.moved, hid, hp]), by simpa using hid⟩
  | @step id p s up hs hp hup ih =>
    have hs' := hslots.slots hs
    by_cases hid : id ∈ cs
    · exact .inr ⟨[], id, up, rfl, hid, by simp, .step hs hp hup,
        .top hs' (by simp [Slot.moved, hid])⟩
    have hp' : (s.moved source target [] cs id).parent = some p := by simp [Slot.moved, hid, hp]
    rcases ih with ⟨hup', hnot⟩ | ⟨low, c, high, rfl, hc, hlow, hhigh, hup'⟩
    · exact .inl ⟨.step hs' hp' hup', List.forall_mem_cons.2 ⟨hid, hnot⟩⟩
    · exact .inr ⟨id :: low, c, high, rfl, hc, List.forall_mem_cons.2 ⟨hid, hlow⟩, hhigh,
        .step hs' hp' hup'⟩

/-- An ascent that comes by one child of a slot comes by no other. -/
theorem Ascends.not_sibling {c c' : NodeId} {high : List NodeId} (hup : t.Ascends c (c :: high))
    (hc : t.above c = some source) (hc' : t.above c' = some source) : c' ∉ high := by
  cases hup with
  | top hs hp => simp
  | step hs hp hup =>
    obtain rfl := Option.some.inj (hc.symm.trans ((above_slot hs).trans hp))
    exact (List.nodup_cons.1 (ascends_step hc' hup).nodup).1

theorem Slotwise.moved_free {cs : List NodeId} (h : Slotwise (Slot.moved source target [] cs) t t')
    {c : NodeId} (hc : c ∈ cs) (hlt : c < t.size) : c < t'.size ∧ t'.above c = none := by
  obtain ⟨s, hs⟩ := slot_of_lt hlt
  refine ⟨h.size ▸ hlt, ?_⟩
  rw [h.above hs]
  simp [Slot.moved, hc]

theorem run_forM_append {cs ds : List NodeId} {f : NodeId → Edit PUnit} {u : PUnit}
    (h : Yields (cs.forM f) t u t') : ((cs ++ ds).forM f).run.run t = (ds.forM f).run.run t' := by
  rw [List.forM_eq_forM, List.forM_append]
  exact h.run_bind _

namespace Linked

variable {s : Slot}

/-- Children without a list to go to are left without a place. -/
theorem transferChildren_outside (h : t.Linked) (hs : t.slots[source]? = some s)
    (hne : s.children ≠ []) (htarget : t.size ≤ target) :
    ∃ t', (transferChildren source target).run.run t = (.error (.foreignNode target), t') ∧
      Slotwise (Slot.moved source target [] s.children) t t' := by
  obtain ⟨t₁, hslots, hrun⟩ := run_transferChildren h hs target
  obtain ⟨c, cs, hcs⟩ := List.exists_cons_of_ne_nil hne
  refine ⟨t₁, hrun.trans ?_, hslots⟩
  rw [hcs]
  exact run_stopped (appendChild_foreign c (hslots.size ▸ htarget)) _

/-- The child that the target is below, and those after it, are left without a place. -/
theorem transferChildren_below {before after : List NodeId} {c : NodeId} (h : t.Linked)
    (hs : t.slots[source]? = some s) (hsplit : s.children = before ++ c :: after)
    (hup : t.Ascends target up) (hc : c ∈ up) :
    ∃ t', (transferChildren source target).run.run t = (.error (.cycle c target), t') ∧
      Slotwise (Slot.moved source target before (c :: after)) t t' := by
  have hmem : ∀ x ∈ before ++ c :: after, t.above x = some source := fun x hx =>
    (h.agree x source).2 (listed_slot hs ▸ hsplit ▸ hx)
  have hcabove := hmem c (by simp)
  have hn : (before ++ c :: after).Nodup := hsplit ▸ listed_slot hs ▸ h.nodup source
  obtain ⟨hn₁, -, hdisjoint⟩ := List.nodup_append.1 hn
  have hne : target ≠ source := by
    rintro rfl
    exact (List.nodup_cons.1 (ascends_step hcabove hup).nodup).1 hc
  obtain ⟨t₁, hslots, hrun⟩ := run_transferChildren h hs target
  rw [hsplit] at hslots hrun
  -- The child on the way up is the only one there, so the ascent of the target now ends with it.
  obtain ⟨low, hlow, hup₁⟩ : ∃ low, (∀ x ∈ low, x ∉ before ++ c :: after) ∧
      t₁.Ascends target (low ++ [c]) := by
    rcases hup.cut hslots with ⟨-, hnot⟩ | ⟨low, c', high, rfl, hc', hlow, hhigh, hup₁⟩
    · exact absurd (by simp) (hnot c hc)
    · obtain rfl : c = c' := by
        rcases List.mem_append.1 hc with hc | hc
        · exact absurd (by simp) (hlow c hc)
        · exact (List.mem_cons.1 hc).resolve_right (hhigh.not_sibling (hmem c' hc') hcabove)
      exact ⟨low, hlow, hup₁⟩
  have hfree : ∀ x ∈ before, x ∉ low ++ [c] ∧ x < t₁.size ∧ t₁.above x = none := by
    intro x hx
    have hxmem : x ∈ before ++ c :: after := by simp [hx]
    refine ⟨fun hlowx => ?_, hslots.moved_free hxmem (lt_of_above (hmem x hxmem))⟩
    rcases List.mem_append.1 hlowx with hlowx | hlowx
    · exact hlow x hlowx hxmem
    · exact hdisjoint x hx c (by simp) (List.mem_singleton.1 hlowx)
  obtain ⟨t₂, hy, hcollected, hup₂⟩ := appendAll_slots hup₁ hfree hn₁
  refine ⟨t₂, ?_, (hslots.trans hcollected).congr fun _ => Slot.moved_collected hne _ _ _ _⟩
  rw [hrun, run_forM_append hy]
  exact run_stopped (appendChild_cycle hup₂ (by simp)) _

/-- Children move where none of them is the target or above it. -/
theorem stopsClean_transferChildren (h : t.Linked)
    (htarget : ∀ s, t.slots[source]? = some s → s.children ≠ [] →
      ∃ up, t.Ascends target up ∧ ∀ c ∈ s.children, c ∉ up) :
    StopsClean (transferChildren source target) t := by
  cases hs : t.slots[source]? with
  | none =>
    refine stopsClean_read fun cs hcs => ?_
    obtain ⟨s, hs', -⟩ := children_ok.1 hcs
    cases hs.symm.trans hs'
  | some s =>
    obtain ⟨t₁, hslots, hrun⟩ := run_transferChildren h hs target
    suffices hy : ∃ t', Yields (s.children.forM fun c => appendChild target c) t₁ () t' by
      obtain ⟨t', hy⟩ := hy
      exact Yields.stopsClean (hrun.trans hy)
    by_cases hne : s.children = []
    · rw [hne]
      exact ⟨t₁, yields_pure _ _⟩
    obtain ⟨up, hup, hnot⟩ := htarget s hs hne
    have hup₁ : t₁.Ascends target up := by
      rcases hup.cut hslots with ⟨hup₁, -⟩ | ⟨low, c, high, rfl, hc, -⟩
      · exact hup₁
      · exact absurd (by simp) (hnot c hc)
    have hn : s.children.Nodup := listed_slot hs ▸ h.nodup source
    obtain ⟨t', hy, -⟩ := appendAll_slots hup₁ (fun c hc => ⟨hnot c hc, hslots.moved_free hc
      (lt_of_above ((h.agree c source).2 (listed_slot hs ▸ hc)))⟩) hn
    exact ⟨t', hy⟩

end Linked

end Tree

/-! ## Any operation -/

namespace Operation

open Edit

variable {t t' : Tree} {d : Defect} {f : NodeId → Slot → Slot} {o : Operation}

/-- The operation stops with the defect when it has written already, and what it has made of every
slot by then. -/
inductive Tears (t : Tree) : Operation → Defect → (NodeId → Slot → Slot) → Prop
  /-- A child that has a place is to go behind the end of a list, as long as that is without it. -/
  | insertChild {parent child p : NodeId} {index : Nat} {up siblings : List NodeId}
      (placed : t.parent child = .ok (some p)) (ascent : t.Ascends parent up) (apart : child ∉ up)
      (listed : t.children parent = .ok siblings)
      (beyond : (siblings.filter (· ≠ child)).length < index) :
    Tears t (.insertChild parent index child)
      (.insertOutOfRange index (siblings.filter (· ≠ child)).length) (Slot.released child)
  /-- A child is to become the last of the list that it is on. -/
  | appendChild {parent child : NodeId} {n : Nat} (placed : t.parent child = .ok (some parent))
      (count : t.childCount parent = .ok (n + 1)) :
    Tears t (.appendChild parent child) (.insertOutOfRange (n + 1) n) (Slot.released child)
  /-- Children are to move to a slot that the arena does not have. -/
  | transferOutside {source target : NodeId} {moved : List NodeId}
      (listed : t.children source = .ok moved) (moving : moved ≠ []) (outside : t.size ≤ target) :
    Tears t (.transferChildren source target) (.foreignNode target)
      (Slot.moved source target [] moved)
  /-- Children are to move to one of them, or to a slot below one of them. -/
  | transferBelow {source target c : NodeId} {before after up : List NodeId}
      (listed : t.children source = .ok (before ++ c :: after)) (ascent : t.Ascends target up)
      (met : c ∈ up) :
    Tears t (.transferChildren source target) (.cycle c target)
      (Slot.moved source target before (c :: after))

theorem Tears.run (h : t.Linked) (ht : Tears t o d f) :
    ∃ t', o.edit.run.run t = (.error d, t') ∧ Slotwise f t t' := by
  cases ht with
  | insertChild placed ascent apart listed beyond =>
    obtain ⟨sp, hsp, rfl⟩ := children_ok.1 listed
    exact h.insertChild_beyond _ ascent apart (lt_of_above (parent_ok.1 placed)) hsp beyond
  | @appendChild parent child n placed count =>
    have habove := parent_ok.1 placed
    obtain ⟨sp, hsp, hlength⟩ := childCount_ok.1 count
    obtain ⟨up, hup⟩ := h.ends parent (lt_of_slot hsp)
    have hnot := (List.nodup_cons.1 (ascends_step habove hup).nodup).1
    have hless : (sp.released child parent).children.length = n := by
      rw [(h.released_length hsp habove parent).1, hlength, Nat.add_sub_cancel]
    obtain ⟨t', hrun, hslots⟩ := h.insertChild_beyond (n + 1) hup hnot
      (lt_of_above habove) hsp (hless ▸ Nat.lt_succ_self n)
    rw [hless] at hrun
    refine ⟨t', ((read_childCount hsp).run_bind _).trans ?_, hslots⟩
    rw [hlength]
    exact hrun
  | transferOutside listed moving outside =>
    obtain ⟨s, hs, rfl⟩ := children_ok.1 listed
    exact h.transferChildren_outside hs moving outside
  | transferBelow listed ascent met =>
    obtain ⟨s, hs, hsplit⟩ := children_ok.1 listed
    exact h.transferChildren_below hs hsplit ascent met

/-- By then, a child has lost its place or a slot its children. -/
theorem Tears.changes (ht : Tears t o d f) (hslots : Slotwise f t t') : t' ≠ t := by
  have hplace {child p : NodeId} (hplaced : t.parent child = .ok (some p))
      (hslots : Slotwise (Slot.released child) t t') : t' ≠ t := by
    have habove := parent_ok.1 hplaced
    obtain ⟨s, hs⟩ := slot_of_lt (lt_of_above habove)
    rintro rfl
    have hfree := hslots.above hs
    simp [habove, Slot.released] at hfree
  have hlist {source target : NodeId} {cs moved left : List NodeId}
      (hlisted : t.children source = .ok cs) (hne : cs ≠ [])
      (hslots : Slotwise (Slot.moved source target moved left) t t') : t' ≠ t := by
    obtain ⟨s, hs, rfl⟩ := children_ok.1 hlisted
    rintro rfl
    have hempty := congrArg Slot.children (Option.some.inj (hs.symm.trans (hslots.slots hs)))
    exact hne (by simpa [Slot.moved] using hempty)
  cases ht with
  | insertChild placed => exact hplace placed hslots
  | appendChild placed => exact hplace placed hslots
  | transferOutside listed moving => exact hlist listed moving hslots
  | transferBelow listed => exact hlist listed (by simp) hslots

/-- An operation that changes nothing when it stops, or one that stops too late. -/
theorem stopsClean_or_tears (h : t.Linked) (o : Operation) :
    StopsClean o.edit t ∨ ∃ d f, Tears t o d f := by
  cases o with
  | add node => exact .inl (yields_add t node).stopsClean.map
  | appendChild parent child =>
    by_cases habove : t.above child = some parent
    · obtain ⟨sp, hsp⟩ := slot_of_lt (lt_of_listed ((h.agree child parent).1 habove))
      have hpos := (h.released_length hsp habove parent).2
      have hcount : t.childCount parent = .ok (sp.children.length - 1 + 1) :=
        childCount_ok.2 ⟨sp, hsp, (Nat.sub_add_cancel hpos).symm⟩
      exact .inr ⟨_, _, .appendChild (parent_ok.2 habove) hcount⟩
    · refine .inl (stopsClean_read fun count hcount => ?_)
      refine h.stopsClean_insertChild fun p up sp hp hup hnot hsp => ?_
      obtain ⟨s, hs, rfl⟩ := childCount_ok.1 hcount
      obtain rfl := Option.some.inj (hs.symm.trans hsp)
      have hsame := congrArg Slot.children (h.released_unlisted hsp habove parent)
      exact Nat.le_of_eq (congrArg List.length hsame).symm
  | insertChild parent index child =>
    by_cases htorn : ∃ d f, Tears t (.insertChild parent index child) d f
    · exact .inr htorn
    · refine .inl (h.stopsClean_insertChild fun p up sp hp hup hnot hsp => ?_)
      have hlisted : t.children parent = .ok sp.children := children_ok.2 ⟨sp, hsp, rfl⟩
      exact Nat.le_of_not_gt fun hlt =>
        htorn ⟨_, _, .insertChild (parent_ok.2 hp) hup hnot hlisted hlt⟩
  | replaceChild parent index new => exact .inl (stopsClean_replaceChild h parent index new).map
  | removeChild parent index => exact .inl (stopsClean_removeChild h parent index).map
  | transferChildren source target =>
    by_cases htorn : ∃ d f, Tears t (.transferChildren source target) d f
    · exact .inr htorn
    · refine .inl (h.stopsClean_transferChildren fun s hs hne => ?_)
      have hlisted : t.children source = .ok s.children := children_ok.2 ⟨s, hs, rfl⟩
      have htarget : target < t.size :=
        Nat.lt_of_not_ge fun hge => htorn ⟨_, _, .transferOutside hlisted hne hge⟩
      obtain ⟨up, hup⟩ := h.ends target htarget
      refine ⟨up, hup, fun c hc hmet => ?_⟩
      obtain ⟨before, after, hsplit⟩ := List.append_of_mem hc
      exact htorn ⟨_, _, .transferBelow (hsplit ▸ hlisted) hup hmet⟩
  | swapChildren parent a b => exact .inl (stopsClean_swapChildren parent a b)
  | copySubtree id => exact .inl (stopsClean_copySubtree h id).map
  | setRoot id => exact .inl (stopsClean_setRoot id)
  | setAlias id alias_ => exact .inl (stopsClean_update id _)
  | takeAlias id => exact .inl (stopsClean_takeAlias id).map
  | setNode id node => exact .inl (stopsClean_update id _)

/-- An operation stops and leaves another tree than it found exactly in these cases: a child that
has a place is inserted behind the end of a list, a child is appended to the list that it is on, or
children are moved outside of the arena or to where one of them is above. The child is then left
without a place; of the children, those before the one that is above have moved, and the others are
left without a place. Whatever else stops leaves the tree as it was. -/
theorem stops_changed_iff (h : t.WellFormed) (o : Operation) :
    o.edit.run.run t = (.error d, t') ∧ t' ≠ t ↔ ∃ f, Tears t o d f ∧ Slotwise f t t' := by
  have hlinked := (wellFormed_iff_linked.1 h).1
  constructor
  · rintro ⟨hstop, hne⟩
    rcases stopsClean_or_tears hlinked o with hclean | ⟨d₁, f, ht⟩
    · exact absurd (hclean d t' hstop) hne
    · obtain ⟨t₁, hrun, hslots⟩ := ht.run hlinked
      cases hstop.symm.trans hrun
      exact ⟨f, ht, hslots⟩
  · rintro ⟨f, ht, hslots⟩
    obtain ⟨t₁, hrun, hslots₁⟩ := ht.run hlinked
    rw [hslots.unique hslots₁] at *
    exact ⟨hrun, ht.changes hslots₁⟩

/-- The result and the `FROM` clause of a query are to move below its table: the result is there
when it turns out that the table is below the clause. -/
theorem stops_changed_iff_belowTable :
    twoColumns.WellFormed ∧ ∃ t',
      (transferChildren 1 6).edit.run.run twoColumns = (.error (.cycle 5 6), t') ∧
        t' ≠ twoColumns ∧ t'.children 1 = .ok [] ∧ t'.children 6 = .ok [2] ∧
        t'.parent 5 = .ok none := by
  have h : twoColumns.WellFormed := Term.build_wellFormed _
  have hup : twoColumns.Ascends 6 [6, 5, 1] :=
    ascends_step (p := 5) (by decide +kernel) (ascends_step (p := 1) (by decide +kernel)
      (ascends_top (by decide +kernel) (by decide +kernel)))
  have ht : Tears twoColumns (.transferChildren 1 6) (.cycle 5 6) (Slot.moved 1 6 [2] [5]) :=
    .transferBelow (by decide +kernel) hup (by decide)
  obtain ⟨t', -, hslots⟩ := ht.run (wellFormed_iff_linked.1 h).1
  obtain ⟨hrun, hne⟩ := (stops_changed_iff h _).2 ⟨_, ht, hslots⟩
  have hselect : twoColumns.slots[1]? = some ⟨.select, none, [2, 5], none⟩ := by decide +kernel
  have hfrom : twoColumns.slots[5]? = some ⟨.fromClause, some 1, [6], none⟩ := by decide +kernel
  have htable : twoColumns.slots[6]? = some ⟨.table "t" none none, some 5, [], none⟩ := by
    decide +kernel
  refine ⟨h, t', hrun, hne, children_ok.2 ⟨_, hslots.slots hselect, rfl⟩,
    children_ok.2 ⟨_, hslots.slots htable, rfl⟩, ?_⟩
  rw [Tree.parent, slot_ok (hslots.slots hfrom)]
  rfl

/-- A column that is to go to the tenth place of two, to the end of its own list, and one that its
parent is to hand to it: the operation stops each time, and the column is without a place. -/
theorem twoColumns_torn :
    twoColumns.WellFormed ∧ twoColumns.parent 3 = .ok (some 2) ∧
      (∃ t', (insertChild 1 9 3).edit.run.run twoColumns = (.error (.insertOutOfRange 9 2), t') ∧
        t'.parent 3 = .ok none) ∧
      (∃ t', (appendChild 2 3).edit.run.run twoColumns = (.error (.insertOutOfRange 2 1), t') ∧
        t'.parent 3 = .ok none) ∧
      ∃ t', (transferChildren 2 3).edit.run.run twoColumns = (.error (.cycle 3 3), t') ∧
        t'.parent 3 = .ok none := by
  have hstop {e : Edit Unit} {d : Defect} (h : (e.run.run twoColumns).1 = .error d)
      (hfree : (e.run.run twoColumns).2.parent 3 = .ok none) :
      ∃ t', e.run.run twoColumns = (.error d, t') ∧ t'.parent 3 = .ok none :=
    ⟨_, Prod.ext h rfl, hfree⟩
  exact ⟨Term.build_wellFormed _, by decide +kernel,
    hstop (by decide +kernel) (by decide +kernel), hstop (by decide +kernel) (by decide +kernel),
    hstop (by decide +kernel) (by decide +kernel)⟩

end Operation
end PolyglotSql
