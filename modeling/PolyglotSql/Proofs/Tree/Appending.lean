import PolyglotSql.Proofs.Tree.Operations

/-!
# PolyglotSql.Proofs.Tree.Appending

Appending a child, slot by slot. An append that ends gives the child its new parent, puts it at the
end of that parent's list, takes it off the list it was on and changes nothing else.

The place is counted before the child leaves its own, so an append to the parent that a child
already has asks for a place that is no longer there. It stops with a defect, and the child is
left without a parent (`appendChild_slots`).
-/

namespace PolyglotSql

namespace Slot

/-- What is in the slot `id` once `child` has no parent. -/
def released (child id : NodeId) (s : Slot) : Slot :=
  { s with
    parent := if id = child then none else s.parent
    children := s.children.filter (· ≠ child) }

/-- What is in the slot `id` once a `child` without a place has one below `parent`. -/
def attached (parent : NodeId) (index : Nat) (child id : NodeId) (s : Slot) : Slot :=
  { s with
    parent := if id = child then some parent else s.parent
    children := if id = parent then s.children.insertIdx index child else s.children }

/-- What is in the slot `id` once `child` is the last child of `parent`. -/
def appended (parent child id : NodeId) (s : Slot) : Slot :=
  { s with
    parent := if id = child then some parent else s.parent
    children :=
      if id = parent then s.children.filter (· ≠ child) ++ [child]
      else s.children.filter (· ≠ child) }

theorem attached_released {parent child id : NodeId} {s : Slot} {index : Nat}
    (h : id = parent → index = (s.released child id).children.length) :
    (s.released child id).attached parent index child id = s.appended parent child id := by
  by_cases hid : id = parent
  · rw [h hid]
    simp only [released, attached, appended, if_pos hid, List.insertIdx_length_self]
    split <;> rfl
  · simp only [released, attached, appended, if_neg hid]
    split <;> rfl

end Slot

namespace Tree

open Edit

variable {t t₁ t' : Tree} {parent child : NodeId} {up : List NodeId}

/-- A slot that does not list the child keeps its list. -/
theorem Linked.released_unlisted {p : NodeId} {s : Slot} (h : t.Linked)
    (hs : t.slots[p]? = some s) (hc : t.above child ≠ some p) (id : NodeId) :
    s.released child id = { s with parent := if id = child then none else s.parent } := by
  have hkeep : s.children.filter (· ≠ child) = s.children := by
    refine List.filter_eq_self.2 fun x hx => ?_
    have hne : x ≠ child := by
      rintro rfl
      exact hc ((h.agree x p).2 (listed_slot hs ▸ hx))
    simpa using hne
  rw [Slot.released, hkeep]

/-- The list that holds the child is shorter by one without it. -/
theorem Linked.released_length {p : NodeId} {s : Slot} (h : t.Linked)
    (hs : t.slots[p]? = some s) (hc : t.above child = some p) (id : NodeId) :
    (s.released child id).children.length = s.children.length - 1 ∧ 0 < s.children.length := by
  have hlisted := listed_slot hs
  have hmem : child ∈ s.children := hlisted ▸ (h.agree child p).1 hc
  have herase := (hlisted ▸ h.nodup p : s.children.Nodup).erase_eq_filter child
  have hfilter : (s.released child id).children = s.children.erase child := by
    rw [herase]
    exact List.filter_congr fun x _ => by by_cases hx : x = child <;> simp [hx]
  rw [hfilter, List.length_erase_of_mem hmem]
  exact ⟨rfl, List.length_pos_of_mem hmem⟩

/-- Detaching writes the child's slot and that of its parent only; no other slot lists the child. -/
theorem Linked.detach_slots (h : t.Linked) (hc : child < t.slots.size) :
    ∃ t', Yields (detach child) t () t' ∧ Slotwise (Slot.released child) t t' := by
  obtain ⟨s, hs⟩ := slot_of_lt hc
  have habove := above_slot hs
  cases hp : s.parent with
  | none =>
    rw [hp] at habove
    refine ⟨t, yields_detach_free hs hp, rfl, rfl, fun {id s'} hid => ?_⟩
    have hfree : (if id = child then none else s'.parent) = s'.parent := by
      split
      · subst id
        rw [← hp, Option.some.inj (hs.symm.trans hid)]
      · rfl
    rw [h.released_unlisted hid (by simp [habove]), hfree, hid]
  | some p =>
    rw [hp] at habove
    have hne := h.ne_parent habove
    obtain ⟨sp, hsp⟩ := slot_of_lt (lt_of_listed ((h.agree child p).1 habove))
    refine ⟨_, yields_detach hs hp hsp hne, rfl, by simp [Tree.size], fun {id s'} hid => ?_⟩
    by_cases hpid : id = p
    · subst id
      have hother := (change_other (fun s => { s with parent := none }) hne).trans hid
      rw [change_self _ hother, Slot.released, if_neg (Ne.symm hne)]
    · have hunlisted : t.above child ≠ some id := by simpa [habove] using Ne.symm hpid
      rw [change_other _ (Ne.symm hpid), h.released_unlisted hid hunlisted]
      by_cases hcid : child = id
      · rw [if_pos hcid.symm, ← hcid, change_self _ (hcid ▸ hid)]
      · rw [change_other _ hcid, hid, if_neg (Ne.symm hcid)]

/-- The two writes that give a child its place. -/
theorem attach_slots (index : Nat) (hp : parent < t.size) (hc : child < t.size)
    (hne : parent ≠ child) :
    ∃ t', Yields (do
        update parent fun s => { s with children := s.children.insertIdx index child }
        update child fun s => { s with parent := some parent }) t () t' ∧
      Slotwise (Slot.attached parent index child) t t' := by
  refine ⟨_, .bind (yields_update_lt hp) (yields_update_lt (by simpa [Tree.size] using hc)), rfl,
    by simp [Tree.size], fun {id s} hid => ?_⟩
  rw [change_slots, change_slots, hid]
  by_cases hpid : parent = id <;> by_cases hcid : child = id
  · exact absurd (hpid.trans hcid.symm) hne
  · simp [Slot.attached, hpid, hcid, Ne.symm hcid]
  · simp [Slot.attached, hpid, hcid, Ne.symm hpid]
  · simp [Slot.attached, hpid, hcid, Ne.symm hpid, Ne.symm hcid]

/-- Once the child has left its place, what remains of an insertion is a check of the index and two
writes. -/
theorem run_insertChild (index : Nat) (hup : t.Ascends parent up) (hnot : child ∉ up)
    (hdetach : Yields (detach child) t () t₁) {sp₁ : Slot} (hsp₁ : t₁.slots[parent]? = some sp₁) :
    (insertChild parent index child).run.run t =
      (if index ≤ sp₁.children.length then do
        update parent fun s => { s with children := s.children.insertIdx index child }
        update child fun s => { s with parent := some parent }
      else throw (.insertOutOfRange index sp₁.children.length) : Edit Unit).run.run t₁ := by
  refine ((yields_assertNotAbove hup hnot).run_bind _).trans ?_
  refine (hdetach.run_bind _).trans ?_
  exact (read_childCount hsp₁).run_bind _

/-- An append is an insertion at the place that was counted before. -/
theorem run_appendChild (hup : t.Ascends parent up) (hnot : child ∉ up)
    (hdetach : Yields (detach child) t () t₁) {sp sp₁ : Slot} (hsp : t.slots[parent]? = some sp)
    (hsp₁ : t₁.slots[parent]? = some sp₁) :
    (appendChild parent child).run.run t =
      (if sp.children.length ≤ sp₁.children.length then do
        update parent fun s => { s with children := s.children.insertIdx sp.children.length child }
        update child fun s => { s with parent := some parent }
      else throw (.insertOutOfRange sp.children.length sp₁.children.length) : Edit Unit).run.run
        t₁ :=
  ((read_childCount hsp).run_bind _).trans (run_insertChild _ hup hnot hdetach hsp₁)

/-- What appending a child does to every slot, where the child is neither its new parent nor above
it. It moves the child to the end of the list, unless the child is on that list already: then it
stops with a defect, and the child is on no list. -/
theorem appendChild_slots (h : t.WellFormed) (hp : parent < t.size) (hc : child < t.size)
    (hnot : ∀ up, t.Ascends parent up → child ∉ up) :
    (t.parent child ≠ .ok (some parent) →
      ∃ t', Yields (appendChild parent child) t () t' ∧
        Slotwise (Slot.appended parent child) t t') ∧
    (t.parent child = .ok (some parent) →
      ∃ t' n, t.childCount parent = .ok (n + 1) ∧
        (appendChild parent child).run.run t = (.error (.insertOutOfRange (n + 1) n), t') ∧
        Slotwise (Slot.released child) t t') := by
  have hlinked := (wellFormed_iff_linked.1 h).1
  obtain ⟨up, hup⟩ := hlinked.ends parent hp
  have hne : parent ≠ child := fun he => hnot up hup (he ▸ hup.head_mem)
  obtain ⟨sp, hsp⟩ := slot_of_lt hp
  obtain ⟨t₁, hdetach, hrelease⟩ := hlinked.detach_slots hc
  have hrun := run_appendChild hup (hnot up hup) hdetach hsp (hrelease.slots hsp)
  rw [Ne, parent_ok]
  refine ⟨fun habove => ?_, fun habove => ?_⟩
  · have hsame := hlinked.released_unlisted hsp habove parent
    rw [hsame, if_pos (Nat.le_refl _)] at hrun
    obtain ⟨t', hwrites, hattach⟩ := attach_slots sp.children.length
      (hrelease.size ▸ hp) (hrelease.size ▸ hc) hne
    refine ⟨t', hrun.trans hwrites, hattach.root.trans hrelease.root,
      hattach.size.trans hrelease.size, fun {id s} hid => ?_⟩
    rw [hattach.slots (hrelease.slots hid), Slot.attached_released]
    rintro rfl
    obtain rfl := Option.some.inj (hsp.symm.trans hid)
    rw [hsame]
  · obtain ⟨hless, hpos⟩ := hlinked.released_length hsp habove parent
    rw [if_neg (by omega), hless] at hrun
    refine ⟨t₁, sp.children.length - 1, ?_, ?_, hrelease⟩
    · rw [Nat.sub_add_cancel hpos, childCount, slot_ok hsp]
      rfl
    · rw [Nat.sub_add_cancel hpos]
      exact hrun

/-- `SELECT a, b FROM t` with its columns at 3 and 4 below the result at 2. -/
def twoColumns : Tree :=
  (Term.of .select
    [.of .result [.leaf (.column ⟨none, "a", none⟩), .leaf (.column ⟨none, "b", none⟩)],
      .of .fromClause [.leaf (.table "t" none none)]]).build

theorem appendChild_slots_twoColumns :
    twoColumns.WellFormed ∧ (∀ up, twoColumns.Ascends 5 up → 3 ∉ up) ∧
      ∃ t', Yields (appendChild 5 3) twoColumns () t' ∧
        Slotwise (Slot.appended 5 3) twoColumns t' ∧ t'.children 2 = .ok [4] ∧
        t'.children 5 = .ok [6, 3] := by
  have h : twoColumns.WellFormed := Term.build_wellFormed _
  have hup : twoColumns.Ascends 5 [5, 1] :=
    ascends_step (p := 1) (by decide +kernel)
      (ascends_top (by decide +kernel) (by decide +kernel))
  have hnot : ∀ up, twoColumns.Ascends 5 up → 3 ∉ up := by
    intro up h
    rw [h.unique hup]
    decide
  obtain ⟨t', hy, hslots⟩ :=
    (appendChild_slots h (by decide +kernel) (by decide +kernel) hnot).1 (by
      rw [Ne, parent_ok]
      decide +kernel)
  refine ⟨h, hnot, t', hy, hslots, ?_, ?_⟩
  · have hs : twoColumns.slots[2]? = some ⟨.result, some 1, [3, 4], none⟩ := by decide +kernel
    rw [children, slot_ok (hslots.slots hs)]
    rfl
  · have hs : twoColumns.slots[5]? = some ⟨.fromClause, some 1, [6], none⟩ := by decide +kernel
    rw [children, slot_ok (hslots.slots hs)]
    rfl

/-- A column that is to become the last of its own list asks for the third place of a list of
one. -/
theorem twoColumns_stops :
    twoColumns.WellFormed ∧ 2 < twoColumns.size ∧ 3 < twoColumns.size ∧
      (∀ up, twoColumns.Ascends 2 up → 3 ∉ up) ∧
      ¬ ∃ t', Yields (appendChild 2 3) twoColumns () t' := by
  have hup : twoColumns.Ascends 2 [2, 1] :=
    ascends_step (p := 1) (by decide +kernel)
      (ascends_top (by decide +kernel) (by decide +kernel))
  refine ⟨Term.build_wellFormed _, by decide +kernel, by decide +kernel, fun up h => ?_, ?_⟩
  · rw [h.unique hup]
    decide
  · rintro ⟨t', hy⟩
    have hrun : ((appendChild 2 3).run.run twoColumns).1 = .error (.insertOutOfRange 2 1) := by
      decide +kernel
    unfold Yields at hy
    rw [hy] at hrun
    cases hrun

end Tree
end PolyglotSql
