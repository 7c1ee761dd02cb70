import PolyglotSql.Proofs.Tree.Appending

/-!
# PolyglotSql.Proofs.Tree.Replacing

Replacing a child, slot by slot. The new child may come from anywhere: from another place in the
same list, from below the child that gives way, from another list, or from none. It leaves its list
first, so the place is looked up again in the list that is left; then three slots are written
(`replaceChild_slots`). What is below the new child stays as it was, because none of it lists the
new child and none of it is above the place.
-/

namespace PolyglotSql

/-- What is in the slot `id` once `new` stands below `parent` in the place of `old`. -/
def Slot.exchanged (parent old new id : NodeId) (s : Slot) : Slot :=
  { s with
    parent := if id = old then none else if id = new then some parent else s.parent
    children :=
      if id = parent then (s.children.filter (· ≠ new)).replace old new
      else s.children.filter (· ≠ new) }

theorem set_idxOf? {xs : List NodeId} {old : NodeId} {place : Nat}
    (h : xs.idxOf? old = some place) (new : NodeId) : xs.set place new = xs.replace old new := by
  induction xs generalizing place with
  | nil => simp at h
  | cons x xs ih =>
    by_cases hx : x = old
    · simp only [List.idxOf?_cons, hx, beq_self_eq_true, if_true, Option.some.injEq] at h
      simp [← h, hx]
    · have hne : (x == old) = false := by simpa using hx
      have hne' : (old == x) = false := by simpa using Ne.symm hx
      simp only [List.idxOf?_cons, hne, Bool.false_eq_true, if_false, Option.map_eq_some_iff] at h
      obtain ⟨n, hn, rfl⟩ := h
      simp [List.replace_cons, hne', ih hn]

namespace Tree

open Edit

variable {t t₁ t' : Tree} {parent old new : NodeId} {up : List NodeId}

/-- The three writes that put a slot without a parent in the place of a child. -/
theorem exchange_slots (place : Nat) (hp : parent < t.size) (hold : old < t.size)
    (hnew : new < t.size) :
    ∃ t', Yields (do
        update parent fun s => { s with children := s.children.set place new }
        update new fun s => { s with parent := some parent }
        update old fun s => { s with parent := none }
        pure old) t old t' ∧
      Slotwise (fun id s =>
        { s with
          parent := if id = old then none else if id = new then some parent else s.parent
          children := if id = parent then s.children.set place new else s.children }) t t' := by
  refine ⟨_, .bind (yields_update_lt hp) (.bind (yields_update_lt (by simpa [Tree.size] using hnew))
    (.bind (yields_update_lt (by simpa [Tree.size] using hold)) (yields_pure _ _))), ?_⟩
  refine ⟨rfl, by simp [Tree.size], fun {id s} hid => ?_⟩
  rw [(((slotwise_change t parent _).trans (slotwise_change _ new _)).trans
    (slotwise_change _ old _)).slots hid]
  by_cases h₁ : id = parent <;> by_cases h₂ : id = new <;> by_cases h₃ : id = old <;>
    simp_all

/-- Replacing a child by a slot that is neither the parent nor above it, and is not that child. -/
theorem Linked.replaceChild_exchanges {index : Nat} {sp : Slot} (h : t.Linked)
    (hsp : t.slots[parent]? = some sp) (hold : sp.children[index]? = some old)
    (hnew : new < t.size) (hup : t.Ascends parent up) (hnot : new ∉ up) (hne : old ≠ new) :
    ∃ t', Yields (replaceChild parent index new) t old t' ∧
      Slotwise (Slot.exchanged parent old new) t t' := by
  have hmem : old ∈ t.listed parent := listed_slot hsp ▸ List.mem_of_getElem? hold
  have habove := (h.agree old parent).2 hmem
  obtain ⟨t₁, hdetach, hrelease⟩ := h.detach_slots hnew
  have hsp₁ := hrelease.slots hsp
  -- The child that gives way is still in the list that the new one has left.
  obtain ⟨place, hplace⟩ : ∃ place, (sp.released new parent).children.idxOf? old = some place := by
    refine Option.ne_none_iff_exists'.1 fun hnone => List.idxOf?_eq_none_iff.1 hnone ?_
    exact List.mem_filter.2 ⟨List.mem_of_getElem? hold, by simpa using hne⟩
  have hsize := hrelease.size
  have hp : parent < t.size := lt_of_slot hsp
  have holdlt : old < t.size := lt_of_above habove
  obtain ⟨t', hwrites, hexchange⟩ := exchange_slots (t := t₁) place (hsize ▸ hp)
    (hsize ▸ holdlt) (hsize ▸ hnew)
  refine ⟨t', .bind (read_child hsp hold) ?_, hexchange.root.trans hrelease.root,
    hexchange.size.trans hsize, fun {id s} hid => ?_⟩
  · rw [if_neg hne]
    refine .bind (yields_assertNotAbove hup hnot) (.bind hdetach ?_)
    refine .bind (read_indexOf hsp₁ old) ?_
    rw [hplace]
    exact hwrites
  · rw [hexchange.slots (hrelease.slots hid)]
    by_cases hpid : id = parent
    · subst hpid
      obtain rfl := Option.some.inj (hsp.symm.trans hid)
      have hset := set_idxOf? hplace new
      simp only [Slot.released] at hset ⊢
      simp only [Slot.exchanged, if_true, hset]
      grind
    · simp only [Slot.released, Slot.exchanged, if_neg hpid]
      grind

/-- A slot that is in none of the lists and links that an exchange writes stays as it is. -/
theorem Linked.exchanged_other {id : NodeId} {s : Slot} (h : t.Linked) (hs : t.slots[id]? = some s)
    (hp : id ≠ parent) (hold : id ≠ old) (hnew : id ≠ new) (hlist : t.above new ≠ some id) :
    s.exchanged parent old new id = s := by
  have hkeep := congrArg Slot.children (h.released_unlisted hs hlist id)
  simp only [Slot.released] at hkeep
  simp only [Slot.exchanged, if_neg hp, if_neg hold, if_neg hnew, hkeep]

/-- Nothing below the new child is above the place, so all of it stays. -/
theorem Linked.exchanged_below (h : t.Linked) (hup : t.Ascends parent up) (hnot : new ∉ up)
    (habove : t.above old = some parent) (hnew : new < t.size) (hne : new ≠ old)
    (hslots : Slotwise (Slot.exchanged parent old new) t t')
    (hother : ∀ id, id ≠ parent → id ≠ old → id ≠ new → t.above new ≠ some id →
      t'.slots[id]? = t.slots[id]?) :
    t'.descendants new = t.descendants new ∧ t'.term new = t.term new := by
  obtain ⟨s, hs⟩ := slot_of_lt hnew
  have hparent : new ≠ parent := fun he => hnot (he ▸ hup.head_mem)
  refine h.below_same hs (p := some parent) ?_ fun x upx hupx hmem hx => ?_
  · have hkeep := congrArg Slot.children
      (h.released_unlisted hs (fun he => h.ne_parent he rfl) new)
    simp only [Slot.released] at hkeep
    rw [hslots.slots hs, Slot.exchanged, if_neg hne, if_pos rfl, if_neg hparent, hkeep]
  · refine hother x ?_ ?_ hx fun hlist => ?_
    · rintro rfl
      exact hnot (hupx.unique hup ▸ hmem)
    · rintro rfl
      rw [hupx.unique (ascends_step habove hup)] at hmem
      exact (List.mem_cons.1 hmem).elim hne hnot
    · exact (List.nodup_cons.1 (ascends_step hlist hupx).nodup).1 hmem

/-- What replacing a child does to every slot, where the new child is neither the parent nor above
it: it stands in the list where the former child stood and is gone from the list it was on; the
former child has no parent and keeps its own children, but for the new one. -/
theorem replaceChild_slots {count index : Nat} (h : t.WellFormed)
    (hcount : t.childCount parent = .ok count) (hindex : index < count) (hnew : new < t.size)
    (hnot : ∀ up, t.Ascends parent up → new ∉ up) :
    ∃ old t', t.child parent index = .ok old ∧
      Yields (replaceChild parent index new) t old t' ∧ (new = old → t' = t) ∧
      (new ≠ old →
        Slotwise (Slot.exchanged parent old new) t t' ∧
        t'.descendants new = t.descendants new ∧ t'.term new = t.term new ∧
        ∀ id, id ≠ parent → id ≠ old → id ≠ new → t.parent new ≠ .ok (some id) →
          t'.slots[id]? = t.slots[id]?) := by
  have hlinked := (wellFormed_iff_linked.1 h).1
  obtain ⟨sp, hsp, rfl⟩ : ∃ sp, t.slots[parent]? = some sp ∧ sp.children.length = count := by
    cases hs : t.slots[parent]? with
    | none => simp [childCount, slot, hs, Except.map] at hcount
    | some sp => exact ⟨sp, rfl, by simpa [childCount, slot_ok hs, Except.map] using hcount⟩
  have hget : sp.children[index]? = some sp.children[index] := List.getElem?_eq_getElem hindex
  have hchild : t.child parent index = .ok sp.children[index] := by
    simp [child, slot_ok hsp, hget]
  obtain ⟨up, hup⟩ := hlinked.ends parent (lt_of_slot hsp)
  by_cases hsame : new = sp.children[index]
  · refine ⟨_, t, hchild, .bind (read_child hsp hget) ?_, fun _ => rfl, fun hne => absurd hsame hne⟩
    rw [if_pos hsame.symm]
    exact yields_pure _ _
  obtain ⟨t', hy, hslots⟩ :=
    hlinked.replaceChild_exchanges hsp hget hnew hup (hnot up hup) (Ne.symm hsame)
  have hother : ∀ id, id ≠ parent → id ≠ sp.children[index] → id ≠ new →
      t.above new ≠ some id → t'.slots[id]? = t.slots[id]? := by
    intro id hp hold hnew' hlist
    cases hs : t.slots[id]? with
    | none =>
      have hsize : t'.slots.size = t.slots.size := hslots.size
      rw [Array.getElem?_eq_none_iff] at hs ⊢
      omega
    | some s => rw [hslots.slots hs, hlinked.exchanged_other hs hp hold hnew' hlist]
  have habove : t.above sp.children[index] = some parent :=
    (hlinked.agree _ parent).2 (by rw [listed_slot hsp]; exact List.getElem_mem hindex)
  obtain ⟨hdescendants, hterm⟩ := hlinked.exchanged_below hup (hnot up hup) habove hnew hsame
    hslots hother
  exact ⟨_, t', hchild, hy, fun he => absurd he hsame, fun _ => ⟨hslots, hdescendants, hterm,
    fun id hp hold hnew' hlist => hother id hp hold hnew' (mt parent_ok.2 hlist)⟩⟩

/-- `COALESCE(a, UPPER(b), c)`: the call at 1, `a` at 2, the inner call at 3 with `b` at 4, `c`
at 5. -/
def upperAmongThree : Tree :=
  (Term.call "COALESCE" [.leaf (.column ⟨none, "a", none⟩),
    .call "UPPER" [.leaf (.column ⟨none, "b", none⟩)], .leaf (.column ⟨none, "c", none⟩)]).build

/-- The inner call gives way to the sibling before it, and to its own argument. -/
theorem replaceChild_slots_upperAmongThree :
    upperAmongThree.WellFormed ∧
      (∀ up, upperAmongThree.Ascends 1 up → 2 ∉ up ∧ 4 ∉ up) ∧
      (∃ t', Yields (replaceChild 1 1 2) upperAmongThree 3 t' ∧ t'.children 1 = .ok [2, 5] ∧
        t'.children 3 = .ok [4]) ∧
      ∃ t', Yields (replaceChild 1 1 4) upperAmongThree 3 t' ∧ t'.children 1 = .ok [2, 4, 5] ∧
        t'.children 3 = .ok [] := by
  have h : upperAmongThree.WellFormed := Term.build_wellFormed _
  have hup : upperAmongThree.Ascends 1 [1] := ascends_top (by decide +kernel) (by decide +kernel)
  have hnot : ∀ up, upperAmongThree.Ascends 1 up → 2 ∉ up ∧ 4 ∉ up := by
    intro up hup'
    rw [hup'.unique hup]
    decide
  have hcount : upperAmongThree.childCount 1 = .ok 3 := by decide +kernel
  have hcall : upperAmongThree.slots[1]? = some ⟨.call "COALESCE", none, [2, 3, 5], none⟩ := by
    decide +kernel
  have hinner : upperAmongThree.slots[3]? = some ⟨.call "UPPER", some 1, [4], none⟩ := by
    decide +kernel
  have hold : upperAmongThree.child 1 1 = .ok 3 := by decide +kernel
  have hstep : ∀ new, new < 6 → new ≠ 3 → (∀ up, upperAmongThree.Ascends 1 up → new ∉ up) →
      ∃ t', Yields (replaceChild 1 1 new) upperAmongThree 3 t' ∧
        Slotwise (Slot.exchanged 1 3 new) upperAmongThree t' := by
    intro new hnew hne hfar
    have hnew : new < upperAmongThree.size := Nat.lt_of_lt_of_eq hnew (by decide +kernel)
    obtain ⟨old, t', hchild, hy, -, hrest⟩ :=
      replaceChild_slots h hcount (show 1 < 3 by decide) hnew hfar
    obtain rfl := Except.ok.inj (hchild.symm.trans hold)
    exact ⟨t', hy, (hrest hne).1⟩
  obtain ⟨t₁, hy₁, h₁⟩ := hstep 2 (by decide) (by decide) fun up hup => (hnot up hup).1
  obtain ⟨t₂, hy₂, h₂⟩ := hstep 4 (by decide) (by decide) fun up hup => (hnot up hup).2
  refine ⟨h, hnot, ⟨t₁, hy₁, ?_, ?_⟩, t₂, hy₂, ?_, ?_⟩
  · rw [children, slot_ok (h₁.slots hcall)]
    rfl
  · rw [children, slot_ok (h₁.slots hinner)]
    rfl
  · rw [children, slot_ok (h₂.slots hcall)]
    rfl
  · rw [children, slot_ok (h₂.slots hinner)]
    rfl

end Tree
end PolyglotSql
