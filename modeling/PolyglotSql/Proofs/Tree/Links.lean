import Mathlib.Data.List.Perm.Basic
import PolyglotSql.Proofs.Tree.Run

/-!
# PolyglotSql.Proofs.Tree.Links

The links of an arena in both directions, `above` and `listed`, and the edits that keep them in
step. In a `Linked` arena the directions agree, no slot lists a child twice, and following parents
ends.

An edit that stops with a defect leaves what it had done until then, so what an edit keeps is said
of the state it leaves however it ends (`Leaves`, `Keeps`). What it makes of every slot is said with
`Slotwise`.
-/

namespace PolyglotSql

/-! ## The state that is left -/

section Left

variable {σ α β : Type} {P : σ → Prop}

/-- Started in `s`, the computation leaves a state with the property, whether it ends or stops with
a defect. -/
def Leaves (e : ExceptT Defect (StateM σ) α) (s : σ) (P : σ → Prop) : Prop :=
  P (e.run.run s).2

/-- Whether it ends or stops with a defect, the computation keeps the property. -/
def Keeps (P : σ → Prop) (e : ExceptT Defect (StateM σ) α) : Prop :=
  ∀ s, P s → Leaves e s P

theorem Yields.leaves {e : ExceptT Defect (StateM σ) α} {s s' : σ} {a : α} (h : Yields e s a s')
    (hP : P s') : Leaves e s P := by
  unfold Yields at h
  unfold Leaves
  rw [h]
  exact hP

theorem Yields.left {e : ExceptT Defect (StateM σ) α} {s s' : σ} {a : α} (h : Yields e s a s')
    (hP : Leaves e s P) : P s' := by
  unfold Yields at h
  unfold Leaves at hP
  rw [h] at hP
  exact hP

theorem leaves_throw {s : σ} (defect : Defect) (h : P s) :
    Leaves (throw defect : ExceptT Defect (StateM σ) α) s P := h

theorem Leaves.bind {e : ExceptT Defect (StateM σ) α} {f : α → ExceptT Defect (StateM σ) β} {s : σ}
    (h : Leaves e s P) (hf : ∀ a s', Yields e s a s' → Leaves (f a) s' P) :
    Leaves (e >>= f) s P := by
  unfold Leaves at h ⊢
  rw [run_sequence]
  cases he : e.run.run s with
  | mk r s₁ =>
    rw [he] at h
    cases r with
    | error defect => exact h
    | ok a => exact hf a s₁ he

/-- What a sequence leaves after a first step that ends. -/
theorem Yields.before {e : ExceptT Defect (StateM σ) α} {f : α → ExceptT Defect (StateM σ) β}
    {s s₁ : σ} {a : α} (h : Yields e s a s₁) (hf : Leaves (f a) s₁ P) : Leaves (e >>= f) s P := by
  unfold Leaves
  rw [h.run_bind f]
  exact hf

theorem keeps_pure (a : α) : Keeps P (pure a : ExceptT Defect (StateM σ) α) := fun _ h => h

theorem keeps_throw (defect : Defect) : Keeps P (throw defect : ExceptT Defect (StateM σ) α) :=
  fun _ h => h

theorem keeps_get : Keeps P (get : ExceptT Defect (StateM σ) σ) := fun _ h => h

theorem Keeps.bind {e : ExceptT Defect (StateM σ) α} {f : α → ExceptT Defect (StateM σ) β}
    (h : Keeps P e) (hf : ∀ a, Keeps P (f a)) : Keeps P (e >>= f) :=
  fun s hs => (h s hs).bind fun a s' hy => hf a s' (hy.left (h s hs))

theorem Keeps.map {e : ExceptT Defect (StateM σ) α} {f : α → β} (h : Keeps P e) :
    Keeps P (e >>= fun a => pure (f a)) :=
  h.bind fun a => keeps_pure (f a)

theorem Keeps.forM {xs : List α} {f : α → ExceptT Defect (StateM σ) PUnit}
    (hf : ∀ x ∈ xs, Keeps P (f x)) : Keeps P (xs.forM f) := by
  induction xs with
  | nil => exact keeps_pure _
  | cons x xs ih => exact (hf x (by simp)).bind fun _ => ih fun x hx => hf x (by simp [hx])

end Left

theorem Edit.keeps_read {α : Type} {P : Tree → Prop} (look : Tree → Except Defect α) :
    Keeps P (Edit.read look) := by
  refine keeps_get.bind fun t => ?_
  cases look t with
  | error defect => exact keeps_throw defect
  | ok a => exact keeps_pure a

theorem Edit.keeps_update {P : Tree → Prop} {id : NodeId} {f : Slot → Slot}
    (h : ∀ t, P t → P (t.change id f)) : Keeps P (Edit.update id f) := by
  intro t ht
  refine (keeps_get t ht).bind fun _ _ hy => ?_
  obtain ⟨rfl, rfl⟩ := (yields_get t).unique hy
  by_cases hid : id < t.slots.size
  · rw [if_pos hid]
    exact h t ht
  · rw [if_neg hid]
    exact leaves_throw _ ht

namespace Tree

variable {t t' : Tree} {id p c : NodeId} {up : List NodeId}

/-! ## Both directions of the links -/

/-- The parent of a slot; none where there is no slot. -/
def above (t : Tree) (id : NodeId) : Option NodeId :=
  t.slots[id]?.bind Slot.parent

/-- The children of a slot; none where there is no slot. -/
def listed (t : Tree) (id : NodeId) : List NodeId :=
  (t.slots[id]?.map Slot.children).getD []

theorem above_slot {s : Slot} (h : t.slots[id]? = some s) : t.above id = s.parent := by
  simp [above, h]

theorem listed_slot {s : Slot} (h : t.slots[id]? = some s) : t.listed id = s.children := by
  simp [listed, h]

theorem slot_of_lt (h : id < t.slots.size) : ∃ s, t.slots[id]? = some s :=
  ⟨t.slots[id], by simp [h]⟩

theorem lt_of_above (h : t.above c = some p) : c < t.slots.size := by
  obtain ⟨s, hs, -⟩ := Option.bind_eq_some_iff.1 h
  exact lt_of_slot hs

theorem lt_of_listed (h : c ∈ t.listed p) : p < t.slots.size := by
  unfold listed at h
  cases hs : t.slots[p]? with
  | none => simp [hs] at h
  | some s => exact lt_of_slot hs

/-- Another parent entered in a slot. -/
def setAbove (t : Tree) (id : NodeId) (p : Option NodeId) : Tree :=
  t.change id fun s => { s with parent := p }

/-- The children of a slot listed otherwise. -/
def relist (t : Tree) (id : NodeId) (f : List NodeId → List NodeId) : Tree :=
  t.change id fun s => { s with children := f s.children }

@[simp] theorem setAbove_size (t : Tree) (id : NodeId) (p : Option NodeId) :
    (t.setAbove id p).slots.size = t.slots.size := by
  simp [setAbove]

@[simp] theorem relist_size (t : Tree) (id : NodeId) (f : List NodeId → List NodeId) :
    (t.relist id f).slots.size = t.slots.size := by
  simp [relist]

theorem setAbove_above (h : id < t.slots.size) (p : Option NodeId) (x : NodeId) :
    (t.setAbove id p).above x = if id = x then p else t.above x := by
  obtain ⟨s, hs⟩ := slot_of_lt h
  by_cases hx : id = x
  · subst hx
    rw [if_pos rfl]
    exact above_slot (change_self _ hs)
  · rw [if_neg hx, above, setAbove, change_other _ hx, above]

@[simp] theorem setAbove_listed (t : Tree) (id : NodeId) (p : Option NodeId) (x : NodeId) :
    (t.setAbove id p).listed x = t.listed x := by
  rw [listed, setAbove, change_slots, listed]
  split
  · cases t.slots[x]? <;> rfl
  · rfl

@[simp] theorem relist_above (t : Tree) (id : NodeId) (f : List NodeId → List NodeId) (x : NodeId) :
    (t.relist id f).above x = t.above x := by
  rw [above, relist, change_slots, above]
  split
  · cases t.slots[x]? <;> rfl
  · rfl

theorem relist_listed (h : id < t.slots.size) (f : List NodeId → List NodeId) (x : NodeId) :
    (t.relist id f).listed x = if id = x then f (t.listed id) else t.listed x := by
  obtain ⟨s, hs⟩ := slot_of_lt h
  by_cases hx : id = x
  · subst hx
    rw [if_pos rfl, listed_slot hs]
    exact listed_slot (change_self _ hs)
  · rw [if_neg hx, listed, relist, change_other _ hx, listed]

/-! ## Ascents along the links -/

theorem ascends_top (hid : id < t.slots.size) (h : t.above id = none) : t.Ascends id [id] := by
  obtain ⟨s, hs⟩ := slot_of_lt hid
  exact .top hs ((above_slot hs).symm.trans h)

theorem ascends_step (h : t.above id = some p) (hp : t.Ascends p up) : t.Ascends id (id :: up) := by
  obtain ⟨s, hs⟩ := slot_of_lt (lt_of_above h)
  exact .step hs ((above_slot hs).symm.trans h) hp

namespace Ascends

/-- An ascent stays if the slots it visits keep their parents. -/
theorem stay (h : t.Ascends id up) (hsize : t.slots.size ≤ t'.slots.size)
    (habove : ∀ x ∈ up, t'.above x = t.above x) : t'.Ascends id up := by
  induction h with
  | top hs hp =>
    refine ascends_top (Nat.lt_of_lt_of_le (lt_of_slot hs) hsize) ?_
    rw [habove _ (by simp), above_slot hs, hp]
  | step hs hp _ ih =>
    refine ascends_step ?_ (ih fun x hx => habove x (by simp [hx]))
    rw [habove _ (by simp), above_slot hs, hp]

/-- Following parents still ends if every slot keeps its parent, loses it, or gets one from which
following parents ends. -/
theorem carry (h : t.Ascends id up) (hsize : t.slots.size ≤ t'.slots.size)
    (habove : ∀ x, x < t.slots.size → t'.above x = none ∨ t'.above x = t.above x ∨
      ∃ p up, t'.above x = some p ∧ t'.Ascends p up) : ∃ up', t'.Ascends id up' := by
  have hlt := h.lt_size h.head_mem
  induction h with
  | @top id s hs hp =>
    rcases habove id hlt with hx | hx | ⟨p, up, hx, hup⟩
    · exact ⟨_, ascends_top (Nat.lt_of_lt_of_le hlt hsize) hx⟩
    · refine ⟨_, ascends_top (Nat.lt_of_lt_of_le hlt hsize) ?_⟩
      rw [hx, above_slot hs, hp]
    · exact ⟨_, ascends_step hx hup⟩
  | @step id p s up hs hp hup ih =>
    rcases habove id hlt with hx | hx | ⟨p', up', hx, hup'⟩
    · exact ⟨_, ascends_top (Nat.lt_of_lt_of_le hlt hsize) hx⟩
    · obtain ⟨up', hup'⟩ := ih (hup.lt_size hup.head_mem)
      exact ⟨_, ascends_step (by rw [hx, above_slot hs, hp]) hup'⟩
    · exact ⟨_, ascends_step hx hup'⟩

end Ascends

/-- A walk upwards that meets no defect and has enough steps met no `child`. -/
theorem not_mem_of_checkNotAbove {child parent : NodeId} {steps : Nat} (h : t.Ascends id up)
    (hsteps : up.length ≤ steps) (hok : t.checkNotAbove child parent steps id = .ok ()) :
    child ∉ up := by
  induction h generalizing steps with
  | @top id s hs hp =>
    cases steps with
    | zero => simp at hsteps
    | succ n =>
      rw [checkNotAbove] at hok
      split at hok
      · cases hok
      · rename_i hne
        simpa using Ne.symm hne
  | @step id p s up hs hp _ ih =>
    cases steps with
    | zero => simp at hsteps
    | succ n =>
      rw [checkNotAbove] at hok
      split at hok
      · cases hok
      · rename_i hne
        simp only [slot_ok hs, hp] at hok
        exact List.not_mem_cons_of_ne_of_not_mem (Ne.symm hne)
          (ih (Nat.le_of_succ_le_succ hsteps) hok)

theorem lt_of_checkNotAbove {child parent : NodeId} {steps : Nat}
    (hok : t.checkNotAbove child parent (steps + 1) id = .ok ()) : id < t.slots.size := by
  rw [checkNotAbove] at hok
  split at hok
  · cases hok
  · cases hs : t.slots[id]? with
    | none => simp [slot, hs] at hok
    | some s => exact lt_of_slot hs

/-! ## Links that agree -/

/-- Parents and lists of children agree, no slot lists a child twice, and following parents
ends. -/
structure Linked (t : Tree) : Prop where
  agree : ∀ c p, t.above c = some p ↔ c ∈ t.listed p
  nodup : ∀ p, (t.listed p).Nodup
  ends : ∀ id, id < t.slots.size → ∃ up, t.Ascends id up

namespace Linked

theorem ne_parent (h : t.Linked) (hc : t.above c = some p) : c ≠ p := by
  rintro rfl
  obtain ⟨up, hup⟩ := h.ends c (lt_of_above hc)
  have hlen := congrArg List.length (hup.unique (ascends_step hc hup))
  simp at hlen

/-- What agrees in one arena agrees in another with the same links. -/
theorem same (h : t.Linked) (hsize : t'.slots.size = t.slots.size)
    (habove : ∀ x, t'.above x = t.above x) (hlisted : ∀ x, t'.listed x = t.listed x) :
    t'.Linked where
  agree c p := by rw [habove, hlisted, h.agree]
  nodup p := by rw [hlisted]; exact h.nodup p
  ends id hid := by
    obtain ⟨up, hup⟩ := h.ends id (hsize ▸ hid)
    exact ⟨up, hup.stay (Nat.le_of_eq hsize.symm) fun x _ => habove x⟩

/-- A slot may be changed but for its links. -/
theorem change (h : t.Linked) (id : NodeId) {f : Slot → Slot}
    (hparent : ∀ s, (f s).parent = s.parent) (hchildren : ∀ s, (f s).children = s.children) :
    (t.change id f).Linked := by
  refine h.same (by simp) (fun x => ?_) fun x => ?_
  · rw [above, change_slots, above]
    split
    · cases t.slots[x]? <;> simp [hparent]
    · rfl
  · rw [listed, change_slots, listed]
    split
    · cases t.slots[x]? <;> simp [hchildren]
    · rfl

/-- A fresh slot has no links. -/
theorem grow (h : t.Linked) {s : Slot} (hparent : s.parent = none) (hchildren : s.children = []) :
    (t.grow s).Linked := by
  have habove : ∀ x, (t.grow s).above x = t.above x := by
    intro x
    rcases Nat.lt_trichotomy x t.slots.size with hlt | rfl | hgt
    · rw [above, grow_old s hlt, above]
    · rw [above_slot (grow_new t s), hparent]
      simp [above]
    · simp [above, Tree.grow, Array.getElem?_push, Nat.ne_of_gt hgt]
  have hlisted : ∀ x, (t.grow s).listed x = t.listed x := by
    intro x
    rcases Nat.lt_trichotomy x t.slots.size with hlt | rfl | hgt
    · rw [listed, grow_old s hlt, listed]
    · rw [listed_slot (grow_new t s), hchildren]
      simp [listed]
    · simp [listed, Tree.grow, Array.getElem?_push, Nat.ne_of_gt hgt]
  refine ⟨fun c p => by rw [habove, hlisted, h.agree], fun p => by rw [hlisted]; exact h.nodup p,
    fun id hid => ?_⟩
  rcases Nat.lt_or_ge id t.slots.size with hlt | hge
  · obtain ⟨up, hup⟩ := h.ends id hlt
    exact ⟨up, hup.stay (by simp) fun x _ => habove x⟩
  · refine ⟨_, ascends_top hid ?_⟩
    rw [habove]
    simp [above, Array.getElem?_eq_none hge]

/-- Children may be listed in another order. -/
theorem reorder (h : t.Linked) {f : List NodeId → List NodeId} (hp : p < t.slots.size)
    (hf : (f (t.listed p)).Perm (t.listed p)) : (t.relist p f).Linked := by
  have hlisted : ∀ x, ((t.relist p f).listed x).Perm (t.listed x) := by
    intro x
    rw [relist_listed hp]
    split
    · rename_i he
      exact he ▸ hf
    · exact .refl _
  refine ⟨fun c q => ?_, fun q => (hlisted q).nodup_iff.2 (h.nodup q), fun id hid => ?_⟩
  · rw [relist_above, h.agree, (hlisted q).mem_iff]
  · obtain ⟨up, hup⟩ := h.ends id (by simpa using hid)
    exact ⟨up, hup.stay (by simp) fun x _ => by simp⟩

/-- A child is let go in both directions. -/
theorem release (h : t.Linked) {f : List NodeId → List NodeId} (hc : t.above c = some p)
    (hf : (c :: f (t.listed p)).Perm (t.listed p)) : ((t.relist p f).setAbove c none).Linked := by
  have hp : p < t.slots.size := lt_of_listed ((h.agree c p).1 hc)
  have hlt : c < (t.relist p f).slots.size := by simpa using lt_of_above hc
  have hnodup := hf.nodup_iff.2 (h.nodup p)
  refine ⟨fun x q => ?_, fun q => ?_, fun id hid => ?_⟩
  · rw [setAbove_above hlt, setAbove_listed, relist_above, relist_listed hp]
    have hagree := h.agree x q
    have hmem : x ∈ t.listed p ↔ x = c ∨ x ∈ f (t.listed p) := by
      rw [← hf.mem_iff, List.mem_cons]
    have hother : t.above c = some q → q = p := fun hq => Option.some.inj (hq.symm.trans hc)
    have hgone : c ∉ f (t.listed p) := (List.nodup_cons.1 hnodup).1
    grind
  · rw [setAbove_listed, relist_listed hp]
    split
    · exact (List.nodup_cons.1 hnodup).2
    · exact h.nodup q
  · simp only [setAbove_size, relist_size] at hid
    obtain ⟨up, hup⟩ := h.ends id hid
    refine hup.carry (by simp) fun x _ => ?_
    rw [setAbove_above hlt, relist_above]
    by_cases hx : c = x
    · exact .inl (if_pos hx)
    · exact .inr (.inl (if_neg hx))

/-- A slot without a parent is attached where no ascent comes from it. -/
theorem attach (h : t.Linked) {f : List NodeId → List NodeId} (hc : c < t.slots.size)
    (hfree : t.above c = none) (hup : t.Ascends p up) (hnot : c ∉ up)
    (hf : (f (t.listed p)).Perm (c :: t.listed p)) :
    ((t.relist p f).setAbove c (some p)).Linked := by
  have hp : p < t.slots.size := hup.lt_size hup.head_mem
  have hlt : c < (t.relist p f).slots.size := by simpa using hc
  have hunlisted : ∀ q, c ∉ t.listed q := by
    intro q hq
    rw [← h.agree, hfree] at hq
    cases hq
  have hup' : ((t.relist p f).setAbove c (some p)).Ascends p up := by
    refine hup.stay (by simp) fun x hx => ?_
    have hne : c ≠ x := fun he => hnot (he ▸ hx)
    rw [setAbove_above hlt, relist_above, if_neg hne]
  refine ⟨fun x q => ?_, fun q => ?_, fun id hid => ?_⟩
  · rw [setAbove_above hlt, setAbove_listed, relist_above, relist_listed hp]
    have hagree := h.agree x q
    have hmem : x ∈ f (t.listed p) ↔ x = c ∨ x ∈ t.listed p := by
      rw [hf.mem_iff, List.mem_cons]
    have := hunlisted q
    grind
  · rw [setAbove_listed, relist_listed hp]
    split
    · exact hf.nodup_iff.2 (List.nodup_cons.2 ⟨hunlisted p, h.nodup p⟩)
    · exact h.nodup q
  · simp only [setAbove_size, relist_size] at hid
    obtain ⟨up', hid'⟩ := h.ends id hid
    refine hid'.carry (by simp) fun x _ => ?_
    rw [setAbove_above hlt, relist_above]
    by_cases hx : c = x
    · exact .inr (.inr ⟨p, up, if_pos hx, hup'⟩)
    · exact .inr (.inl (if_neg hx))

/-- A slot without a parent takes the place of a child, which is let go. -/
theorem replace (h : t.Linked) {old new : NodeId} {place : Nat}
    (hold : (t.listed p)[place]? = some old) (hnew : new < t.slots.size)
    (hfree : t.above new = none) (hup : t.Ascends p up) (hnot : new ∉ up) :
    (((t.relist p (·.set place new)).setAbove new (some p)).setAbove old none).Linked := by
  obtain ⟨hplace, he⟩ := List.getElem?_eq_some_iff.1 hold
  have habove : t.above old = some p := (h.agree old p).2 (he ▸ List.getElem_mem hplace)
  have hp : p < t.slots.size := hup.lt_size hup.head_mem
  have holdlt := lt_of_above habove
  have hne : old ≠ new := by
    rintro rfl
    rw [hfree] at habove
    cases habove
  have hbelow : old ∉ up := (List.nodup_cons.1 (ascends_step habove hup).nodup).1
  -- The child is let go first; then the other slot is attached where it was.
  let t₁ := (t.relist p (·.eraseIdx place)).setAbove old none
  have hold₁ : old < (t.relist p (·.eraseIdx place)).slots.size := by simpa using holdlt
  have habove₁ : ∀ x, t₁.above x = if old = x then none else t.above x := by
    intro x
    rw [setAbove_above hold₁, relist_above]
  have hlisted₁ : t₁.listed p = (t.listed p).eraseIdx place := by
    rw [setAbove_listed, relist_listed hp, if_pos rfl]
  have h₁ : t₁.Linked := h.release habove (he ▸ List.getElem_cons_eraseIdx_perm hplace)
  have hup₁ : t₁.Ascends p up := by
    refine hup.stay (by simp [t₁]) fun x hx => ?_
    rw [habove₁, if_neg (fun hox => hbelow (by rw [hox]; exact hx))]
  have h₂ : ((t₁.relist p fun _ => (t.listed p).set place new).setAbove new (some p)).Linked := by
    refine h₁.attach (by simpa [t₁] using hnew) ?_ hup₁ hnot ?_
    · rw [habove₁, if_neg hne, hfree]
    · rw [hlisted₁]
      exact List.set_perm_cons_eraseIdx hplace new
  refine h₂.same (by simp [t₁]) (fun x => ?_) fun x => ?_
  · rw [setAbove_above (by simpa using holdlt), setAbove_above (by simpa using hnew),
      setAbove_above (by simpa [t₁] using hnew), relist_above, relist_above, habove₁]
    grind
  · rw [setAbove_listed, setAbove_listed, setAbove_listed, relist_listed hp,
      relist_listed (by simpa [t₁] using hp), setAbove_listed, relist_listed hp]
    grind

end Linked

/-! ## Trees slot by slot -/

/-- The same root and as many slots, and in each of them what is made of what was there. -/
structure Slotwise (f : NodeId → Slot → Slot) (t t' : Tree) : Prop where
  root : t'.root = t.root
  size : t'.size = t.size
  slots : ∀ {id : NodeId} {s : Slot}, t.slots[id]? = some s → t'.slots[id]? = some (f id s)

theorem slotwise_change (t : Tree) (id : NodeId) (f : Slot → Slot) :
    Slotwise (fun x s => if x = id then f s else s) t (t.change id f) := by
  refine ⟨rfl, by simp [Tree.size], fun {x s} hs => ?_⟩
  by_cases hx : x = id
  · subst hx
    rw [change_self f hs, if_pos rfl]
  · rw [change_other f (Ne.symm hx), hs, if_neg hx]

namespace Slotwise

variable {t₁ : Tree} {f g : NodeId → Slot → Slot}

theorem trans (h : Slotwise f t t₁) (h' : Slotwise g t₁ t') :
    Slotwise (fun id s => g id (f id s)) t t' :=
  ⟨h'.root.trans h.root, h'.size.trans h.size, fun hs => h'.slots (h.slots hs)⟩

theorem congr (h : Slotwise f t t')
    (hfg : ∀ {id : NodeId} {s : Slot}, t.slots[id]? = some s → f id s = g id s) :
    Slotwise g t t' :=
  ⟨h.root, h.size, fun hs => hfg hs ▸ h.slots hs⟩

theorem slots_eq (h : Slotwise f t t') (id : NodeId) :
    t'.slots[id]? = t.slots[id]?.map (f id) := by
  cases hs : t.slots[id]? with
  | some s => exact h.slots hs
  | none =>
    have hsize : t'.slots.size = t.slots.size := h.size
    rw [Array.getElem?_eq_none_iff] at hs
    exact Array.getElem?_eq_none (hsize ▸ hs)

theorem above (h : Slotwise f t t') {s : Slot} {id : NodeId} (hs : t.slots[id]? = some s) :
    t'.above id = (f id s).parent :=
  above_slot (h.slots hs)

/-- What is made of each slot leaves no choice. -/
theorem unique (h : Slotwise f t t₁) (h' : Slotwise f t t') : t₁ = t' := by
  obtain ⟨slots₁, root₁⟩ := t₁
  obtain ⟨slots', root'⟩ := t'
  have hroot : root₁ = root' := h.root.trans h'.root.symm
  have hslots : slots₁ = slots' := Array.ext_getElem? fun id =>
    (h.slots_eq id).trans (h'.slots_eq id).symm
  rw [hroot, hslots]

end Slotwise
end Tree
end PolyglotSql
