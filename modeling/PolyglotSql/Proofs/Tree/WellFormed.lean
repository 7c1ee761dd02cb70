import PolyglotSql.Proofs.Tree.Links
import PolyglotSql.Proofs.Tree.Reading

/-!
# PolyglotSql.Proofs.Tree.WellFormed

Well-formed trees: arenas whose links agree, with a root that has no parent
(`wellFormed_iff_linked`). What is below a slot of such an arena has a layout
(`Linked.layout_below`), because no slot is listed by two others; so the slots below the root form a
term (`WellFormed.layout`).
-/

namespace PolyglotSql
namespace Tree

/-- Parents and children agree about each other, each child is listed once, there is no cycle, and
the root has no parent. -/
structure WellFormed (t : Tree) : Prop where
  /-- The root is a slot without a parent. -/
  root : ∃ s, t.slots[t.root]? = some s ∧ s.parent = none
  /-- What a slot lists as a child has that slot as its parent. -/
  child : ∀ {id : NodeId} {s : Slot}, t.slots[id]? = some s → ∀ c ∈ s.children,
    ∃ sc, t.slots[c]? = some sc ∧ sc.parent = some id
  /-- What a slot has as its parent lists that slot as a child. -/
  parent : ∀ {id p : NodeId} {s : Slot}, t.slots[id]? = some s → s.parent = some p →
    ∃ sp, t.slots[p]? = some sp ∧ id ∈ sp.children
  nodup : ∀ {id : NodeId} {s : Slot}, t.slots[id]? = some s → s.children.Nodup
  /-- Following parents ends. -/
  acyclic : ∀ id, id < t.slots.size → ∃ up, t.Ascends id up

namespace Linked

theorem child {t : Tree} (h : t.Linked) {id : NodeId} {s : Slot} (hs : t.slots[id]? = some s) :
    ∀ c ∈ s.children, ∃ sc, t.slots[c]? = some sc ∧ sc.parent = some id := by
  intro c hc
  rw [← listed_slot hs, ← h.agree] at hc
  obtain ⟨sc, hsc⟩ := slot_of_lt (lt_of_above hc)
  exact ⟨sc, hsc, (above_slot hsc).symm.trans hc⟩

theorem parent {t : Tree} (h : t.Linked) {id p : NodeId} {s : Slot} (hs : t.slots[id]? = some s)
    (hp : s.parent = some p) : ∃ sp, t.slots[p]? = some sp ∧ id ∈ sp.children := by
  have hmem := (h.agree id p).1 ((above_slot hs).trans hp)
  obtain ⟨sp, hsp⟩ := slot_of_lt (lt_of_listed hmem)
  exact ⟨sp, hsp, listed_slot hsp ▸ hmem⟩

end Linked

theorem wellFormed_iff_linked {t : Tree} :
    t.WellFormed ↔ t.Linked ∧ t.root < t.slots.size ∧ t.above t.root = none := by
  constructor
  · intro h
    obtain ⟨sr, hsr, hfree⟩ := h.root
    refine ⟨⟨fun c p => ⟨fun hc => ?_, fun hc => ?_⟩, fun p => ?_, h.acyclic⟩, lt_of_slot hsr, ?_⟩
    · obtain ⟨s, hs⟩ := slot_of_lt (lt_of_above hc)
      obtain ⟨sp, hsp, hmem⟩ := h.parent hs ((above_slot hs).symm.trans hc)
      rw [listed_slot hsp]
      exact hmem
    · obtain ⟨sp, hsp⟩ := slot_of_lt (lt_of_listed hc)
      obtain ⟨s, hs, hp⟩ := h.child hsp c (listed_slot hsp ▸ hc)
      rw [above_slot hs, hp]
    · cases hsp : t.slots[p]? with
      | none => simp [listed, hsp]
      | some sp =>
        rw [listed_slot hsp]
        exact h.nodup hsp
    · rw [above_slot hsr, hfree]
  · rintro ⟨h, hlt, hfree⟩
    obtain ⟨sr, hsr⟩ := slot_of_lt hlt
    exact ⟨⟨sr, hsr, (above_slot hsr).symm.trans hfree⟩, h.child, h.parent,
      fun hs => listed_slot hs ▸ h.nodup _, h.ends⟩

/-! ## Ascents through a layout -/

namespace Ascends

/-- From every slot of a layout an ascent passes through the layout's top. -/
theorem through {t : Tree} {p : Option NodeId} {l : Layout} {up : List NodeId} (hl : t.Holds p l)
    (h : t.Ascends l.id up) {x : NodeId} (hx : x ∈ l.ids) : ∃ low, t.Ascends x (low ++ up) := by
  induction l using Layout.induct generalizing p up with
  | mk id node alias_ below ih =>
    obtain ⟨hs, hbelow⟩ := holds_mk.1 hl
    simp only [Layout.ids_mk, List.mem_cons] at hx
    rcases hx with rfl | hx
    · exact ⟨[], h⟩
    · obtain ⟨l, hl, hx⟩ := Layout.mem_idsAll.1 hx
      obtain ⟨s, hs, -, hp⟩ := holds_top (hbelow l hl)
      obtain ⟨low, hlow⟩ := ih l hl (hbelow l hl) (.step hs hp h) hx
      exact ⟨low ++ [l.id], by simpa using hlow⟩

end Ascends

/-! ## The layout below a slot -/

/-- Layouts of some slots, one for each. -/
theorem layouts_of {t : Tree} {p : Option NodeId} {ids : List NodeId}
    (h : ∀ c ∈ ids, ∃ l, l.id = c ∧ t.Holds p l) :
    ∃ ls : List Layout, ls.map Layout.id = ids ∧ ∀ l ∈ ls, t.Holds p l := by
  induction ids with
  | nil => exact ⟨[], rfl, by simp⟩
  | cons c ids ih =>
    obtain ⟨l, rfl, hl⟩ := h c (by simp)
    obtain ⟨ls, rfl, hls⟩ := ih fun c hc => h c (by simp [hc])
    exact ⟨l :: ls, rfl, by simpa using ⟨hl, hls⟩⟩

/-- Every slot that an ascent starts from has a layout below it. -/
theorem Linked.layout_below {t : Tree} (h : t.Linked) {id : NodeId} {up : List NodeId}
    {s : Slot} (hup : t.Ascends id up) (hs : t.slots[id]? = some s) :
    ∃ l, l.id = id ∧ t.Holds s.parent l := by
  -- An ascent from a child is longer by one, and none is longer than the arena.
  obtain ⟨n, hn⟩ : ∃ n, n = t.slots.size - up.length := ⟨_, rfl⟩
  induction n using Nat.strongRecOn generalizing id up s with
  | ind n ih =>
    have hchildren : ∀ c ∈ s.children, ∃ l, l.id = c ∧ t.Holds (some id) l := by
      intro c hc
      obtain ⟨sc, hsc, hp⟩ := h.child hs c hc
      have hupc : t.Ascends c (c :: up) := .step hsc hp hup
      have hlen := hupc.length_le
      simp only [List.length_cons] at hlen
      obtain ⟨l, hl, hholds⟩ := ih _ (by simp only [List.length_cons]; omega) hupc hsc rfl
      exact ⟨l, hl, hp ▸ hholds⟩
    obtain ⟨ls, hids, hls⟩ := layouts_of hchildren
    exact ⟨.mk id s.node s.alias_ ls, rfl, holds_mk.2 ⟨by rw [hids, hs], hls⟩⟩

/-- No slot occurs twice in a layout. -/
theorem Linked.nodup_ids {t : Tree} (h : t.Linked) {p : Option NodeId} {l : Layout}
    {up : List NodeId} (hl : t.Holds p l) (hup : t.Ascends l.id up) : l.ids.Nodup := by
  induction l using Layout.induct generalizing p up with
  | mk id node alias_ below ih =>
    obtain ⟨hs, hbelow⟩ := holds_mk.1 hl
    have hupc : ∀ l ∈ below, t.Ascends l.id (l.id :: up) := by
      intro l hl
      obtain ⟨sc, hsc, -, hp⟩ := holds_top (hbelow l hl)
      exact .step hsc hp hup
    have hnodup := h.nodup id
    rw [listed_slot hs] at hnodup
    rw [Layout.ids_mk, List.nodup_cons]
    constructor
    · intro hm
      obtain ⟨l, hl, hm⟩ := Layout.mem_idsAll.1 hm
      obtain ⟨low, hlow⟩ := Ascends.through (hbelow l hl) (hupc l hl) hm
      -- A slot that was below itself would have two ascents of different lengths.
      have := congrArg List.length (hup.unique hlow)
      simp at this
      omega
    · clear hl hs
      rw [Layout.id_mk] at hup
      induction below with
      | nil => simp
      | cons l ls ihs =>
        rw [Layout.idsAll_cons, List.nodup_append]
        rw [List.map_cons, List.nodup_cons] at hnodup
        refine ⟨ih l (by simp) (hbelow l (by simp)) (hupc l (by simp)),
          ihs (fun l hl => ih l (by simp [hl])) (fun l hl => hbelow l (by simp [hl]))
            (fun l hl => hupc l (by simp [hl])) hnodup.2, ?_⟩
        rintro x hx y hy rfl
        obtain ⟨l', hl', hy⟩ := Layout.mem_idsAll.1 hy
        obtain ⟨low, hlow⟩ := Ascends.through (hbelow l (by simp)) (hupc l (by simp)) hx
        obtain ⟨low', hlow'⟩ :=
          Ascends.through (hbelow l' (by simp [hl'])) (hupc l' (by simp [hl'])) hy
        -- Both ascents end with a child and what is above it, so the children are the same.
        have he := hlow.unique hlow'
        have hsame := (List.append_inj' he rfl).2
        simp only [List.cons.injEq, and_true] at hsame
        exact hnodup.1 (hsame ▸ List.mem_map_of_mem hl')

/-- Every slot is the top of a layout, whose slots are those with the slot in their ascents. -/
theorem Linked.layout_at {t : Tree} (h : t.Linked) {id : NodeId} {s : Slot}
    (hs : t.slots[id]? = some s) :
    ∃ l, l.id = id ∧ t.Holds s.parent l ∧ l.ids.Nodup ∧
      ∀ x ∈ l.ids, ∃ up, t.Ascends x up ∧ id ∈ up := by
  obtain ⟨up, hup⟩ := h.ends id (lt_of_slot hs)
  obtain ⟨l, rfl, hl⟩ := h.layout_below hup hs
  refine ⟨l, rfl, hl, h.nodup_ids hl hup, fun x hx => ?_⟩
  obtain ⟨low, hlow⟩ := Ascends.through hl hup hx
  exact ⟨low ++ up, hlow, List.mem_append_right _ hup.head_mem⟩

/-- What is below a slot is the same in every arena that leaves it there, wherever the slot itself
hangs. -/
theorem Linked.below_same {t t' : Tree} (h : t.Linked) {id : NodeId} {s : Slot}
    {p : Option NodeId} (hs : t.slots[id]? = some s)
    (hs' : t'.slots[id]? = some { s with parent := p })
    (hrest : ∀ x up, t.Ascends x up → id ∈ up → x ≠ id → t'.slots[x]? = t.slots[x]?) :
    t'.descendants id = t.descendants id ∧ t'.term id = t.term id := by
  obtain ⟨l, rfl, hl, hn, hup⟩ := h.layout_at hs
  have hl' : t'.Holds p l := holds_reparent hl hn hs hs' fun x hx hne => by
    obtain ⟨up, hx, hmem⟩ := hup x hx
    exact hrest x up hx hmem hne
  rw [descendants_holds hl hn, descendants_holds hl' hn, term_holds hl hn, term_holds hl' hn]
  exact ⟨rfl, rfl⟩

/-- Every child hangs in its place below its parent. -/
theorem Linked.hangs_at {t : Tree} (h : t.Linked) {p c : NodeId} {index : Nat} {sp : Slot}
    (hsp : t.slots[p]? = some sp) (hc : sp.children[index]? = some c) :
    ∃ l up, l.id = c ∧
      t.Hangs (.under p sp (sp.children.take index) (sp.children.drop (index + 1)) up) l := by
  obtain ⟨hindex, rfl⟩ := List.getElem?_eq_some_iff.1 hc
  have hsplit : sp.children.take index ++ sp.children[index] :: sp.children.drop (index + 1) =
      sp.children := by
    rw [List.getElem_cons_drop, List.take_append_drop]
  have hlisted := listed_slot hsp
  have hnodup := hlisted ▸ h.nodup p
  rw [← hsplit, List.nodup_append] at hnodup
  have habove : t.above sp.children[index] = some p := by
    rw [h.agree, hlisted]
    exact List.getElem_mem hindex
  obtain ⟨up, hup⟩ := h.ends p (lt_of_slot hsp)
  have hupc := ascends_step habove hup
  obtain ⟨sc, hsc⟩ := slot_of_lt (lt_of_above habove)
  obtain ⟨l, hid, hl⟩ := h.layout_below hupc hsc
  rw [← above_slot hsc, habove] at hl
  rw [← hid] at hsplit hnodup hupc
  refine ⟨l, up, hid, hl, ⟨?_, hup, fun hm => hnodup.2.2 _ hm _ (by simp) rfl, fun x hx => ?_⟩,
    h.nodup_ids hl hupc, fun x hx hm => ?_⟩
  · rw [hsplit, hsp]
  · exact lt_of_above ((h.agree x p).2 (hlisted ▸ List.mem_of_mem_take hx))
  · -- A slot above the place that was also below it would occur twice in its own ascent.
    obtain ⟨low, hlow⟩ := Ascends.through hl hupc hm
    obtain ⟨rest, hrest⟩ := hlow.eq_cons
    have hn := hlow.nodup
    rw [hrest, List.nodup_cons] at hn
    refine hn.1 ?_
    have hx : x ∈ up := hx
    cases low with
    | nil =>
      rw [List.nil_append, List.cons.injEq] at hrest
      exact hrest.2 ▸ hx
    | cons y low =>
      rw [List.cons_append, List.cons.injEq] at hrest
      rw [← hrest.2]
      simp [hx]

/-- What is reachable from the root is laid out below it. -/
theorem WellFormed.layout {t : Tree} (h : t.WellFormed) :
    ∃ l, l.id = t.root ∧ t.Hangs .free l := by
  obtain ⟨s, hs, hp⟩ := h.root
  have hlinked := (wellFormed_iff_linked.1 h).1
  have hup : t.Ascends t.root [t.root] := .top hs hp
  obtain ⟨l, hid, hl⟩ := hlinked.layout_below hup hs
  rw [hp] at hl
  exact ⟨l, hid, hl, trivial, hlinked.nodup_ids hl (hid ▸ hup), by simp [Site.up]⟩

/-! ## Trees that layouts cover -/

/-- A slot of a layout in place: its children are in place below it, and it is the top or listed by
another slot of the layout. -/
theorem holds_member {t : Tree} {p : Option NodeId} {l : Layout} (h : t.Holds p l)
    (hn : l.ids.Nodup) {x : NodeId} (hx : x ∈ l.ids) :
    ∃ node alias_ below q,
      t.slots[x]? = some { node, parent := q, children := below.map Layout.id, alias_ } ∧
      (∀ c ∈ below, t.Holds (some x) c) ∧ (Layout.idsAll below).Nodup ∧
      ((x = l.id ∧ q = p) ∨ ∃ y s, q = some y ∧ t.slots[y]? = some s ∧ x ∈ s.children) := by
  induction l using Layout.induct generalizing p with
  | mk id node alias_ below ih =>
    obtain ⟨hs, hbelow⟩ := holds_mk.1 h
    simp only [Layout.ids_mk, List.nodup_cons, List.mem_cons] at hn hx
    rcases hx with rfl | hx
    · exact ⟨node, alias_, below, p, hs, hbelow, hn.2, .inl ⟨rfl, rfl⟩⟩
    · obtain ⟨c, hc, hx⟩ := Layout.mem_idsAll.1 hx
      obtain ⟨node', alias', below', q, hs', hbelow', hn', hq⟩ :=
        ih c hc (hbelow c hc) (Layout.nodup_ids_of_mem hn.2 hc) hx
      refine ⟨node', alias', below', q, hs', hbelow', hn', .inr ?_⟩
      rcases hq with ⟨rfl, rfl⟩ | hq
      · exact ⟨id, _, rfl, hs, List.mem_map_of_mem hc⟩
      · exact hq

theorem nodup_tops {ls : List Layout} (h : (Layout.idsAll ls).Nodup) :
    (ls.map Layout.id).Nodup := by
  induction ls with
  | nil => simp
  | cons l ls ih =>
    rw [Layout.idsAll_cons, List.nodup_append] at h
    rw [List.map_cons, List.nodup_cons]
    refine ⟨fun hm => ?_, ih h.2.1⟩
    obtain ⟨l', hl', he⟩ := List.mem_map.1 hm
    exact h.2.2 _ l.id_mem_ids _ (he ▸ Layout.id_mem_idsAll hl') rfl

/-- A tree is well-formed if every slot is part of a layout that hangs nowhere. -/
theorem wellFormed_of_layouts {t : Tree} (hroot : ∃ s, t.slots[t.root]? = some s ∧ s.parent = none)
    (h : ∀ x, x < t.slots.size → ∃ l, t.Hangs .free l ∧ x ∈ l.ids) : t.WellFormed where
  root := hroot
  child hs c hc := by
    obtain ⟨l, hl, hx⟩ := h _ (lt_of_slot hs)
    obtain ⟨node, alias_, below, q, hs', hbelow, -, -⟩ := holds_member hl.holds hl.nodup hx
    rw [hs] at hs'
    cases hs'
    obtain ⟨lc, hlc, rfl⟩ := List.mem_map.1 hc
    obtain ⟨sc, hsc, -, hp⟩ := holds_top (hbelow lc hlc)
    exact ⟨sc, hsc, hp⟩
  parent hs hp := by
    obtain ⟨l, hl, hx⟩ := h _ (lt_of_slot hs)
    obtain ⟨node, alias_, below, q, hs', -, -, hq⟩ := holds_member hl.holds hl.nodup hx
    rw [hs] at hs'
    cases hs'
    simp only at hp
    subst hp
    rcases hq with ⟨-, hq⟩ | ⟨y, sy, hq, hsy, hmem⟩
    · cases hq
    · cases hq
      exact ⟨sy, hsy, hmem⟩
  nodup hs := by
    obtain ⟨l, hl, hx⟩ := h _ (lt_of_slot hs)
    obtain ⟨node, alias_, below, q, hs', -, hn, -⟩ := holds_member hl.holds hl.nodup hx
    rw [hs] at hs'
    cases hs'
    exact nodup_tops hn
  acyclic x hx := by
    obtain ⟨l, hl, hx⟩ := h x hx
    obtain ⟨low, hlow⟩ := Ascends.through hl.holds hl.ascends hx
    exact ⟨_, hlow⟩

end Tree
end PolyglotSql
