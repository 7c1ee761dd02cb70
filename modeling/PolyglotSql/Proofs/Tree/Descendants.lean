import PolyglotSql.Proofs.Tree.Operations
import PolyglotSql.Proofs.Tree.WellFormed

/-!
# PolyglotSql.Proofs.Tree.Descendants

The nodes below a node, found in three ways: by a loop over a stack (`Pops`), by recursion over the
lists of children (`Preorder`), and by following parents upwards from every slot. Over a layout in
place the first two list its slots in order (`pops_layouts`, `preorder_layout`), and where links
agree the third finds the same slots (`Linked.mem_ids`). So in a well-formed tree all three agree
(`descendants_preorder`).
-/

namespace PolyglotSql
namespace Tree

variable {t : Tree} {p : Option NodeId} {l : Layout} {ls : List Layout} {ids ids' : List NodeId}

/-! ## The loop over a stack -/

/-- Begun with the stack, its top last, a loop ends and has listed the nodes. It pops a node, lists
it and pushes its children, the last one first. -/
inductive Pops (t : Tree) : List NodeId → List NodeId → Prop where
  | done : Pops t [] []
  | next {stack ids : List NodeId} {id : NodeId} {s : Slot} : t.slots[id]? = some s →
      Pops t (stack ++ s.children.reverse) ids → Pops t (stack ++ [id]) (id :: ids)

theorem pops_of_popAll {steps : Nat} {stack : List NodeId} (h : t.popAll steps stack = .ok ids) :
    t.Pops stack.reverse ids := by
  induction steps generalizing stack ids with
  | zero =>
    cases stack with
    | nil =>
      rw [popAll] at h
      cases h
      exact .done
    | cons id stack => cases h
  | succ steps ih =>
    cases stack with
    | nil =>
      rw [popAll] at h
      cases h
      exact .done
    | cons id stack =>
      cases hs : t.slots[id]? with
      | none => simp [popAll, slot, hs] at h
      | some s =>
        simp only [popAll, slot_ok hs] at h
        cases hrest : t.popAll steps (s.children ++ stack) with
        | error defect => simp [hrest] at h
        | ok rest =>
          simp only [hrest, Except.ok.injEq] at h
          subst h
          have hpops := ih hrest
          rw [List.reverse_append] at hpops
          rw [List.reverse_cons]
          exact .next hs hpops

/-- The loop takes one step for each node that it lists. -/
theorem Pops.popAll {stack : List NodeId} (h : t.Pops stack ids) {steps : Nat}
    (hsteps : ids.length ≤ steps) : t.popAll steps stack.reverse = .ok ids := by
  induction h generalizing steps with
  | done =>
    rw [List.reverse_nil, Tree.popAll]
  | next hs _ ih =>
    cases steps with
    | zero => simp at hsteps
    | succ steps =>
      have hrest := ih (Nat.le_of_succ_le_succ hsteps)
      rw [List.reverse_append, List.reverse_reverse] at hrest
      simp [Tree.popAll, slot_ok hs, hrest]

theorem pops_layouts (h : ∀ l ∈ ls, ∃ p, t.Holds p l) :
    t.Pops (ls.map Layout.id).reverse ids ↔ ids = Layout.idsAll ls := by
  -- as many steps as either listing needs
  have hall := popAll_ids ls (max ids.length (Layout.idsAll ls).length) h (Nat.le_max_right _ _)
  constructor
  · intro hpops
    have hsame := hpops.popAll (Nat.le_max_left ids.length (Layout.idsAll ls).length)
    rw [List.reverse_reverse, hall] at hsame
    exact (Except.ok.inj hsame).symm
  · rintro rfl
    exact pops_of_popAll hall

/-! ## Recursion over lists of children -/

mutual

/-- Recursion lists a node first, and then what it lists for the children. -/
inductive Preorder (t : Tree) : NodeId → List NodeId → Prop where
  | node {id : NodeId} {s : Slot} {ids : List NodeId} : t.slots[id]? = some s →
      PreorderAll t s.children ids → Preorder t id (id :: ids)

inductive PreorderAll (t : Tree) : List NodeId → List NodeId → Prop where
  | nil : PreorderAll t [] []
  | cons {c : NodeId} {cs ids ids' : List NodeId} : Preorder t c ids → PreorderAll t cs ids' →
      PreorderAll t (c :: cs) (ids ++ ids')

end

theorem preorderAll_layouts (h : ∀ l ∈ ls, ∀ ids, t.Preorder l.id ids ↔ ids = l.ids) :
    t.PreorderAll (ls.map Layout.id) ids ↔ ids = Layout.idsAll ls := by
  induction ls generalizing ids with
  | nil =>
    constructor
    · rintro ⟨⟩
      rfl
    · rintro rfl
      exact .nil
  | cons l ls ih =>
    rw [List.forall_mem_cons] at h
    rw [List.map_cons, Layout.idsAll_cons]
    constructor
    · rintro (_ | ⟨hl, hls⟩)
      rw [(h.1 _).1 hl, (ih h.2).1 hls]
    · rintro rfl
      exact .cons ((h.1 _).2 rfl) ((ih h.2).2 rfl)

theorem preorder_layout (h : t.Holds p l) : t.Preorder l.id ids ↔ ids = l.ids := by
  induction l using Layout.induct generalizing p ids with
  | mk id node alias_ below ih =>
    obtain ⟨hs, hbelow⟩ := holds_mk.1 h
    have hall {ids : List NodeId} :
        t.PreorderAll (below.map Layout.id) ids ↔ ids = Layout.idsAll below :=
      preorderAll_layouts fun l hl ids => ih l hl (hbelow l hl)
    rw [Layout.id_mk, Layout.ids_mk]
    constructor
    · rintro ⟨hs', hids⟩
      rw [hs] at hs'
      cases hs'
      rw [hall.1 hids]
    · rintro rfl
      exact .node hs (hall.2 rfl)

/-! ## Ascents -/

theorem holds_listed (h : t.Holds p l) {x c : NodeId} (hx : x ∈ l.ids) (hc : c ∈ t.listed x) :
    c ∈ l.ids := by
  induction l using Layout.induct generalizing p with
  | mk id node alias_ below ih =>
    obtain ⟨hs, hbelow⟩ := holds_mk.1 h
    rw [Layout.ids_mk, List.mem_cons] at hx
    rw [Layout.ids_mk, List.mem_cons]
    right
    rcases hx with rfl | hx
    · rw [listed_slot hs] at hc
      exact Layout.tops_subset below hc
    · obtain ⟨l, hl, hx⟩ := Layout.mem_idsAll.1 hx
      exact Layout.mem_idsAll.2 ⟨l, hl, ih l hl (hbelow l hl) hx⟩

/-- A slot whose ascent passes through the top of a layout is in the layout. -/
theorem Linked.mem_ids (h : t.Linked) (hl : t.Holds p l) {x : NodeId} {up : List NodeId}
    (hup : t.Ascends x up) (hmem : l.id ∈ up) : x ∈ l.ids := by
  induction hup with
  | top =>
    obtain rfl := List.mem_singleton.1 hmem
    exact l.id_mem_ids
  | @step x above s up hs hp _ ih =>
    rcases List.mem_cons.1 hmem with rfl | hmem
    · exact l.id_mem_ids
    · have hlisted : x ∈ t.listed above := (h.agree x above).1 ((above_slot hs).trans hp)
      exact holds_listed hl (ih hmem) hlisted

/-- In a well-formed tree the loop over a stack that lists the nodes below a node ends. It lists
what recursion over the lists of children lists: the node itself first, and each node once from
which following parents leads to the node. Of a node that the tree does not have nothing is
listed. -/
theorem descendants_preorder (h : t.WellFormed) (id : NodeId) :
    (id < t.size → ∃ ids, t.descendants id = .ok ids ∧ (∀ ids', t.Pops [id] ids' ↔ ids' = ids) ∧
      (∀ ids', t.Preorder id ids' ↔ ids' = ids) ∧ ids.head? = some id ∧ ids.Nodup ∧
      ∀ x, x ∈ ids ↔ ∃ up, t.Ascends x up ∧ id ∈ up) ∧
    (t.size ≤ id → t.descendants id = .error (.foreignNode id)) := by
  have hlinked := (wellFormed_iff_linked.1 h).1
  refine ⟨fun hid => ?_, fun hid => ?_⟩
  · obtain ⟨s, hs⟩ := slot_of_lt hid
    obtain ⟨l, rfl, hl, hn, hup⟩ := hlinked.layout_at hs
    have hpops {ids : List NodeId} : t.Pops [l.id] ids ↔ ids = l.ids := by
      have hone : t.Pops ([l].map Layout.id).reverse ids ↔ ids = Layout.idsAll [l] :=
        pops_layouts (by simpa using ⟨_, hl⟩)
      simpa using hone
    refine ⟨l.ids, descendants_holds hl hn, fun _ => hpops, fun _ => preorder_layout hl, ?_, hn,
      fun x => ⟨hup x, ?_⟩⟩
    · rw [List.head?_eq_getElem?, l.getElem?_ids_zero]
    · rintro ⟨up, hx, hmem⟩
      exact hlinked.mem_ids hl hx hmem
  · have hnone : t.slots[id]? = none := Array.getElem?_eq_none hid
    simp [descendants, Tree.popAll, slot, hnone]

/-- A group at 0 over another at 2 and a leaf at 1. Below the group at 2 hang the leaves at 4 and 3,
and 5 hangs nowhere. -/
def shuffled : Tree :=
  Operation.run [.add .distinct, .add .group, .add .empty, .add .distinct, .add .not,
    .appendChild 0 1, .insertChild 0 0 2, .appendChild 2 3, .insertChild 2 0 4] (Tree.new .group)

theorem descendants_preorder_shuffled : shuffled.WellFormed ∧ 2 < shuffled.size ∧
    shuffled.descendants 2 = .ok [2, 4, 3] ∧ shuffled.Pops [2] [2, 4, 3] ∧
    shuffled.Preorder 2 [2, 4, 3] ∧ ¬∃ up, shuffled.Ascends 1 up ∧ 2 ∈ up := by
  have h : shuffled.WellFormed :=
    wellFormed_iff_linked.2 ⟨Operation.run_linked _ (Tree.linked_new .group), by decide, by rfl⟩
  have hlt : 2 < shuffled.size := by decide
  obtain ⟨ids, hids, hpops, hpreorder, -, -, hmem⟩ := (descendants_preorder h 2).1 hlt
  have hlisted : shuffled.descendants 2 = .ok [2, 4, 3] := by rfl
  obtain rfl := Except.ok.inj (hlisted.symm.trans hids)
  refine ⟨h, hlt, hlisted, (hpops _).2 rfl, (hpreorder _).2 rfl, fun hup => ?_⟩
  exact absurd ((hmem 1).2 hup) (by decide)

end Tree
end PolyglotSql
