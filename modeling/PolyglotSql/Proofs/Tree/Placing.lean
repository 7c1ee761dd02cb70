import PolyglotSql.Proofs.Tree.Operations

/-!
# PolyglotSql.Proofs.Tree.Placing

Where the nodes of a term are put. Building a term into a tree takes the next free slots, one for
each node of the term, in the order in which a depth-first walk over the term meets them
(`Term.nodes`), and leaves all that was there (`buildInto_slots`).
-/

namespace PolyglotSql

open PolyglotSql.Tree

namespace Term

mutual

/-- The nodes of a term with their aliases, each before those below it. -/
def nodes : Term → List (Node × Option String)
  | .mk node alias_ children => (node, alias_) :: nodesAll children

def nodesAll : List Term → List (Node × Option String)
  | [] => []
  | t :: ts => t.nodes ++ nodesAll ts

end

end Term

namespace Tree

/-- The node of a slot with its alias; none where there is no slot. -/
def placed (t : Tree) (id : NodeId) : Option (Node × Option String) :=
  t.slots[id]?.map fun s => (s.node, s.alias_)

theorem holds_placed {t : Tree} {p : Option NodeId} {l : Layout} (h : t.Holds p l) :
    l.ids.map t.placed = l.term.nodes.map some := by
  induction l using Layout.induct generalizing p with
  | mk id node alias_ below ih =>
    obtain ⟨hs, hbelow⟩ := holds_mk.1 h
    have hall : (Layout.idsAll below).map t.placed =
        (Term.nodesAll (below.map Layout.term)).map some := by
      clear h hs
      induction below with
      | nil =>
        rw [Layout.idsAll_nil, List.map_nil, List.map_nil, Term.nodesAll, List.map_nil]
      | cons l below ihs =>
        rw [List.forall_mem_cons] at ih hbelow
        rw [Layout.idsAll_cons, List.map_append, ih.1 hbelow.1, ihs ih.2 hbelow.2, List.map_cons,
          Term.nodesAll, List.map_append]
    have htop : t.placed id = some (node, alias_) := by
      rw [placed, hs, Option.map_some]
    rw [Layout.ids_mk, Layout.term_mk, Term.nodes, List.map_cons, List.map_cons, htop, hall]

/-- A layout in fresh slots takes one for each node of its term, the top the first. -/
theorem ids_added {t t' : Tree} {p : Option NodeId} {l : Layout} (h : t'.Holds p l)
    (hadded : Term.Added t t' l.ids) (hgrows : t.size ≤ t'.size) :
    l.ids = List.range' t.size l.term.nodes.length ∧ l.id = t.size ∧
      t'.size = t.size + l.term.nodes.length := by
  have hlength : l.ids.length = l.term.nodes.length := by
    simpa using congrArg List.length (holds_placed h)
  have hcount := congrArg List.length hadded
  rw [hlength, List.length_range'] at hcount
  have hids : l.ids = List.range' t.size l.term.nodes.length := by
    rw [hcount]
    exact hadded
  refine ⟨hids, ?_, ?_⟩
  · have hpos := List.length_pos_of_mem l.id_mem_ids
    have hfirst := l.getElem?_ids_zero
    rw [hids, List.getElem?_range' (hlength ▸ hpos)] at hfirst
    simpa using hfirst.symm
  · unfold size at hgrows ⊢
    omega

theorem placed_range {t : Tree} {p : Option NodeId} {l : Layout} {start : NodeId} (h : t.Holds p l)
    (hids : l.ids = List.range' start l.term.nodes.length)
    (hsize : t.size = start + l.term.nodes.length) (k : Nat) :
    t.placed (start + k) = l.term.nodes[k]? := by
  have hk := congrArg (·[k]?) (holds_placed h)
  rw [hids] at hk
  by_cases hlt : k < l.term.nodes.length
  · simpa [List.getElem?_range', hlt] using hk
  · rw [Nat.not_lt] at hlt
    have hnone : t.slots[start + k]? = none := Array.getElem?_eq_none (by
      rw [← size, hsize]
      exact Nat.add_le_add_left hlt _)
    rw [placed, hnone, List.getElem?_eq_none hlt, Option.map_none]

theorem WellFormed.of_kept {t t' : Tree} (h : t.WellFormed) (hlinked : t'.Linked)
    (hroot : t'.root = t.root) (hkept : t'.slots[t.root]? = t.slots[t.root]?) : t'.WellFormed := by
  obtain ⟨s, hs, hfree⟩ := h.root
  refine wellFormed_iff_linked.2 ⟨hlinked, ?_, ?_⟩
  · rw [hroot]
    exact lt_of_slot (hkept.trans hs)
  · rw [hroot, above_slot (hkept.trans hs), hfree]

end Tree

namespace Term

theorem keeps_buildInto (term : Term) : Keeps Linked term.buildInto := by
  induction term using Term.induct with
  | mk node alias_ children ih =>
    rw [buildInto]
    refine (Edit.keeps_add node).bind fun id => (Edit.keeps_setAlias id alias_).bind fun _ => ?_
    rw [buildChildren_eq]
    refine (Keeps.forM fun child hchild => ?_).map
    exact (ih child hchild).bind fun childId => Edit.keeps_appendChild id childId

/-- Building a term into a well-formed tree ends. It adds a slot for each node of the term, in
depth-first order, with that node and its alias; the first of them has no parent, and below it
stands the term. No slot that was there changes, nor does the root, and the tree stays well-formed.
So a term's own tree is well-formed, and at its root stands the term. -/
theorem buildInto_slots {t : Tree} (h : t.WellFormed) (term : Term) :
    (∃ t', Yields term.buildInto t t.size t' ∧ t'.size = t.size + term.nodes.length ∧
      (∀ k, t'.placed (t.size + k) = term.nodes[k]?) ∧
      t'.descendants t.size = .ok (List.range' t.size term.nodes.length) ∧
      t'.parent t.size = .ok none ∧ t'.term t.size = .ok term ∧
      (∀ x, x < t.size → t'.slots[x]? = t.slots[x]?) ∧ t'.root = t.root ∧ t'.WellFormed) ∧
    term.build.WellFormed ∧ term.build.term term.build.root = .ok term := by
  refine ⟨?_, build_wellFormed term, build_term term⟩
  obtain ⟨t', l, hy, hl, rfl, hf, hadded, hroot⟩ := buildInto_lays term t
  obtain ⟨hids, htop, hsize⟩ := ids_added hl.holds hadded hf.grows
  obtain ⟨s, hs, -, hfree⟩ := holds_top hl.holds
  have hkept : ∀ x, x < t.size → t'.slots[x]? = t.slots[x]? := fun x hx => hf.same x hx (by simp)
  have hlinked := hy.left (keeps_buildInto _ t (wellFormed_iff_linked.1 h).1)
  obtain ⟨sr, hsr, -⟩ := h.root
  refine ⟨t', htop ▸ hy, hsize, placed_range hl.holds hids hsize, ?_, ?_, ?_, hkept, hroot,
    h.of_kept hlinked hroot (hkept _ (lt_of_slot hsr))⟩
  · rw [← htop, descendants_ids hl, hids, htop]
  · rw [parent, ← htop, slot_ok hs, Except.map, hfree, Site.parent]
  · rw [← htop, term_layout hl]

/-- `LOWER(b) AS y + c`. -/
def aliasedSum : Term :=
  .of (.operation "+") [(Term.of (.call "LOWER") [.leaf (.column ⟨none, "b", none⟩)]).withAlias "y",
    .leaf (.column ⟨none, "c", none⟩)]

theorem buildInto_slots_aliasedSum : aliasedCall.WellFormed ∧
    ∃ t', Yields aliasedSum.buildInto aliasedCall 8 t' ∧ t'.size = 12 ∧
      t'.placed 9 = some (.call "LOWER", some "y") ∧ t'.descendants 8 = .ok [8, 9, 10, 11] ∧
      t'.term 8 = .ok aliasedSum ∧ t'.slots[2]? = aliasedCall.slots[2]? ∧ t'.root = 1 := by
  have h : aliasedCall.WellFormed := Term.build_wellFormed _
  have hsize : aliasedCall.size = 8 := by decide +kernel
  obtain ⟨⟨t', hy, hsize', hplaced, hbelow, -, hterm, hkept, hroot, -⟩, -⟩ :=
    buildInto_slots h aliasedSum
  rw [hsize] at hy hsize' hbelow hterm
  refine ⟨h, t', hy, hsize', ?_, hbelow, hterm, hkept 2 (by rw [hsize]; decide), ?_⟩
  · have hcall := hplaced 1
    rwa [hsize] at hcall
  · rw [hroot]
    decide +kernel

end Term
end PolyglotSql
