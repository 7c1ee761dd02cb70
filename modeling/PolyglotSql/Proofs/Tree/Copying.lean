import PolyglotSql.Proofs.Tree.Building

/-!
# PolyglotSql.Proofs.Tree.Copying

Copies of subtrees. A copy takes fresh slots, holds the same term as the original and leaves the
slots that were there as they are (`copySubtree_lays`). So a copy that is asked for a node of an
arena whose links agree is made: the bound on its depth, the size of the arena, is never reached.

The fresh slots are taken in the order in which a depth-first walk meets the originals, so the copy
is the layout of the original under other slots (`Layout.rename`), and each of its slots is known
(`copySubtree_slots`).
-/

namespace PolyglotSql

/-! ## Layouts under other slots -/

namespace Layout

mutual

/-- The same shape with every slot replaced by the one that `f` gives. -/
def rename (f : NodeId → NodeId) : Layout → Layout
  | .mk id node alias_ below => .mk (f id) node alias_ (renameAll f below)

def renameAll (f : NodeId → NodeId) : List Layout → List Layout
  | [] => []
  | l :: ls => l.rename f :: renameAll f ls

end

variable {f : NodeId → NodeId}

@[simp] theorem renameAll_eq (ls : List Layout) : renameAll f ls = ls.map (rename f) := by
  induction ls with
  | nil => rw [renameAll]; rfl
  | cons l ls ih => rw [renameAll, ih]; rfl

@[simp] theorem rename_mk (id : NodeId) (node : Node) (alias_ : Option String)
    (below : List Layout) :
    rename f (mk id node alias_ below) = .mk (f id) node alias_ (below.map (rename f)) := by
  rw [rename, renameAll_eq]

@[simp] theorem id_rename (l : Layout) : (l.rename f).id = f l.id := by
  cases l
  simp

/-- Layouts of one term have as many slots. -/
theorem length_ids_of_term {l l' : Layout} (h : l'.term = l.term) :
    l'.ids.length = l.ids.length := by
  induction l using Layout.induct generalizing l' with
  | mk id node alias_ below ih =>
    obtain ⟨id', node', alias', below'⟩ := l'
    simp only [term_mk, Term.mk.injEq] at h
    rw [ids_mk, ids_mk, List.length_cons, List.length_cons, Nat.add_right_cancel_iff]
    replace h := h.2.2
    induction below generalizing below' with
    | nil => simp [List.map_eq_nil_iff.1 h]
    | cons l ls ihs =>
      obtain ⟨l', ls', rfl, hl, hls⟩ := List.map_eq_cons_iff.1 h
      have hhead := ih l (by simp) hl
      have htail := ihs (fun l hl => ih l (by simp [hl])) ls' hls
      simp [hhead, htail]

/-- A layout is known by its term and its slots. -/
theorem eq_rename {l l' : Layout} (h : l'.term = l.term) (hids : l'.ids = l.ids.map f) :
    l' = l.rename f := by
  induction l using Layout.induct generalizing l' with
  | mk id node alias_ below ih =>
    obtain ⟨id', node', alias', below'⟩ := l'
    simp only [term_mk, Term.mk.injEq] at h
    simp only [ids_mk, List.map_cons, List.cons.injEq] at hids
    obtain ⟨rfl, rfl, hbelow⟩ := h
    obtain ⟨rfl, hids⟩ := hids
    rw [rename_mk]
    congr 1
    induction below generalizing below' with
    | nil => simp [List.map_eq_nil_iff.1 hbelow]
    | cons l ls ihs =>
      obtain ⟨l', ls', rfl, hl, hls⟩ := List.map_eq_cons_iff.1 hbelow
      simp only [idsAll_cons, List.map_append] at hids
      obtain ⟨hhead, htail⟩ := List.append_inj hids (by simp [length_ids_of_term hl])
      rw [List.map_cons, ← ih l (by simp) hl hhead,
        ← ihs (fun l hl => ih l (by simp [hl])) ls' hls htail]

end Layout

namespace Tree

open Term

variable {t t' : Tree}

/-- What the slots hold of a layout that is in place under other slots. -/
theorem holds_rename {f : NodeId → NodeId} {p p' : Option NodeId} {l : Layout}
    (h : t.Holds p l) (h' : t'.Holds p' (l.rename f)) (hn : l.ids.Nodup) {x : NodeId} {s : Slot}
    (hx : x ∈ l.ids) (hs : t.slots[x]? = some s) :
    t'.slots[f x]? = some { s with
      parent := if x = l.id then p' else s.parent.map f
      children := s.children.map f } := by
  induction l using Layout.induct generalizing p p' with
  | mk id node alias_ below ih =>
    obtain ⟨hid, hbelow⟩ := holds_mk.1 h
    rw [Layout.rename_mk, holds_mk] at h'
    obtain ⟨hid', hbelow'⟩ := h'
    simp only [Layout.ids_mk, List.nodup_cons, List.mem_cons] at hn hx
    rcases hx with rfl | hx
    · obtain rfl := Option.some.inj (hs.symm.trans hid)
      rw [hid', Layout.id_mk, if_pos rfl]
      simp [Function.comp_def]
    · have hne : x ≠ id := fun he => hn.1 (he ▸ hx)
      obtain ⟨c, hc, hx⟩ := Layout.mem_idsAll.1 hx
      rw [ih c hc (hbelow c hc) (hbelow' _ (List.mem_map_of_mem hc))
        (Layout.nodup_ids_of_mem hn.2 hc) hx, Layout.id_mk, if_neg hne]
      split
      · rename_i he
        subst he
        obtain ⟨sc, hsc, -, hp⟩ := holds_top (hbelow c hc)
        obtain rfl := Option.some.inj (hs.symm.trans hsc)
        rw [hp, Option.map_some]
      · rfl

/-! ## Copies -/

theorem copyBelow_lays {p : Option NodeId} {l : Layout} {depth : Nat}
    (h : t.Holds p l) (hdepth : l.ids.length ≤ depth) :
    Lays (Edit.copyBelow depth l.id) t l.term := by
  induction l using Layout.induct generalizing t p depth with
  | mk id node alias_ below ih =>
    obtain ⟨hs, hbelow⟩ := holds_mk.1 h
    cases depth with
    | zero => simp at hdepth
    | succ depth =>
      simp only [Layout.ids_mk, List.length_cons, Nat.add_le_add_iff_right] at hdepth
      -- each level of the layout takes one slot off the bound
      have hlays : ∀ l ∈ below, ∀ t', t.Frame [] t' →
          Lays (Edit.copyBelow depth l.id) t' l.term := by
        intro l hl t' hf
        have hle := Layout.length_ids_le hl
        exact ih l hl (hf.holds (hbelow l hl) (by simp)) (by omega)
      obtain ⟨t', l', hy, hrest⟩ := lay_node node alias_ hlays
      have hread : Yields (Edit.read (·.slot id)) t _ t := Edit.yields_read (slot_ok hs)
      refine ⟨t', l', hread.bind ?_, by simpa using hrest⟩
      simpa only [List.forM_eq_forM, List.forM_map] using hy

theorem copySubtree_layout {p : Option NodeId} {l : Layout} (h : t.Holds p l) (hn : l.ids.Nodup) :
    Lays (Edit.copySubtree l.id) t l.term := by
  obtain ⟨t', l', hy, hrest⟩ := copyBelow_lays h (Nat.le_succ_of_le (holds_length_le h hn))
  exact ⟨t', l', (yields_get t).bind hy, hrest⟩

theorem copySubtree_lays (h : t.Linked) {id : NodeId} (hid : id < t.slots.size) :
    ∃ term, t.term id = .ok term ∧ Lays (Edit.copySubtree id) t term := by
  obtain ⟨s, hs⟩ := slot_of_lt hid
  obtain ⟨l, rfl, hl, hn, -⟩ := h.layout_at hs
  exact ⟨l.term, term_holds hl hn, copySubtree_layout hl hn⟩

/-- The place of a slot among others that are numbered on from `start`. -/
def numbered (start : NodeId) (ids : List NodeId) (x : NodeId) : NodeId :=
  start + ids.idxOf x

theorem map_numbered {ids : List NodeId} (hn : ids.Nodup) (start : NodeId) :
    ids.map (numbered start ids) = List.range' start ids.length := by
  refine List.ext_getElem (by simp) fun k hk _ => ?_
  have hk' : k < ids.length := by simpa using hk
  simp [numbered, hn.idxOf_getElem k hk']

/-- Copying a subtree of a well-formed tree ends. It adds a slot for each node of the subtree, in
depth-first order, with the same node and alias and with the links between the copies that there are
between the originals; the first of them is the copy and has no parent. No slot that was there
changes, nor does the root. -/
theorem copySubtree_slots {id : NodeId} (h : t.WellFormed) (hid : id < t.size) :
    ∃ t' ids, t.descendants id = .ok ids ∧ Yields (Edit.copySubtree id) t t.size t' ∧
      t'.parent t.size = .ok none ∧
      (∃ term, t.term id = .ok term ∧ t'.term t.size = .ok term) ∧
      t'.size = t.size + ids.length ∧
      t'.descendants t.size = .ok (List.range' t.size ids.length) ∧
      (∀ k x s, ids[k]? = some x → t.slots[x]? = some s →
        t'.slots[t.size + k]? = some { s with
          parent := if k = 0 then none else s.parent.map (numbered t.size ids)
          children := s.children.map (numbered t.size ids) }) ∧
      (∀ x, x < t.size → t'.slots[x]? = t.slots[x]?) ∧ t'.root = t.root := by
  obtain ⟨s, hs⟩ := slot_of_lt hid
  obtain ⟨l, rfl, hl, hn, -⟩ := (wellFormed_iff_linked.1 h).1.layout_at hs
  obtain ⟨t', l', hy, hl', hterm, hf, hadded, hroot⟩ := copySubtree_layout hl hn
  have hsize : t'.size = t.size + l.ids.length := by
    have hlen := congrArg List.length hadded
    rw [Layout.length_ids_of_term hterm, List.length_range'] at hlen
    have hgrows := hf.grows
    unfold size
    omega
  have hids : l'.ids = l.ids.map (numbered t.size l.ids) := by
    rw [map_numbered hn, hadded]
    unfold size at hsize
    rw [hsize, Nat.add_sub_cancel_left]
    rfl
  have hrename := Layout.eq_rename hterm hids
  have htop : l'.id = t.size := by
    rw [hrename, Layout.id_rename]
    cases l
    simp [numbered]
  obtain ⟨s', hs', -, hfree⟩ := holds_top hl'.holds
  refine ⟨t', l.ids, descendants_holds hl hn, htop ▸ hy, ?_, ⟨l.term, term_holds hl hn, ?_⟩, hsize,
    ?_, fun k x sx hk hx => ?_, fun x hx => hf.same x hx (by simp), hroot⟩
  · rw [parent, ← htop, slot_ok hs', Except.map, hfree, Site.parent]
  · rw [← htop, term_layout hl', hterm]
  · rw [← htop, descendants_ids hl', hids, map_numbered hn, htop]
  · obtain ⟨hlt, rfl⟩ := List.getElem?_eq_some_iff.1 hk
    have hcopy := holds_rename hl (hrename ▸ hl'.holds) hn (List.getElem_mem hlt) hx
    have hfirst : l.ids[k] = l.id ↔ k = 0 := by
      obtain ⟨hpos, hhead⟩ := List.getElem?_eq_some_iff.1 l.getElem?_ids_zero
      rw [← hhead, List.getElem_inj hn]
    simp only [hfirst] at hcopy
    rwa [numbered, hn.idxOf_getElem k hlt] at hcopy

/-- `SELECT UPPER(a) AS x, b FROM t` with its result at 2, below it the call at 3 with its argument
at 4, and the second column at 5. -/
def aliasedCall : Tree :=
  (Term.of .select
    [.of .result [(Term.call "UPPER" [.leaf (.column ⟨none, "a", none⟩)]).withAlias "x",
      .leaf (.column ⟨none, "b", none⟩)],
    .of .fromClause [.leaf (.table "t" none none)]]).build

theorem copySubtree_slots_aliasedCall :
    aliasedCall.WellFormed ∧ aliasedCall.size = 8 ∧
      ∃ t', Yields (Edit.copySubtree 2) aliasedCall 8 t' ∧ t'.size = 12 ∧
        t'.slots[9]? = some ⟨.call "UPPER", some 8, [10], some "x"⟩ ∧
        t'.slots[3]? = some ⟨.call "UPPER", some 2, [4], some "x"⟩ := by
  have h : aliasedCall.WellFormed := Term.build_wellFormed _
  have hsize : aliasedCall.size = 8 := by decide +kernel
  obtain ⟨t', ids, hids, hy, -, -, hsize', -, hcopies, hkept, -⟩ :=
    copySubtree_slots h (show 2 < aliasedCall.size by rw [hsize]; decide)
  have hlisted : aliasedCall.descendants 2 = .ok [2, 3, 4, 5] := by decide +kernel
  obtain rfl := Except.ok.inj (hlisted.symm.trans hids)
  have hcall : aliasedCall.slots[3]? = some ⟨.call "UPPER", some 2, [4], some "x"⟩ := by
    decide +kernel
  refine ⟨h, hsize, t', hsize ▸ hy, by simp [hsize', hsize], ?_, ?_⟩
  · have hcopy := hcopies 1 3 _ rfl hcall
    rw [hsize] at hcopy
    exact hcopy
  · rw [hkept 3 (by rw [hsize]; decide), hcall]

end Tree
end PolyglotSql
