import PolyglotSql.Proofs.Tree.Layout

/-!
# PolyglotSql.Proofs.Tree.Reading

Reading layouts back: the nodes below a slot are the slots of its layout in order
(`descendants_ids`), and the term below it is the layout's term (`term_layout`). Both hold because a
layout without repeated slots is no larger than the arena.
-/

namespace PolyglotSql

namespace Node

theorem kind_empty {node : Node} (h : node.kind = .empty) : node = .empty := by
  cases node with
  | empty => rfl
  | boolean op => cases op <;> cases h
  | _ => cases h

theorem kind_select {node : Node} (h : node.kind = .select) : node = .select := by
  cases node with
  | select => rfl
  | boolean op => cases op <;> cases h
  | _ => cases h

end Node

/-- A filter whose test never fails. -/
theorem filterM_ok {ε α β : Type} {f : β → Except ε Bool} {g : α → Bool} {k : α → β} {xs : List α}
    (h : ∀ x ∈ xs, f (k x) = .ok (g x)) : (xs.map k).filterM f = .ok ((xs.filter g).map k) := by
  have haux : ∀ acc, (xs.map k).filterAuxM f acc = .ok (((xs.filter g).map k).reverse ++ acc) := by
    induction xs with
    | nil => intro acc; rfl
    | cons x xs ih =>
      intro acc
      have hx := h x (by simp)
      rw [List.map_cons, List.filterAuxM, hx]
      show (xs.map k).filterAuxM f (cond (g x) (k x :: acc) acc) = _
      rw [ih fun y hy => h y (by simp [hy])]
      cases hg : g x <;> simp [hg]
  rw [List.filterM, haux]
  show Except.ok _ = _
  simp

namespace Tree

variable {t : Tree} {site : Site}

/-- A layout without repeated slots is no larger than the arena. -/
theorem holds_length_le {p : Option NodeId} {l : Layout} (h : t.Holds p l) (hn : l.ids.Nodup) :
    l.ids.length ≤ t.slots.size := by
  have hsub : l.ids ⊆ List.range t.slots.size := fun x hx => List.mem_range.2 (holds_lt h hx)
  simpa using hn.length_le_of_subset hsub

theorem Hangs.length_le {l : Layout} (h : t.Hangs site l) : l.ids.length ≤ t.slots.size :=
  holds_length_le h.holds h.nodup

/-- Popping the tops of layouts off a stack lists all their slots. -/
theorem popAll_ids (ls : List Layout) (steps : Nat) (h : ∀ l ∈ ls, ∃ p, t.Holds p l)
    (hsteps : (Layout.idsAll ls).length ≤ steps) :
    t.popAll steps (ls.map Layout.id) = .ok (Layout.idsAll ls) := by
  induction steps generalizing ls with
  | zero =>
    match ls with
    | [] => simp [popAll]
    | .mk id node alias_ below :: ls => simp at hsteps
  | succ steps ih =>
    match ls with
    | [] => simp [popAll]
    | .mk id node alias_ below :: ls =>
      obtain ⟨p, hl⟩ := h (.mk id node alias_ below) (by simp)
      obtain ⟨hs, hbelow⟩ := holds_mk.1 hl
      have hrest : ∀ l ∈ below ++ ls, ∃ p, t.Holds p l := by
        intro l hl
        rcases List.mem_append.1 hl with hl | hl
        · exact ⟨_, hbelow l hl⟩
        · exact h l (by simp [hl])
      have hlen : (Layout.idsAll (below ++ ls)).length ≤ steps := by simpa using hsteps
      have := ih (below ++ ls) hrest hlen
      rw [List.map_append] at this
      simp [popAll, slot_ok hs, this]

/-- The nodes reachable from the top of a layout. -/
theorem descendants_holds {p : Option NodeId} {l : Layout} (h : t.Holds p l) (hn : l.ids.Nodup) :
    t.descendants l.id = .ok l.ids := by
  have hlen := holds_length_le h hn
  have := popAll_ids [l] (t.size + 1) (by simpa using ⟨_, h⟩) (by simp [size]; omega)
  simpa [descendants] using this

theorem descendants_ids {l : Layout} (h : t.Hangs site l) : t.descendants l.id = .ok l.ids :=
  descendants_holds h.holds h.nodup

theorem mapM_terms {ls : List Layout} {f : NodeId → Except Defect Term}
    (h : ∀ l ∈ ls, f l.id = .ok l.term) :
    (ls.map Layout.id).mapM f = .ok (ls.map Layout.term) := by
  induction ls with
  | nil => rfl
  | cons l ls ih =>
    rw [List.map_cons, List.mapM_cons, h l (by simp), ih fun l hl => h l (by simp [hl])]
    rfl

theorem termBelow_layout {p : Option NodeId} {l : Layout} {depth : Nat} (h : t.Holds p l)
    (hdepth : l.ids.length ≤ depth) : t.termBelow depth l.id = .ok l.term := by
  induction l using Layout.induct generalizing p depth with
  | mk id node alias_ below ih =>
    obtain ⟨hs, hbelow⟩ := holds_mk.1 h
    cases depth with
    | zero => simp at hdepth
    | succ depth =>
      have hchildren :
          (below.map Layout.id).mapM (t.termBelow depth) = .ok (below.map Layout.term) := by
        refine mapM_terms fun l hl => ih l hl (hbelow l hl) ?_
        have hle := Layout.length_ids_le hl
        simp at hdepth
        omega
      simp [termBelow, slot_ok hs, hchildren]

/-- The term below the top of a layout. -/
theorem term_holds {p : Option NodeId} {l : Layout} (h : t.Holds p l) (hn : l.ids.Nodup) :
    t.term l.id = .ok l.term :=
  termBelow_layout h (Nat.le_succ_of_le (holds_length_le h hn))

theorem term_layout {l : Layout} (h : t.Hangs site l) : t.term l.id = .ok l.term :=
  term_holds h.holds h.nodup

end Tree
end PolyglotSql
