import PolyglotSql.Proofs.Rendering.Bindings
import PolyglotSql.Proofs.Rendering.Writing
import PolyglotSql.Proofs.Tree.Copying

/-!
# PolyglotSql.Proofs.Rendering.Comparisons

What is left of a comparison's operator in the text. The operator stands between what is written of
its operands, unless the right one is `NULL`: then the comparison is written as a test for `NULL`,
and all that is left of its operator is whether it was `<>` (`renderBelow_comparison`).
-/

namespace PolyglotSql

theorem ok_of_toOption {ε α : Type} {x : Except ε α} {a : α} (h : x.toOption = some a) :
    x = .ok a := by
  cases x with
  | ok b => rw [Option.some.inj h]
  | error defect => cases h

theorem error_of_toOption {ε α : Type} {x : Except ε α} (h : x.toOption = none) :
    ∃ defect, x = .error defect := by
  cases x with
  | ok b => cases h
  | error defect => exact ⟨defect, rfl⟩

namespace Comparison

/-- What stands behind the left operand in place of the operator. -/
def pieces (op : Comparison) (null : Bool) : List Piece :=
  if null then [.raw (if op = .ne then " IS NOT NULL" else " IS NULL")]
  else [.raw " ", .raw op.symbol, .raw " "]

theorem written_pieces (style : QuoteStyle) (op op' : Comparison) (null : Bool) :
    Piece.written style (op.pieces null) = Piece.written style (op'.pieces null) ↔
      op = op' ∨ (null = true ∧ (op = .ne ↔ op' = .ne)) := by
  cases null <;> cases op <;> cases op' <;>
    simp [pieces, Piece.written, Piece.chars, symbol]

theorem boundValue_pieces (op : Comparison) (null : Bool) :
    (op.pieces null).filterMap Piece.boundValue? = [] := by
  cases null <;> rfl

end Comparison

namespace Term

/-- What is written before and behind the operator of a comparison. -/
def operandPieces (around : Around) (alias_ : Option String) (left right : Term) :
    Option (List Piece × List Piece) := do
  -- for the operands all operators are alike
  let inner := around.below (.equality .eq) [left, right]
  let subject ← left.pieces inner
  let other ← if right.node.isNullValue then some [] else right.pieces inner
  some (subject, other ++ Node.aliasPieces around alias_)

theorem pieces_comparison (around : Around) (op : Comparison) (alias_ : Option String)
    (left right : Term) :
    pieces around (.mk (.equality op) alias_ [left, right]) =
      (operandPieces around alias_ left right).map fun operands =>
        operands.1 ++ (op.pieces right.node.isNullValue ++ operands.2) := by
  have hinner : around.below (.equality op) [left, right] =
      around.below (.equality .eq) [left, right] := rfl
  rw [pieces_mk, hinner, operandPieces]
  simp only [Node.shape, Node.form, List.map_cons, List.map_nil, Node.place, Comparison.pieces]
  cases left.pieces (around.below (.equality .eq) [left, right]) with
  | none => rfl
  | some subject =>
    cases right.node.isNullValue with
    | true => simp
    | false => cases right.pieces (around.below (.equality .eq) [left, right]) <;> simp

end Term

namespace Tree

variable {t t' : Tree} {id id' : NodeId}

/-! ## Subtrees in their places -/

/-- What is around a node: the kind of its parent, and the aliases that the selects around it
declare. -/
def around (t : Tree) (id : NodeId) : Except Defect Around :=
  match t.slot id with
  | .error defect => .error defect
  | .ok s => (t.parentKind s).map fun above =>
    { above, aliases := fun qualifier => t.aliasInScope qualifier (t.size + 1) s.parent }

/-- Every slot of a linked arena has a layout with something around it, and both together are no
larger than the arena. -/
theorem Linked.surrounds {s : Slot} {up : List NodeId} (h : t.Linked) (hs : t.slots[id]? = some s)
    (hup : t.Ascends id up) :
    ∃ l around height, l.id = id ∧ t.Holds s.parent l ∧ t.Surrounds s.parent around height ∧
      height + l.ids.length ≤ t.size + 1 := by
  induction hup generalizing s with
  | @top id s' hs' hp =>
    obtain rfl := Option.some.inj (hs'.symm.trans hs)
    have hup : t.Ascends id [id] := .top hs hp
    obtain ⟨l, rfl, hl⟩ := h.layout_below hup hs
    have hsize : l.ids.length ≤ t.size := by
      have hsub : l.ids ⊆ List.range t.size := fun x hx => List.mem_range.2 (holds_lt hl hx)
      simpa using (h.nodup_ids hl hup).length_le_of_subset hsub
    exact ⟨l, .outermost, 0, rfl, hl, hp ▸ surrounds_outermost, by omega⟩
  | @step id p s' up hs' hp hup ih =>
    obtain rfl := Option.some.inj (hs'.symm.trans hs)
    obtain ⟨sp, hsp, hmem⟩ := h.parent hs hp
    obtain ⟨⟨_, node, alias_, below⟩, around, height, rfl, hl, haround, hsize⟩ := ih hsp
    obtain ⟨hslot, hbelow⟩ := holds_mk.1 hl
    rw [Layout.id_mk] at hsp
    rw [Option.some.inj (hsp.symm.trans hslot)] at hmem
    obtain ⟨lc, hlc, rfl⟩ := List.mem_map.1 hmem
    have hle := Layout.length_ids_le hlc
    rw [Layout.ids_mk, List.length_cons] at hsize
    rw [hp]
    exact ⟨lc, _, height + 1, rfl, hbelow lc hlc, haround.below hl (by omega), by omega⟩

/-- Rendering a node writes the pieces of the term below it, as they are with what is around it. -/
theorem Linked.renderBelow_term {term : Term} (h : t.Linked) (hterm : t.term id = .ok term) :
    ∃ around, t.around id = .ok around ∧ ∀ sink,
      (t.renderBelow (t.size + 1) id sink).toOption = (term.pieces around).map sink.putAll := by
  have hid : id < t.slots.size := by
    by_contra hno
    simp [Tree.term, termBelow, slot, Array.getElem?_eq_none (Nat.le_of_not_lt hno)] at hterm
  obtain ⟨s, hs⟩ := slot_of_lt hid
  obtain ⟨up, hup⟩ := h.ends id hid
  obtain ⟨l, around, height, rfl, hl, hsurrounds, hsize⟩ := h.surrounds hs hup
  obtain rfl : l.term = term :=
    Except.ok.inj ((termBelow_layout hl (by omega)).symm.trans hterm)
  have haliases : (fun q => t.aliasInScope q (t.size + 1) s.parent) = around.aliases :=
    funext fun q => hsurrounds.aliases q (t.size + 1) (by omega)
  refine ⟨around, ?_, renderBelow_pieces hl hsurrounds hsize (by omega)⟩
  simp only [Tree.around, slot_ok hs, hsurrounds.above s rfl, haliases, Except.map]

/-- Comparisons with two operators and copies of the same operands, in places with the same around
them, are both written or both not. They are bound the same values, and their texts are the same
only if the operators are, or if the right operand is `NULL` and both operators or neither of them
are `<>`. -/
theorem renderBelow_comparison {op op' : Comparison} {alias_ : Option String} {left right : Term}
    (h : t.Linked) (h' : t'.Linked)
    (hterm : t.term id = .ok (.mk (.equality op) alias_ [left, right]))
    (hterm' : t'.term id' = .ok (.mk (.equality op') alias_ [left, right]))
    (haround : t.around id = t'.around id') (sink : Sink) :
    (∃ defect defect', t.renderBelow (t.size + 1) id sink = .error defect ∧
      t'.renderBelow (t'.size + 1) id' sink = .error defect') ∨
    ∃ written written', t.renderBelow (t.size + 1) id sink = .ok written ∧
      t'.renderBelow (t'.size + 1) id' sink = .ok written' ∧
      written.bindings = written'.bindings ∧
      (written.sql = written'.sql ↔
        op = op' ∨ (right.node.isNullValue = true ∧ (op = .ne ↔ op' = .ne))) := by
  obtain ⟨around, hplace, hrender⟩ := h.renderBelow_term hterm
  obtain ⟨around', hplace', hrender'⟩ := h'.renderBelow_term hterm'
  obtain rfl : around = around' :=
    Except.ok.inj (hplace.symm.trans (haround.trans hplace'))
  replace hrender := hrender sink
  replace hrender' := hrender' sink
  rw [Term.pieces_comparison, Option.map_map] at hrender hrender'
  cases hoperands : Term.operandPieces around alias_ left right with
  | none =>
    rw [hoperands] at hrender hrender'
    obtain ⟨defect, hdefect⟩ := error_of_toOption hrender
    obtain ⟨defect', hdefect'⟩ := error_of_toOption hrender'
    exact .inl ⟨defect, defect', hdefect, hdefect'⟩
  | some operands =>
    rw [hoperands] at hrender hrender'
    refine .inr ⟨_, _, ok_of_toOption hrender, ok_of_toOption hrender', ?_, ?_⟩
    · simp only [Function.comp_apply, Sink.putAll_numbered, List.filterMap_append,
        Comparison.boundValue_pieces]
    · rw [← String.toList_inj, Function.comp_apply, Function.comp_apply, Sink.putAll_written,
        Sink.putAll_written, ← Comparison.written_pieces sink.style]
      simp only [Piece.written_append, List.append_cancel_left_eq, List.append_cancel_right_eq]

theorem WellFormed.around_root (h : t.WellFormed) : t.around t.root = .ok .outermost := by
  obtain ⟨s, hs, hp⟩ := h.root
  simp [around, slot_ok hs, parentKind, hp, Except.map, aliasInScope, Around.outermost]

/-- The column `a` compared to something. -/
def compareTo (op : Comparison) (right : Term) : Term :=
  .of (.equality op) [.leaf (.column ⟨none, "a", none⟩), right]

theorem renderBelow_comparison_toOne :
    let one : Term := .leaf (.value (.integer 1) none)
    let t := (compareTo .lt one).build
    let t' := (compareTo .le one).build
    t.Linked ∧ t'.Linked ∧ t.term t.root = .ok (compareTo .lt one) ∧
      t'.term t'.root = .ok (compareTo .le one) ∧ t.around t.root = t'.around t'.root ∧
      ∃ written written', t.renderBelow (t.size + 1) t.root (.new ⟨.never, '"'⟩) = .ok written ∧
        t'.renderBelow (t'.size + 1) t'.root (.new ⟨.never, '"'⟩) = .ok written' ∧
        written.bindings = written'.bindings ∧ written.sql ≠ written'.sql := by
  intro one t t'
  have h : t.WellFormed := Term.build_wellFormed _
  have h' : t'.WellFormed := Term.build_wellFormed _
  have hlinked := (wellFormed_iff_linked.1 h).1
  have hlinked' := (wellFormed_iff_linked.1 h').1
  have hterm : t.term t.root = .ok (compareTo .lt one) := Term.build_term _
  have hterm' : t'.term t'.root = .ok (compareTo .le one) := Term.build_term _
  have haround : t.around t.root = t'.around t'.root := by rw [h.around_root, h'.around_root]
  refine ⟨hlinked, hlinked', hterm, hterm', haround, ?_⟩
  rcases renderBelow_comparison hlinked hlinked' hterm hterm' haround (.new ⟨.never, '"'⟩) with
    ⟨defect, -, hdefect, -⟩ | ⟨written, written', hw, hw', hbindings, htexts⟩
  · have hok : (t.renderBelow (t.size + 1) t.root (.new ⟨.never, '"'⟩)).toOption.isSome = true := by
      decide +kernel
    rw [hdefect] at hok
    cases hok
  · refine ⟨written, written', hw, hw', hbindings, fun hsame => ?_⟩
    rcases htexts.1 hsame with hop | ⟨hnull, -⟩
    · cases hop
    · cases hnull

/-- `a < NULL` and `a = NULL` are both written as `a IS NULL`. -/
theorem compareTo_null_lost :
    let null : Term := .leaf (.value .null none)
    let t := (compareTo .lt null).build
    let t' := (compareTo .eq null).build
    t.WellFormed ∧ t'.WellFormed ∧ t.term t.root = .ok (compareTo .lt null) ∧
      t'.term t'.root = .ok (compareTo .eq null) ∧ t.around t.root = t'.around t'.root ∧
      (t.render ⟨.never, '"'⟩).map RenderedSql.sql = .ok "a IS NULL" ∧
      (t'.render ⟨.never, '"'⟩).map RenderedSql.sql = .ok "a IS NULL" := by
  intro null t t'
  have h : t.WellFormed := Term.build_wellFormed _
  have h' : t'.WellFormed := Term.build_wellFormed _
  exact ⟨h, h', Term.build_term _, Term.build_term _, by rw [h.around_root, h'.around_root],
    by decide +kernel, by decide +kernel⟩

end Tree
end PolyglotSql
