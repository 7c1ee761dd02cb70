import PolyglotSql.Proofs.Rendering.Bindings
import PolyglotSql.Proofs.Rendering.Writing
import PolyglotSql.Proofs.Tree.Operations

/-!
# PolyglotSql.Proofs.Tree.Independence

Rendering depends on the term at the root only. Two arenas whose roots hold one term, whatever else
is in them and however they came about, are written alike, or both stop with a defect
(`render_of_term`); a copy of the whole tree is written like the tree.
-/

namespace PolyglotSql

/-- What a sink has beyond the one that it was begun from: text, and values with the types they are
bound with. -/
def Sink.since (s start : Sink) : List Char × List (Value × Option SqlType) :=
  (s.sql.toList.drop start.sql.toList.length,
    (s.bindings.drop start.bindings.length).map fun b => (b.value, b.sqlType))

theorem Sink.putAll_since (s : Sink) (ps : List Piece) :
    (s.putAll ps).since s = (Piece.written s.style ps, ps.filterMap Piece.boundValue?) := by
  rw [since, putAll_written, putAll_numbered]
  simp [Function.comp_def, List.mapIdx_eq_zipIdx_map, List.map_map]

namespace Tree

variable {t t' : Tree}

theorem layouts_of_term (h : t.WellFormed) (h' : t'.WellFormed)
    (hterm : t.term t.root = t'.term t'.root) :
    ∃ l l', t.root = l.id ∧ t.Hangs .free l ∧ t'.root = l'.id ∧ t'.Hangs .free l' ∧
      l'.term = l.term := by
  obtain ⟨l, hid, hl⟩ := h.layout
  obtain ⟨l', hid', hl'⟩ := h'.layout
  rw [← hid, ← hid', term_layout hl, term_layout hl'] at hterm
  exact ⟨l, l', hid.symm, hl, hid'.symm, hl', (Except.ok.inj hterm).symm⟩

theorem copy_root (h : t.WellFormed) :
    ∃ copy l, Yields (do Edit.setRoot (← Edit.copySubtree t.root)) t () copy ∧
      copy.root = l.id ∧ copy.Hangs .free l ∧ t.term t.root = .ok l.term := by
  obtain ⟨hlinked, hlt, -⟩ := wellFormed_iff_linked.1 h
  obtain ⟨term, hterm, t₁, l, hy, hl, rfl, -⟩ := copySubtree_lays hlinked hlt
  obtain ⟨s, hs, -, hfree⟩ := holds_top hl.holds
  exact ⟨_, l, hy.bind (Edit.yields_setRoot hs hfree), rfl, hl.reroot l.id, hterm⟩

/-- Two trees whose roots hold one term are written alike under every quoting policy, or neither is
written; what they add to texts that are already begun is the same. Making a copy of the whole tree
the root changes nothing of what is written. -/
theorem render_of_term (h : t.WellFormed) (h' : t'.WellFormed)
    (hterm : t.term t.root = t'.term t'.root) :
    (∀ style, (t.render style).toOption = (t'.render style).toOption) ∧
    (∀ a b : Sink, a.style = b.style → (t.renderInto a).toOption.map (·.since a) =
      (t'.renderInto b).toOption.map (·.since b)) ∧
    ∃ copy, Yields (do Edit.setRoot (← Edit.copySubtree t.root)) t () copy ∧
      ∀ style, (copy.render style).toOption = (t.render style).toOption := by
  obtain ⟨l, l', hroot, hl, hroot', hl', he⟩ := layouts_of_term h h' hterm
  refine ⟨fun style => ?_, fun a b hstyle => ?_, ?_⟩
  · rw [render_pieces hl hroot, render_pieces hl' hroot', he]
  · rw [renderInto_pieces hl hroot, renderInto_pieces hl' hroot', he]
    simp only [Option.map_map, Function.comp_def, Sink.putAll_since, hstyle]
  · obtain ⟨copy, lc, hy, hcopy, hlc, hsame⟩ := copy_root h
    rw [hroot, term_layout hl, Except.ok.injEq] at hsame
    refine ⟨copy, hy, fun style => ?_⟩
    rw [render_pieces hlc hcopy, render_pieces hl hroot, hsame]

/-- `SELECT DISTINCT t0.a FROM t t0`. -/
def distinctColumn : Term :=
  .of .select [.distinct, .of .result [.leaf (.column ⟨some "t0", "a", none⟩)],
    .of .fromClause [.leaf (.table "t" none (some "t0"))]]

/-- The same query put together from its end, with a node that was replaced and one that was never
attached left over. -/
def scrambled : Tree :=
  Operation.run [.add (.table "t" none (some "t0")), .add .fromClause, .appendChild 2 1,
    .add (.text "b"), .add .result, .appendChild 4 3, .add (.column ⟨some "t0", "a", none⟩),
    .replaceChild 4 0 5, .add .distinct, .add .select, .appendChild 7 2, .insertChild 7 0 4,
    .insertChild 7 0 6, .setRoot 7] (Tree.new .empty)

theorem render_of_term_scrambled : distinctColumn.build.WellFormed ∧ scrambled.WellFormed ∧
    distinctColumn.build.term distinctColumn.build.root = scrambled.term scrambled.root ∧
    scrambled.root = 7 ∧
    ∀ style, (distinctColumn.build.render style).toOption = (scrambled.render style).toOption := by
  have h : distinctColumn.build.WellFormed := distinctColumn.build_wellFormed
  have h' : scrambled.WellFormed :=
    wellFormed_iff_linked.2 ⟨Operation.run_linked _ (Tree.linked_new .empty), by decide, by rfl⟩
  have hterm : distinctColumn.build.term distinctColumn.build.root =
      scrambled.term scrambled.root := by
    rw [distinctColumn.build_term]
    rfl
  exact ⟨h, h', hterm, by rfl, (render_of_term h h' hterm).1⟩

end Tree
end PolyglotSql
