import PolyglotSql.Proofs.Dialect.Adaptation

/-!
# PolyglotSql.Proofs.Dialect.SelectLists

What a query yields, and under which names, is the same after an adaptation (`adapt_selectLists`).
A rule that puts another node in the place of a column takes the alias along, and so does a select
that encloses one among the columns. Only a row limit is ever cut off, so a select list is gone only
if it stood below one.
-/

namespace PolyglotSql

open PolyglotSql.Tree

namespace Dialect

/-- Every select list of a well-formed tree outlasts the adaptation to any dialect, in the slot
where it is, and has as many columns afterwards, of the same names and in the same order, whatever
takes the place of a column. This holds of select lists inside columns, too, and where something was
refused. -/
theorem adapt_selectLists (d : Dialect) {t : Tree} {query : Term} (h : t.WellFormed)
    (hquery : t.term t.root = .ok query) (hleaves : query.LimitsAreLeaves) :
    ∃ t', Yields d.adapt t (verdict t'.root (query.adapted d).2) t' ∧
      ∀ id columns, t.SelectList id columns →
        ∃ (columns' : List NodeId) (names : List (Option String)), t'.SelectList id columns' ∧
          columns'.length = columns.length ∧ columns.map t.alias_ = names.map .ok ∧
          columns'.map t'.alias_ = names.map .ok := by
  obtain ⟨l, hid, hl⟩ := h.layout
  rw [← hid, term_layout hl] at hquery
  cases hquery
  obtain ⟨t', l', hy, hl', hroot', -, hcarries⟩ := adapt_carries (d := d) hl hid.symm
  exact ⟨t', hy, fun id columns hlist =>
    hlist.carried hl hid.symm hl' hroot' (hcarries hleaves)⟩

/-- `SELECT YEAR(t.day) AS y, t.code AS c, (SELECT t.id AS i FROM t LIMIT 3) AS p FROM t LIMIT 5
OFFSET 2`, where `t.code` has a fixed width: its columns are rewritten, trimmed and enclosed. -/
def namedColumns : Term :=
  .of .select [
    .of .result [
      .mk (.call "YEAR") (some "y") [.leaf (.column ⟨some "t", "day", none⟩)],
      .mk (.column ⟨some "t", "code", some ⟨"code", .char, some 4, false, true⟩⟩) (some "c") [],
      .mk .select (some "p") [
        .of .result [.mk (.column ⟨some "t", "id", none⟩) (some "i") []],
        .of .fromClause [.leaf (.table "t" none none)],
        .leaf (.limitOffset 3 0)]],
    .of .fromClause [.leaf (.table "t" none none)],
    .leaf (.limitOffset 5 2)]

theorem adapt_selectLists_namedColumns : namedColumns.build.WellFormed ∧
    namedColumns.build.term namedColumns.build.root = .ok namedColumns ∧
    namedColumns.LimitsAreLeaves ∧
    ∃ t', Yields Dialect.oracle.adapt namedColumns.build (.ok t'.root) t' ∧
      (∃ columns, t'.SelectList 2 columns ∧
        columns.map t'.alias_ = [.ok (some "y"), .ok (some "c"), .ok (some "p")]) ∧
      ∃ columns, t'.SelectList 7 columns ∧ columns.map t'.alias_ = [.ok (some "i")] := by
  have hwf := namedColumns.build_wellFormed
  have hquery := namedColumns.build_term
  have hleaves : namedColumns.LimitsAreLeaves := by
    simp [namedColumns, Term.LimitsAreLeaves, Term.every_mk, Term.of, Term.leaf, Node.call,
      Node.isLimitOffset]
  obtain ⟨t', hy, hlists⟩ := adapt_selectLists .oracle hwf hquery hleaves
  have hnone : (namedColumns.adapted .oracle).2 = none := by
    rw [Term.adapted_within]
    decide +kernel
  rw [hnone] at hy
  have hreached : namedColumns.build.descendants namedColumns.build.root =
      .ok [1, 2, 3, 4, 5, 6, 7, 8, 9, 10, 11, 12, 13, 14] := by
    decide +kernel
  have houter : namedColumns.build.SelectList 2 [3, 5, 6] :=
    ⟨⟨_, hreached, by decide⟩, by decide +kernel, by decide +kernel⟩
  have hinner : namedColumns.build.SelectList 7 [8] :=
    ⟨⟨_, hreached, by decide⟩, by decide +kernel, by decide +kernel⟩
  obtain ⟨columns, names, hlist, -, hbefore, hafter⟩ := hlists _ _ houter
  obtain ⟨columns', names', hlist', -, hbefore', hafter'⟩ := hlists _ _ hinner
  refine ⟨hwf, hquery, hleaves, t', hy, ⟨columns, hlist, ?_⟩, columns', hlist', ?_⟩
  · rw [hafter, ← hbefore]
    decide +kernel
  · rw [hafter', ← hbefore']
    decide +kernel

end Dialect
end PolyglotSql
