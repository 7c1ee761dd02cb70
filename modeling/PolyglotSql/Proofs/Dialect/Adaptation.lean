import PolyglotSql.Proofs.Dialect.Enclosing
import PolyglotSql.Proofs.Dialect.Walk
import PolyglotSql.Proofs.Tree.Building

/-!
# PolyglotSql.Proofs.Dialect.Adaptation

Adapting a tree in place and rewriting its term are the same, for every dialect and every
well-formed tree: `adapt_layout` says how an adapted tree is laid out and with which refusal the
adaptation ends, `adapt_holds` the same of the terms that the trees hold. `adapt_carries` adds what
the term cannot tell: the select lists are still in their slots.
-/

namespace PolyglotSql

open PolyglotSql.Tree

namespace Dialect

variable {d : Dialect}

/-- How an adaptation ends: with the root, unless something was refused. -/
def verdict (root : NodeId) : Option Refusal → Except Refusal NodeId
  | some refusal => .error refusal
  | none => .ok root

theorem verdict_eq_ok {root root' : NodeId} {refusal : Option Refusal} :
    verdict root refusal = .ok root' ↔ root = root' ∧ refusal = none := by
  cases refusal <;> simp [verdict]

theorem outcome_yields (t : Tree) (r : Option Refusal) :
    Yields (outcome r) t (verdict t.root r) t := by
  cases r with
  | none => exact .bind (yields_get t) (yields_pure _ _)
  | some refusal => exact yields_pure _ _

/-- The adapted tree holds the adapted term and carries the select lists, unless there are some
below a limiting child. -/
theorem adapt_carries {t : Tree} {l : Layout} (h : t.Hangs .free l) (hroot : t.root = l.id) :
    ∃ t' l', Yields d.adapt t (verdict t'.root (l.term.adapted d).2) t' ∧ t'.Hangs .free l' ∧
      t'.root = l'.id ∧ l'.term = (l.term.adapted d).1 ∧
      (l.term.LimitsAreLeaves → l.Carries l') := by
  unfold adapt Term.adapted
  by_cases hrows : d.filtersRowNumbers = true
  · rw [if_pos hrows, if_pos hrows]
    obtain ⟨t₁, l₁, hy₁, h₁, hroot₁, hterm₁, hcarries₁⟩ := RowNumbers.encloseAll_encloses h hroot
    obtain ⟨t₂, l₂, hy₂, h₂, hroot₂, hterm₂, -, -, hcarries₂⟩ :=
      adaptOnce_adapts (d := d) h₁ hroot₁
    rw [hterm₁] at hy₂ hterm₂
    exact ⟨t₂, l₂, .bind hy₁ (.bind hy₂ (outcome_yields t₂ _)), h₂, hroot₂, hterm₂,
      fun hleaves => (hcarries₁ hleaves).trans hcarries₂⟩
  · rw [if_neg hrows, if_neg hrows]
    obtain ⟨t₂, l₂, hy₂, h₂, hroot₂, hterm₂, -, -, hcarries₂⟩ :=
      adaptOnce_adapts (d := d) h hroot
    exact ⟨t₂, l₂, .bind hy₂ (outcome_yields t₂ _), h₂, hroot₂, hterm₂, fun _ => hcarries₂⟩

/-- The adapted tree holds the adapted term. -/
theorem adapt_layout {t : Tree} {l : Layout} (h : t.Hangs .free l) (hroot : t.root = l.id) :
    ∃ t' l', Yields d.adapt t (verdict t'.root (l.term.adapted d).2) t' ∧ t'.Hangs .free l' ∧
      t'.root = l'.id ∧ l'.term = (l.term.adapted d).1 := by
  obtain ⟨t', l', hy, hl', hroot', hterm', -⟩ := adapt_carries (d := d) h hroot
  exact ⟨t', l', hy, hl', hroot', hterm'⟩

theorem adapt_holds {t : Tree} {query : Term} (h : t.WellFormed)
    (hquery : t.term t.root = .ok query) :
    ∃ t', Yields d.adapt t (verdict t'.root (query.adapted d).2) t' ∧
      t'.term t'.root = .ok (query.adapted d).1 := by
  obtain ⟨l, hid, hl⟩ := h.layout
  rw [← hid, term_layout hl] at hquery
  cases hquery
  obtain ⟨t', l', hy, hl', hroot', hterm'⟩ := adapt_layout (d := d) hl hid.symm
  refine ⟨t', hy, ?_⟩
  rw [hroot', term_layout hl', hterm']

/-- Adapting a well-formed tree in place agrees with rewriting the term at its root: it ends without
a defect, with the refusal that the rewriting meets first, if it meets one, and the tree then holds
the rewritten term. -/
theorem adapt_agrees (d : Dialect) {t : Tree} (h : t.WellFormed) :
    ∃ query t', t.term t.root = .ok query ∧
      Yields d.adapt t (verdict t'.root (query.adapted d).2) t' ∧
      t'.term t'.root = .ok (query.adapted d).1 := by
  obtain ⟨l, hid, hl⟩ := h.layout
  have hquery : t.term t.root = .ok l.term := by rw [← hid, term_layout hl]
  obtain ⟨t', hy, hresult⟩ := adapt_holds (d := d) h hquery
  exact ⟨l.term, t', hquery, hy, hresult⟩

/-- `SELECT LOCATE('a', YEAR(t.day)) FROM t LIMIT 5 OFFSET 2` -/
def pagedYears : Term :=
  .of .select [
    .of .result [.of (.call "LOCATE") [.value (.text "a"),
      .of (.call "YEAR") [.leaf (.column ⟨some "t", "day", none⟩)]]],
    .of .fromClause [.leaf (.table "t" none none)],
    .leaf (.limitOffset 5 2)]

theorem adapt_agrees_pagedYears : pagedYears.build.WellFormed ∧
    ∃ t', Yields Dialect.oracle.adapt pagedYears.build (.ok t'.root) t' ∧
      t'.term t'.root = .ok (.of .select [
        .text " * FROM (SELECT tid.*, ROWNUM rnum FROM ",
        .of .select [
          .of .result [.of (.dialectCall "INSTR" true) [.value (.text "a"),
            .of (.keywordCall "EXTRACT" ["FROM"])
              [.text "YEAR", .leaf (.column ⟨some "t", "day", none⟩)]]],
          .of .fromClause [.leaf (.table "t" none none)],
          .leaf .empty],
        .text " tid WHERE ROWNUM <= 7) WHERE rnum > 2"]) := by
  have hwf := pagedYears.build_wellFormed
  obtain ⟨query, t', hquery, hy, hterm⟩ := adapt_agrees .oracle hwf
  rw [Term.build_term] at hquery
  cases hquery
  have hadapted : pagedYears.adapted .oracle = (.of .select [
        .text " * FROM (SELECT tid.*, ROWNUM rnum FROM ",
        .of .select [
          .of .result [.of (.dialectCall "INSTR" true) [.value (.text "a"),
            .of (.keywordCall "EXTRACT" ["FROM"])
              [.text "YEAR", .leaf (.column ⟨some "t", "day", none⟩)]]],
          .of .fromClause [.leaf (.table "t" none none)],
          .leaf .empty],
        .text " tid WHERE ROWNUM <= 7) WHERE rnum > 2"], none) := by
    rw [Term.adapted_within]
    rfl
  rw [hadapted] at hy hterm
  exact ⟨hwf, t', hy, hterm⟩

end Dialect
end PolyglotSql
