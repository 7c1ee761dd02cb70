import PolyglotSql.Proofs.Dialect.Adaptation
import PolyglotSql.Proofs.Tree.Rendering
import PolyglotSql.Translator

/-!
# PolyglotSql.Proofs.Translation

Translating a tree, as a function on its term: the term is adapted, and its pieces are put into an
empty text (`translateTree_iff`). What is to be known of translations can be asked of terms.
-/

namespace PolyglotSql

open PolyglotSql.Tree

/-- The SQL of a query in a dialect, if it has any. -/
def Term.translated (tr : Translator) (query : Term) : Option RenderedSql :=
  match query.adapted tr.dialect with
  | (_, some _) => none
  | (adapted, none) =>
    (adapted.pieces .outermost).map fun ps => ((Sink.new tr.style).putAll ps).finish

theorem Term.translated_some {tr : Translator} {query : Term} {rendered : RenderedSql}
    (h : query.translated tr = some rendered) :
    (query.adapted tr.dialect).2 = none ∧
      ∃ ps, (query.adapted tr.dialect).1.pieces .outermost = some ps ∧
        ((Sink.new tr.style).putAll ps).finish = rendered := by
  unfold translated at h
  split at h
  · cases h
  · rename_i adapted hadapted
    rw [hadapted]
    exact ⟨rfl, by simpa using h⟩

theorem Term.translated_of {tr : Translator} {query : Term} {ps : List Piece}
    (hnone : (query.adapted tr.dialect).2 = none)
    (hps : (query.adapted tr.dialect).1.pieces .outermost = some ps) :
    query.translated tr = some ((Sink.new tr.style).putAll ps).finish := by
  rw [translated, show query.adapted tr.dialect = (_, none) from Prod.ext rfl hnone]
  simp only [hps, Option.map_some]

namespace Translator

/-- Translating a well-formed tree gives the SQL of the term at its root, if that has any. -/
theorem translateTree_iff (tr : Translator) {t : Tree} {query : Term} {rendered : RenderedSql}
    (h : t.WellFormed) (hquery : t.term t.root = .ok query) :
    (∃ t', Yields tr.translateTree t (.ok rendered) t') ↔ query.translated tr = some rendered := by
  obtain ⟨l, hid, hl⟩ := h.layout
  rw [← hid, term_layout hl] at hquery
  cases hquery
  obtain ⟨t₁, l₁, hy₁, hl₁, hroot₁, hterm₁⟩ :=
    Dialect.adapt_layout (d := tr.dialect) hl hid.symm
  have hrender := render_pieces hl₁ hroot₁ tr.style
  rw [hterm₁] at hrender
  unfold Term.translated
  generalize l.term.adapted tr.dialect = adapted at hy₁ hrender
  obtain ⟨query', refusal⟩ := adapted
  cases refusal with
  | some refusal =>
    refine ⟨fun ⟨t', hy⟩ => ?_, fun h => by cases h⟩
    obtain ⟨he, -⟩ := (hy.rest hy₁).unique (yields_pure (Except.error refusal) t₁)
    cases he
  | none =>
    show _ ↔ Option.map _ (query'.pieces .outermost) = _
    rw [← hrender]
    cases hr : t₁.render tr.style with
    | ok r =>
      have hy : Yields tr.translateTree t (.ok r) t₁ :=
        .bind hy₁ (.bind (Edit.yields_read hr) (yields_pure _ _))
      constructor
      · rintro ⟨t', hy'⟩
        cases (hy.unique hy').1
        rfl
      · intro h
        cases h
        exact ⟨t₁, hy⟩
    | error defect =>
      refine ⟨fun ⟨t', hy⟩ => ?_, fun h => by cases h⟩
      obtain ⟨r, t₂, hread, -⟩ := (hy.rest hy₁).steps
      cases hr.symm.trans (Edit.read_ok hread)

end Translator
end PolyglotSql
