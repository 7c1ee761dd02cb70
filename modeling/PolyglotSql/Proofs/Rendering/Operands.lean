import PolyglotSql.Proofs.Dialect.Preservation
import PolyglotSql.Proofs.Translation

/-!
# PolyglotSql.Proofs.Rendering.Operands

What a tree needs to be written at all: its comparisons, pattern matches, membership and range tests
have as many operands as they take (`Term.Counted`). A term like this has pieces
(`pieces_of_counted`), adapting it leaves it like this (`adapted_counted`), and so its translation
ends without a defect (`translateTree_of_counted`).
-/

namespace PolyglotSql

open PolyglotSql.Tree

/-- The number of operands that a node takes; nothing where it takes any number. -/
def Node.operandCount? : Node → Option Nat
  | .equality _ | .like .. | .in_ _ => some 2
  | .between _ => some 3
  | _ => none

namespace Term

/-- Every node of a term has as many terms below it as it takes. -/
def Counted : Term → Prop :=
  Every fun node children => ∀ n, node.operandCount? = some n → children.length = n

/-! ## Adapted terms -/

theorem brought_operands {node : Node} (h : Brought node) (hk : node.kind ≠ .like) :
    node.operandCount? = none := by
  cases h with
  | like => exact absurd rfl hk
  | _ => rfl

theorem rewrite_counted (d : Dialect) (above : NodeKind) {t : Term} (h : t.Counted) :
    (rewrite d above t).1.Counted := by
  refine rewrite_every_of (rewriteTop_every_of ?_ ?_) ?_ above h
  · intro node children hn hk n hcount
    rw [brought_operands hn hk] at hcount
    cases hcount
  · intro operator ignoreCase negated escape operands operator' operands' hlen hcounted n hcount
    rw [hlen]
    exact hcounted n hcount
  · intro node children hcounted n hcount
    rw [length_rewriteAll]
    exact hcounted n hcount

theorem enclosed_counted {t : Term} (h : t.Counted) : t.enclosed.Counted := by
  refine enclosed_every_of ?_ ?_ h
  · intro node children hw n hcount
    cases hw <;> cases hcount
  · intro node children hcounted n hcount
    rw [List.length_map]
    exact hcounted n hcount

theorem adapted_counted (d : Dialect) {t : Term} (h : t.Counted) : (t.adapted d).1.Counted := by
  unfold adapted
  split
  · exact rewrite_counted d .empty (enclosed_counted h)
  · exact rewrite_counted d .empty h

/-! ## Pieces -/

theorem separated_some (between : Nat → Term → Term → String) {parts : List Part}
    (h : ∀ p ∈ parts, ∃ ps, p.pieces = some ps) (index : Nat) (before : Option Term) :
    ∃ ps, Part.separated between index before parts = some ps := by
  induction parts generalizing index before with
  | nil => exact ⟨[], by cases before <;> rfl⟩
  | cons p parts ih =>
    obtain ⟨first, hfirst⟩ := h p (by simp)
    obtain ⟨rest, hrest⟩ := ih (fun p hp => h p (by simp [hp])) (index + 1) (some p.term)
    exact ⟨_, Part.separated_cons.2 ⟨first, rest, hfirst, hrest, rfl⟩⟩

/-- A node whose parts have places of their own has one for each, if their number is right. -/
theorem place_some {around : Around} {node : Node} {parts : List Part}
    (hplaced : node.form around = .placed)
    (hcount : ∀ n, node.operandCount? = some n → parts.length = n)
    (h : ∀ p ∈ parts, ∃ ps, p.pieces = some ps) : ∃ ps, node.place parts = some ps := by
  cases node with
  | join kind =>
    match parts with
    | [] => exact ⟨_, rfl⟩
    | [only] =>
      obtain ⟨source, hsource⟩ := h only (by simp)
      simp [Node.place, hsource]
    | first :: second :: _ =>
      obtain ⟨source, hsource⟩ := h first (by simp)
      obtain ⟨condition, hcondition⟩ := h second (by simp)
      simp [Node.place, hsource, hcondition]
  | equality op =>
    obtain ⟨left, right, rfl⟩ := List.length_eq_two.1 (hcount 2 rfl)
    obtain ⟨subject, hsubject⟩ := h left (by simp)
    obtain ⟨other, hother⟩ := h right (by simp)
    simp only [Node.place, hsubject, hother, Option.bind_eq_bind, Option.bind_some]
    split
    · exact ⟨_, rfl⟩
    · exact ⟨_, rfl⟩
  | like operator ignoreCase negated escape =>
    obtain ⟨left, right, rfl⟩ := List.length_eq_two.1 (hcount 2 rfl)
    obtain ⟨subject, hsubject⟩ := h left (by simp)
    obtain ⟨pattern, hpattern⟩ := h right (by simp)
    simp [Node.place, hsubject, hpattern]
  | in_ negated =>
    obtain ⟨left, right, rfl⟩ := List.length_eq_two.1 (hcount 2 rfl)
    obtain ⟨subject, hsubject⟩ := h left (by simp)
    obtain ⟨list, hlist⟩ := h right (by simp)
    simp [Node.place, hsubject, hlist]
  | between negated =>
    obtain ⟨first, second, third, rfl⟩ := List.length_eq_three.1 (hcount 3 rfl)
    obtain ⟨subject, hsubject⟩ := h first (by simp)
    obtain ⟨low, hlow⟩ := h second (by simp)
    obtain ⟨high, hhigh⟩ := h third (by simp)
    simp [Node.place, hsubject, hlow, hhigh]
  | function name parentheses origin => cases parentheses <;> cases hplaced
  | _ => cases hplaced

/-- A term whose nodes have the operands that they take has pieces, whatever is around it. -/
theorem pieces_of_counted {t : Term} (h : t.Counted) (around : Around) :
    ∃ ps, t.pieces around = some ps := by
  induction t using Term.induct generalizing around with
  | mk node alias_ children ih =>
    obtain ⟨hcount, hbelow⟩ := every_mk.1 h
    have hparts : ∀ p ∈ children.map fun t => (⟨t, t.pieces (around.below node children)⟩ : Part),
        ∃ ps, p.pieces = some ps := by
      intro p hp
      obtain ⟨t, ht, rfl⟩ := List.mem_map.1 hp
      exact ih t ht (hbelow t ht) _
    have hshape : ∃ ps, node.shape around
        (children.map fun t => ⟨t, t.pieces (around.below node children)⟩) = some ps := by
      unfold Node.shape
      split
      · exact ⟨_, rfl⟩
      · rename_i before between after _
        obtain ⟨ps, hps⟩ := separated_some between hparts 0 none
        exact ⟨_, by rw [hps, Option.map_some]⟩
      · rename_i hplaced
        exact place_some hplaced (by simpa using hcount) hparts
    obtain ⟨ps, hps⟩ := hshape
    exact ⟨_, by rw [pieces_mk, hps, Option.map_some]⟩

end Term

/-- A translation that does not end with a refusal ends with SQL, if the query has the operands that
it takes. The tree then holds the adapted query. -/
theorem Translator.translateTree_of_counted (tr : Translator) {t : Tree} {query : Term}
    (h : t.WellFormed) (hquery : t.term t.root = .ok query) (hcounted : query.Counted) :
    ∃ outcome t', Yields tr.translateTree t outcome t' ∧
      t'.term t'.root = .ok (query.adapted tr.dialect).1 ∧
      (∀ refusal, outcome = .error refusal ↔ (query.adapted tr.dialect).2 = some refusal) := by
  obtain ⟨l, hid, hl⟩ := h.layout
  rw [← hid, term_layout hl] at hquery
  cases hquery
  obtain ⟨t', l', hy, hl', hroot', hterm'⟩ := Dialect.adapt_layout (d := tr.dialect) hl hid.symm
  have hresult : t'.term t'.root = .ok (l.term.adapted tr.dialect).1 := by
    rw [hroot', term_layout hl', hterm']
  cases hr : (l.term.adapted tr.dialect).2 with
  | some refusal =>
    rw [hr] at hy
    exact ⟨.error refusal, t', hy.bind (yields_pure _ _), hresult, by simp⟩
  | none =>
    rw [hr] at hy
    obtain ⟨ps, hps⟩ := Term.pieces_of_counted (Term.adapted_counted tr.dialect hcounted) .outermost
    have hrender := render_pieces hl' hroot' tr.style
    rw [hterm', hps, Option.map_some] at hrender
    cases hrendered : t'.render tr.style with
    | error defect =>
      rw [hrendered] at hrender
      cases hrender
    | ok rendered =>
      have hread : Yields (Edit.read (·.render tr.style)) t' rendered t' :=
        Edit.yields_read hrendered
      exact ⟨.ok rendered, t', hy.bind (hread.bind (yields_pure _ _)), hresult, by simp⟩

end PolyglotSql
