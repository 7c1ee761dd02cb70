import PolyglotSql.Proofs.Canonical.Acceptance
import PolyglotSql.Proofs.Dialect.Idempotence
import PolyglotSql.Proofs.Rendering.Spacing
import PolyglotSql.Proofs.Rendering.Styles

/-!
# PolyglotSql.Proofs.Rendering.Modes

What the mode of quoting decides about a translation: which identifiers are delimited, and nothing
else. A query whose identifiers are kept apart stays so in every dialect (`Term.spaced_adapted`). So
the translations of any tree under two modes fail alike or bind the same, and those of such a query
read the same, name by name and character by character (`Translator.translateTree_modes`).
-/

namespace PolyglotSql

open Placeholder

namespace Term

/-- What keeps its neighbours off as far as another term does. -/
structure Fences (t t' : Term) : Prop where
  front : ∀ above, (t.front above).Le (t'.front above)
  back : ∀ above, (t.back above).Le (t'.back above)

theorem fences_refl (t : Term) : t.Fences t :=
  ⟨fun _ => .refl _, fun _ => .refl _⟩

theorem Fences.trans {t t' t'' : Term} (h : t.Fences t') (h' : t'.Fences t'') : t.Fences t'' :=
  ⟨fun above => (h.front above).trans (h'.front above),
    fun above => (h.back above).trans (h'.back above)⟩

/-- A term of whose edges nothing is certain may become any other. -/
theorem fences_open {t t' : Term} (hfront : ∀ above, t.front above = .name)
    (hback : ∀ above, t.back above = .name) : t.Fences t' :=
  ⟨fun above => .inl (hfront above), fun above => .inl (hback above)⟩

/-- It is the top that keeps neighbours off, and whether anything is below it. -/
theorem fences_children {node : Node} {alias_ alias' : Option String} {ts ts' : List Term}
    (h : ts'.length = ts.length) : (mk node alias_ ts).Fences (mk node alias' ts') := by
  have hbare : ts'.isEmpty = ts.isEmpty := by
    rw [Bool.eq_iff_iff, List.isEmpty_iff_length_eq_zero, List.isEmpty_iff_length_eq_zero, h]
  refine ⟨fun above => ?_, fun _ => .refl _⟩
  show (node.front above ts.isEmpty).Le (node.front above ts'.isEmpty)
  rw [hbare]
  exact .refl _

theorem head_fences {ts ts' : List Term} (h : List.Forall₂ Fences ts ts') {above : NodeKind}
    (hfirst : ∀ t ∈ ts.head?, t.front above ≠ .name) : ∀ t ∈ ts'.head?, t.front above ≠ .name := by
  cases h with
  | nil => simp
  | cons h _ =>
    rintro t' ⟨⟩
    exact (h.front above).ne_name (hfirst _ rfl)

theorem chain_fences {ts ts' : List Term} (h : List.Forall₂ Fences ts ts') {above : NodeKind}
    (hchain : ts.IsChain (Seam above)) : ts'.IsChain (Seam above) := by
  induction h with
  | nil => exact .nil
  | cons ht hts ih =>
    rw [List.isChain_cons] at hchain ⊢
    refine ⟨fun t' ht' => ?_, ih hchain.2⟩
    cases hts with
    | nil => cases ht'
    | cons hnext _ =>
      cases ht'
      exact (hchain.1 _ rfl).mono (ht.back above) (hnext.front above)

/-- What is below a node stays seamed if every term there is as well fenced as before. -/
theorem seamed_fences {node : Node} {ts ts' : List Term} (h : List.Forall₂ Fences ts ts')
    (hs : Seamed node ts) : Seamed node ts' := by
  cases node with
  | select => exact ⟨head_fences h hs.1, chain_fences h hs.2⟩
  | empty => exact chain_fences h hs
  | _ => trivial

variable {d : Dialect}

theorem rewriteTop_fences {above : NodeKind} {t t' : Term} (h : rewriteTop d above t = .ok t') :
    t.Fences t' := by
  cases rewriteTop_ok h with
  | kept => exact fences_refl t
  | limit => exact ⟨fun _ => .refl _, fun _ => .refl _⟩
  | value => exact ⟨fun _ => .refl _, fun _ => .inr (.inl rfl)⟩
  | column | call | like | likeBare => exact fences_open (fun _ => rfl) fun _ => rfl

theorem rewrite_fences (above : NodeKind) (t : Term) : t.Fences (rewrite d above t).1 := by
  cases h : rewriteTop d above t with
  | error refusal =>
    rw [rewrite_error h]
    exact fences_refl t
  | ok t' =>
    obtain ⟨node, alias_, children⟩ := t'
    have htop := rewriteTop_fences h
    have hbelow : Fences (mk node alias_ children)
        (mk node alias_ (rewriteAll d node.kind children).1) :=
      fences_children (length_rewriteAll d node.kind children)
    rw [rewrite_ok h]
    exact htop.trans hbelow

theorem rewriteAll_fences (above : NodeKind) (ts : List Term) :
    List.Forall₂ Fences ts (rewriteAll d above ts).1 := by
  refine rewriteAll_cases (motive := fun ts ts' => List.Forall₂ Fences ts ts') ts .nil ?_ ?_
  · rintro t t' ts rfl
    exact .cons (rewrite_fences above t) (List.forall₂_same.2 fun t _ => fences_refl t)
  · rintro t t' ts ts' rfl ih
    exact .cons (rewrite_fences above t) ih

theorem spaced_rewrite (above : NodeKind) {t : Term} (h : t.Spaced) :
    (rewrite d above t).1.Spaced := by
  refine rewrite_every (fun node children hbrought => ?_) (fun node children hs => ?_) above h
  · cases hbrought <;> trivial
  · exact seamed_fences (rewriteAll_fences _ children) hs

theorem enclosed_fences (t : Term) : t.Fences t.enclosed := by
  refine enclosed_induct (motive := Fences) ?_ ?_ t
  · intro node alias_ children _ _
    exact fences_children (List.length_map _)
  · intro alias_ before c after limit offset _ _
    exact ⟨fun _ => .refl _, fun _ => .refl _⟩

theorem map_fences (ts : List Term) : List.Forall₂ Fences ts (ts.map enclosed) := by
  rw [List.forall₂_map_right_iff, List.forall₂_same]
  exact fun t _ => enclosed_fences t

theorem startsApart_append {s : String} (h : Piece.startsApart s = true) (s' : String) :
    Piece.startsApart (s ++ s') = true := by
  obtain ⟨c, hc, hsevering⟩ := (Option.any_eq_true ..).1 h
  simp [Piece.startsApart, hc, hsevering]

theorem startsApart_head (offset : UInt64) : Piece.startsApart (RowNumbers.head offset) = true := by
  unfold RowNumbers.head
  split <;> decide

theorem startsApart_tail (limit offset : UInt64) :
    Piece.startsApart (RowNumbers.tail limit offset) = true := by
  unfold RowNumbers.tail
  split
  · exact startsApart_append (by decide) _
  · split
    · exact startsApart_append (by decide) _
    · rw [String.append_assoc, String.append_assoc]
      exact startsApart_append (by decide) _

theorem spaced_enclosed {t : Term} (h : t.Spaced) : t.enclosed.Spaced := by
  refine enclosed_induct (motive := fun t t' => t.Spaced → t'.Spaced) ?_ ?_ t h
  · intro node alias_ children _ ih h
    obtain ⟨hseamed, hbelow⟩ := every_mk.1 h
    refine every_mk.2 ⟨seamed_fences (map_fences children) hseamed, fun t ht => ?_⟩
    obtain ⟨c, hc, rfl⟩ := List.mem_map.1 ht
    exact ih c hc (hbelow c hc)
  · intro alias_ before c after limit offset hlimits ih h
    obtain ⟨hseamed, hbelow⟩ := every_mk.1 h
    have hc : Fences c (leaf .empty) := by
      refine ⟨fun _ => .inr (.inl rfl), fun above => .inl ?_⟩
      obtain ⟨node, calias, children⟩ := c
      cases node with
      | limitOffset => rfl
      | _ => cases hlimits
    have hinner :
        Spaced (of .select (before.map enclosed ++ leaf .empty :: after.map enclosed)) := by
      refine every_mk.2 ⟨seamed_fences ?_ hseamed, fun t ht => ?_⟩
      · exact List.rel_append (map_fences before) (.cons hc (map_fences after))
      · simp only [List.mem_append, List.mem_cons, List.mem_map] at ht
        rcases ht with ⟨b, hb, rfl⟩ | rfl | ⟨b, hb, rfl⟩
        · exact ih b (by simp [hb]) (hbelow b (by simp [hb]))
        · exact every_mk.2 ⟨.nil, by simp⟩
        · exact ih b (by simp [hb]) (hbelow b (by simp [hb]))
    have htext (s : String) : Spaced (text s) := every_mk.2 ⟨trivial, by simp⟩
    have hhead : (text (RowNumbers.head offset)).front .select = .sign := by
      exact (Node.front_text ..).trans (if_pos (by simp [startsApart_head]))
    have htail : (text (RowNumbers.tail limit offset)).front .select = .sign := by
      exact (Node.front_text ..).trans (if_pos (by simp [startsApart_tail]))
    refine every_mk.2 ⟨⟨by simp [hhead], ?_⟩, ?_⟩
    · exact .cons_cons (.inr (.inl rfl)) (.cons_cons (.inr (.inl htail)) (.singleton _))
    · simp only [List.forall_mem_cons]
      exact ⟨htext _, hinner, htext _, by simp⟩

/-- Adapting a query keeps its identifiers apart. -/
theorem spaced_adapted (d : Dialect) {t : Term} (h : t.Spaced) : (t.adapted d).1.Spaced := by
  unfold adapted
  refine spaced_rewrite .empty ?_
  split
  · exact spaced_enclosed h
  · exact h

end Term

/-! ## Accepted statements -/

namespace Term

theorem IsClause.front {t : Term} (h : t.node.IsClause) : t.front .select = .sign := by
  obtain ⟨node, alias_, children⟩ := t
  cases node <;> first
    | rfl
    | exact absurd h id

theorem spaced_of_shaped {t : Term} (h : t.Every Shaped) : t.Spaced := by
  refine every_imp (fun node children hshaped => ?_) h
  cases node with
  | select =>
    have hfront : ∀ t ∈ children, t.front .select = .sign := fun t ht =>
      IsClause.front (hshaped.clauses rfl t ht)
    refine ⟨fun t ht => by simp [hfront t (List.mem_of_head? ht)], ?_⟩
    refine List.Pairwise.isChain (List.pairwise_of_forall_mem_list fun a _ b hb => ?_)
    exact .inr (.inl (hfront b hb))
  | empty => exact absurd rfl hshaped.inhabited
  | _ => trivial

end Term

/-- The query of an accepted statement has its identifiers kept apart. -/
theorem Canonical.tree_spaced (catalog : Catalog) (stmt : Sql.Statement) :
    Gives (fun t => t.WellFormed ∧ ∃ query, t.term t.root = .ok query ∧ query.Spaced)
      (tree catalog stmt) := by
  intro t h
  obtain ⟨hwf, query, hquery, hshaped⟩ := tree_shaped catalog stmt t h
  exact ⟨hwf, query, hquery, Term.spaced_of_shaped hshaped⟩

/-! ## Translating under two modes -/

namespace Translator

/-- Outcomes of two translations that fail alike, or bind the same in texts that are similar. -/
inductive Alike (similar : String → String → Prop) :
    Except Defect (Except Refusal RenderedSql) → Except Defect (Except Refusal RenderedSql) → Prop
  | defect (d : Defect) : Alike similar (.error d) (.error d)
  | refusal (r : Refusal) : Alike similar (.ok (.error r)) (.ok (.error r))
  | sql {a b : RenderedSql} (hbindings : a.bindings = b.bindings) (hsql : similar a.sql b.sql) :
    Alike similar (.ok (.ok a)) (.ok (.ok b))

theorem Alike.imp {similar similar' : String → String → Prop}
    {a b : Except Defect (Except Refusal RenderedSql)} (h : Alike similar a b)
    (himp : ∀ a b, similar a b → similar' a b) : Alike similar' a b := by
  cases h with
  | defect d => exact .defect d
  | refusal r => exact .refusal r
  | sql hbindings hsql => exact .sql hbindings (himp _ _ hsql)

/-- Texts that read the same once names are read for what they name, delimited or not. -/
def ReadsSame (quote : Char) (a b : String) : Prop :=
  Lexeme.verbatim quote a.toList = Lexeme.verbatim quote b.toList

/-- What a translation of a tree comes to, and the tree that it leaves. -/
def translation (tr : Translator) (t : Tree) : Except Defect (Except Refusal RenderedSql) × Tree :=
  tr.translateTree.run.run t

theorem translation_eq (tr : Translator) (t : Tree) : tr.translation t =
    match tr.dialect.adapt.run.run t with
    | (.error defect, t') => (.error defect, t')
    | (.ok (.error refusal), t') => (.ok (.error refusal), t')
    | (.ok (.ok _), t') => ((t'.render tr.style).map .ok, t') := by
  unfold translation translateTree
  rw [run_sequence]
  rcases tr.dialect.adapt.run.run t with ⟨defect | refusal | root, t'⟩
  · rfl
  · rfl
  · show StateT.run (ExceptT.run (Edit.read (·.render tr.style) >>=
      fun rendered => pure (Except.ok rendered))) t' = ((t'.render tr.style).map .ok, t')
    rw [run_sequence, Edit.run_read]
    cases t'.render tr.style <;> rfl

theorem alike_of_bindings {similar : String → String → Prop} {x y : Except Defect RenderedSql}
    (h : x.map (·.bindings) = y.map (·.bindings))
    (hsql : ∀ a b, x = .ok a → y = .ok b → similar a.sql b.sql) :
    Alike similar (x.map .ok) (y.map .ok) := by
  cases x with
  | error defect =>
    cases y with
    | error defect' =>
      cases h
      exact .defect defect
    | ok b => cases h
  | ok a =>
    cases y with
    | error defect => cases h
    | ok b => exact .sql (Except.ok.inj h) (hsql a b rfl rfl)

/-- Whatever the tree, two modes fail alike or bind the same; the texts are as similar as those of
the adapted tree. -/
theorem translation_alike {similar : String → String → Prop} (d : Dialect) (mode mode' : QuoteMode)
    {t : Tree} (hsimilar : ∀ root t', Yields d.adapt t (.ok root) t' →
      ∀ a b, t'.render ⟨mode, d.quoteChar⟩ = .ok a → t'.render ⟨mode', d.quoteChar⟩ = .ok b →
        similar a.sql b.sql) :
    Alike similar (translation ⟨d, mode⟩ t).1 (translation ⟨d, mode'⟩ t).1 := by
  rw [translation_eq, translation_eq]
  dsimp only
  rcases hadapt : d.adapt.run.run t with ⟨defect | refusal | root, t'⟩
  · exact .defect defect
  · exact .refusal refusal
  · exact alike_of_bindings (Tree.render_styles ⟨mode, d.quoteChar⟩ ⟨mode', d.quoteChar⟩)
      (hsimilar root t' hadapt)

/-- A tree whose query leaves no delimiter open and keeps its identifiers apart, under two modes. -/
theorem render_readsSame {quote : Char} (hquote : IsDelimiter quote) {mode mode' : QuoteMode}
    {t : Tree} {l : Layout} {a b : RenderedSql} (hl : t.Hangs .free l) (hroot : t.root = l.id)
    (hclosed : l.term.EveryNode (Node.Closed quote)) (hspaced : l.term.Spaced)
    (ha : t.render ⟨mode, quote⟩ = .ok a) (hb : t.render ⟨mode', quote⟩ = .ok b) :
    ReadsSame quote a.sql b.sql := by
  -- Both texts are those of the same pieces.
  have ha' := Tree.render_pieces hl hroot ⟨mode, quote⟩
  have hb' := Tree.render_pieces hl hroot ⟨mode', quote⟩
  rw [ha] at ha'
  rw [hb] at hb'
  obtain ⟨ps, hps, rfl⟩ := Option.map_eq_some_iff.1 ha'.symm
  obtain ⟨qs, hqs, rfl⟩ := Option.map_eq_some_iff.1 hb'.symm
  cases hps.symm.trans hqs
  have htidy := Term.pieces_tidy hquote hclosed hspaced hps
  unfold ReadsSame
  rw [Sink.finish_written, Sink.finish_written]
  exact Piece.verbatim_written hquote mode mode' htidy.closed htidy.parted

/-- The translations of a tree under two modes of quoting fail alike or bind the same. Those of a
query read the same once names are read for what they name, delimited or not, if no text that is
written as it is has apostrophes or delimiters in it, and if what a select or an empty node writes
side by side is kept apart, as it is in every accepted statement. Names, aliases and escape
characters may be any. -/
theorem translateTree_modes (d : Dialect) (mode mode' : QuoteMode) (t : Tree) :
    Alike
      (fun a b => ∀ query, t.WellFormed → t.term t.root = .ok query →
        (query.EveryNode fun node => ∀ s ∈ node.fragments, Quoteless d.quoteChar s) →
        query.Spaced → ReadsSame d.quoteChar a b)
      (translation ⟨d, mode⟩ t).1 (translation ⟨d, mode'⟩ t).1 ∧
    ∀ catalog stmt, Canonical.tree catalog stmt = .ok t →
      t.WellFormed ∧ ∃ query, t.term t.root = .ok query ∧ query.Spaced := by
  refine ⟨?_, fun catalog stmt => Canonical.tree_spaced catalog stmt t⟩
  have hquote := quoteChar_isDelimiter d
  refine translation_alike d mode mode' fun root t' hadapt a b ha hb => ?_
  intro query hwf hquery hquoteless hspaced
  obtain ⟨l, hid, hl⟩ := hwf.layout
  rw [← hid, Tree.term_layout hl] at hquery
  cases hquery
  obtain ⟨t₁, l₁, hy₁, hl₁, hroot₁, hterm₁⟩ := Dialect.adapt_layout (d := d) hl hid.symm
  obtain ⟨-, rfl⟩ := hadapt.unique hy₁
  have hclosed : l.term.EveryNode (Node.Closed d.quoteChar) :=
    Term.every_imp (fun _ _ hn s hs => (hn s hs).balanced hquote) hquoteless
  have hadapted := Term.adapted_every (fun _ hn s hs => (brought_spelled hquote hn s hs).balanced)
    (fun _ hn s hs => (wrapping_spelled hquote hn s hs).balanced) d hclosed
  exact render_readsSame hquote hl₁ hroot₁ (hterm₁ ▸ hadapted)
    (hterm₁ ▸ Term.spaced_adapted d hspaced) ha hb

/-- `SELECT o."a ?" AS select, "it""s" FROM s.order o WHERE o.key LIKE 'x' ESCAPE '"'` -/
def orderedKeys : Term :=
  .of .select [
    .of .result [.mk (.column ⟨some "o", "a ?", none⟩) (some "select") [],
      .leaf (.column ⟨none, "it\"s", none⟩)],
    .of .fromClause [.leaf (.table "order" (some "s") (some "o"))],
    .of .whereClause [.of (.like .like false false (some '"'))
      [.leaf (.column ⟨some "o", "key", none⟩), .value (.text "x")]],
    .leaf (.limitOffset 5 0)]

/-- Two texts that differ, read the same; and a statement is accepted. -/
theorem translateTree_modes_orderedKeys :
    orderedKeys.build.WellFormed ∧
    (∃ t', translation ⟨.postgresql, .never⟩ orderedKeys.build = (.ok (.ok
      ⟨"SELECT o.\"a ?\" AS select, \"it\"\"s\" FROM s.order o"
        ++ " WHERE o.key LIKE ? ESCAPE '\"' LIMIT 5", [⟨1, .text "x", none⟩]⟩), t')) ∧
    (∃ t', translation ⟨.postgresql, .always⟩ orderedKeys.build = (.ok (.ok
      ⟨"SELECT o.\"a ?\" AS \"select\", \"it\"\"s\" FROM \"s\".\"order\" o"
        ++ " WHERE o.\"key\" LIKE ? ESCAPE '\"' LIMIT 5", [⟨1, .text "x", none⟩]⟩), t')) ∧
    Alike (ReadsSame '"') (translation ⟨.postgresql, .never⟩ orderedKeys.build).1
      (translation ⟨.postgresql, .always⟩ orderedKeys.build).1 ∧
    ∃ t, Canonical.tree .empty (.query Canonical.locatedPattern) = .ok t ∧
      t.WellFormed ∧ ∃ query, t.term t.root = .ok query ∧ query.Spaced := by
  have hwf := orderedKeys.build_wellFormed
  have hquery := orderedKeys.build_term
  have hquoteless : orderedKeys.EveryNode fun node => ∀ s ∈ node.fragments, Quoteless '"' s := by
    simp [orderedKeys, Term.EveryNode, Term.every_mk, Term.of, Term.leaf, Term.value,
      Node.fragments]
  have hspaced : orderedKeys.Spaced := by
    refine Term.every_mk.2 ⟨⟨by rintro t ⟨⟩; decide, ?_⟩, ?_⟩
    · exact .cons_cons (.inr (.inl rfl)) (.cons_cons (.inr (.inl rfl))
        (.cons_cons (.inr (.inl rfl)) (.singleton _)))
    · simp [Term.every_mk, Term.of, Term.leaf, Term.value, Term.Seamed]
  have hnever : orderedKeys.translated ⟨.postgresql, .never⟩ = some
      ⟨"SELECT o.\"a ?\" AS select, \"it\"\"s\" FROM s.order o"
        ++ " WHERE o.key LIKE ? ESCAPE '\"' LIMIT 5", [⟨1, .text "x", none⟩]⟩ := by
    rw [Term.translated, Term.adapted_within]
    rfl
  have halways : orderedKeys.translated ⟨.postgresql, .always⟩ = some
      ⟨"SELECT o.\"a ?\" AS \"select\", \"it\"\"s\" FROM \"s\".\"order\" o"
        ++ " WHERE o.\"key\" LIKE ? ESCAPE '\"' LIMIT 5", [⟨1, .text "x", none⟩]⟩ := by
    rw [Term.translated, Term.adapted_within]
    rfl
  obtain ⟨accepted, haccepted⟩ :
      ∃ t, Canonical.tree .empty (.query Canonical.locatedPattern) = .ok t := ⟨_, rfl⟩
  exact ⟨hwf, (translateTree_iff ⟨.postgresql, .never⟩ hwf hquery).2 hnever,
    (translateTree_iff ⟨.postgresql, .always⟩ hwf hquery).2 halways,
    (translateTree_modes .postgresql .never .always orderedKeys.build).1.imp fun _ _ hreads =>
      hreads orderedKeys hwf hquery hquoteless hspaced,
    accepted, haccepted,
    (translateTree_modes .postgresql .never .always accepted).2 _ _ haccepted⟩

/-- Two columns with nothing between them. -/
def sideBySide : Term :=
  .of .empty [.leaf (.column ⟨none, "a", none⟩), .leaf (.column ⟨none, "b", none⟩)]

/-- They run together into one name, `ab` if it is not delimited and `a"b` if it is. -/
theorem sideBySide_unlike :
    sideBySide.build.WellFormed ∧ sideBySide.build.term sideBySide.build.root = .ok sideBySide ∧
    (sideBySide.EveryNode fun node => ∀ s ∈ node.fragments, Quoteless '"' s) ∧
    (∃ t', translation ⟨.postgresql, .never⟩ sideBySide.build = (.ok (.ok ⟨"ab", []⟩), t')) ∧
    (∃ t', translation ⟨.postgresql, .always⟩ sideBySide.build =
      (.ok (.ok ⟨"\"a\"\"b\"", []⟩), t')) ∧
    Lexeme.verbatim '"' "ab".toList = [.name "ab"] ∧
    Lexeme.verbatim '"' "\"a\"\"b\"".toList = [.name "a\"b"] ∧
    ¬ Alike (ReadsSame '"') (translation ⟨.postgresql, .never⟩ sideBySide.build).1
      (translation ⟨.postgresql, .always⟩ sideBySide.build).1 := by
  have hwf := sideBySide.build_wellFormed
  have hquery := sideBySide.build_term
  have hquoteless : sideBySide.EveryNode fun node => ∀ s ∈ node.fragments, Quoteless '"' s := by
    simp [sideBySide, Term.EveryNode, Term.every_mk, Term.of, Term.leaf, Node.fragments]
  have hnever : sideBySide.translated ⟨.postgresql, .never⟩ = some ⟨"ab", []⟩ := by
    rw [Term.translated, Term.adapted_within]
    rfl
  have halways : sideBySide.translated ⟨.postgresql, .always⟩ = some ⟨"\"a\"\"b\"", []⟩ := by
    rw [Term.translated, Term.adapted_within]
    rfl
  obtain ⟨t₁, h₁⟩ := (translateTree_iff ⟨.postgresql, .never⟩ hwf hquery).2 hnever
  obtain ⟨t₂, h₂⟩ := (translateTree_iff ⟨.postgresql, .always⟩ hwf hquery).2 halways
  refine ⟨hwf, hquery, hquoteless, ⟨t₁, h₁⟩, ⟨t₂, h₂⟩, by decide, by decide, fun halike => ?_⟩
  have h₁' : translation ⟨.postgresql, .never⟩ sideBySide.build = _ := h₁
  have h₂' : translation ⟨.postgresql, .always⟩ sideBySide.build = _ := h₂
  rw [h₁', h₂'] at halike
  cases halike with
  | sql hbindings hsql => exact absurd hsql (by unfold ReadsSame; decide)

end Translator
end PolyglotSql
