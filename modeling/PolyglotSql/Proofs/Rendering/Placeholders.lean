import PolyglotSql.Proofs.Dialect.Preservation
import PolyglotSql.Proofs.Translation

/-!
# PolyglotSql.Proofs.Rendering.Placeholders

The placeholders of a translated query are its bindings. Every piece of a query leaves a scan
outside of any delimiter, as long as the texts that are written as they are do (`Node.Spelled`); the
texts that dialects bring in do. Putting such pieces one after another keeps placeholders and
bindings in step (`Sink.Tallies`).
-/

namespace PolyglotSql

open Placeholder

namespace Node

/-- The texts of a node that are written as they are. -/
def fragments : Node → List String
  | .text s => [s]
  | .function name _ _ => [name]
  | .keywordCall name keywords => name :: keywords
  | .operation operator => [operator]
  | .castValue _ _ target _ => [target]
  | _ => []

/-- These texts leave a scan outside of any delimiter and are without placeholders. -/
def Spelled (quote : Char) (node : Node) : Prop :=
  ∀ s ∈ node.fragments, Neutral quote s

end Node

namespace Piece

/-- A piece that keeps placeholders and bindings in step. -/
def Fits (quote : Char) : Piece → Prop
  | .raw s => Neutral quote s
  | .name _ | .alias_ _ => True
  | .bound value _ => value.isScalar = true

/-- Pieces that keep them in step. -/
def AllFit (quote : Char) (ps : List Piece) : Prop :=
  ∀ p ∈ ps, p.Fits quote

variable {quote : Char}

theorem allFit_nil : AllFit quote [] :=
  fun _ h => absurd h List.not_mem_nil

theorem AllFit.cons {p : Piece} {ps : List Piece} (hp : p.Fits quote) (hps : AllFit quote ps) :
    AllFit quote (p :: ps) :=
  List.forall_mem_cons.2 ⟨hp, hps⟩

theorem AllFit.append {ps qs : List Piece} (hps : AllFit quote ps) (hqs : AllFit quote qs) :
    AllFit quote (ps ++ qs) :=
  List.forall_mem_append.2 ⟨hps, hqs⟩

theorem Fits.only {p : Piece} (hp : p.Fits quote) : AllFit quote [p] :=
  .cons hp allFit_nil

theorem fits_word (hquote : IsDelimiter quote) {s : String} (h : isInert s = true) :
    (raw s).Fits quote :=
  neutral_of_inert hquote h

end Piece

open Piece

namespace Sink

/-- As many placeholders as bindings, the bindings numbered from one, each of a scalar. -/
structure Tallies (s : Sink) : Prop where
  counts : Counts s.style.quote s.sql.toList s.bindings.length
  bound : ∀ i b, s.bindings[i]? = some b → b.position = i + 1 ∧ b.value.isScalar = true

theorem new_tallies (style : QuoteStyle) : (Sink.new style).Tallies where
  counts := counts_nil
  bound i b h := by simp [Sink.new] at h

theorem text_tallies {s : Sink} (h : s.Tallies) {t : String} (ht : Neutral s.style.quote t) :
    (s.text t).Tallies where
  counts := by
    have := h.counts.append ht
    simpa [text] using this
  bound := h.bound

/-- One more piece. -/
theorem put_tallies {s : Sink} (hquote : IsDelimiter s.style.quote) (h : s.Tallies) {p : Piece}
    (hp : p.Fits s.style.quote) : (s.put p).Tallies := by
  cases p with
  | raw t => exact text_tallies h hp
  | name t => exact text_tallies h (neutral_quoteName hquote t)
  | alias_ t => exact text_tallies h (neutral_quoteAlias hquote t)
  | bound value column =>
    have hmark : s.style.quote ≠ '?' := by
      rcases hquote with he | he <;> rw [he] <;> decide
    refine ⟨?_, fun i b hb => ?_⟩
    · have := h.counts.append (counts_mark hmark)
      simpa [put] using this
    · simp only [put, List.getElem?_append] at hb
      split at hb
      · exact h.bound i b hb
      · rename_i hi
        obtain ⟨hlt, he⟩ := List.getElem?_eq_some_iff.1 hb
        simp only [List.length_singleton] at hlt
        have hi : i = s.bindings.length := by omega
        subst hi
        simp only [Nat.sub_self, List.getElem_cons_zero] at he
        subst he
        exact ⟨rfl, hp⟩

@[simp] theorem put_style (s : Sink) (p : Piece) : (s.put p).style = s.style := by
  cases p <;> rfl

theorem putAll_style (s : Sink) (ps : List Piece) : (s.putAll ps).style = s.style := by
  induction ps generalizing s with
  | nil => rfl
  | cons p ps ih => rw [putAll_cons, ih, put_style]

/-- A whole run of pieces. -/
theorem putAll_tallies {ps : List Piece} {s : Sink} (hquote : IsDelimiter s.style.quote)
    (h : s.Tallies) (hps : AllFit s.style.quote ps) : (s.putAll ps).Tallies := by
  induction ps generalizing s with
  | nil => exact h
  | cons p ps ih =>
    rw [putAll_cons]
    have hp := hps p (by simp)
    refine ih (by simpa using hquote) (put_tallies hquote h hp) fun q hq => ?_
    rw [put_style]
    exact hps q (by simp [hq])

end Sink

/-! ## The pieces of a term -/

section

variable {quote : Char}

theorem neutral_unlessZero {n : UInt64} {s : String} (h : Neutral quote s) :
    Neutral quote (unlessZero n s) := by
  unfold unlessZero
  split
  · exact h
  · exact counts_nil

theorem neutral_digitsOf (hquote : IsDelimiter quote) (n : UInt64) : Neutral quote (digitsOf n) :=
  neutral_toString hquote n.toNat

theorem neutral_canonicalPage (hquote : IsDelimiter quote) (limit offset : UInt64) :
    Neutral quote (PageClause.canonical limit offset) := by
  have hword {s : String} (h : isInert s = true) : Neutral quote s := neutral_of_inert hquote h
  have hdigits := neutral_digitsOf hquote
  exact (neutral_unlessZero ((hword (by decide)).append (hdigits limit))).append
    (neutral_unlessZero ((hword (by decide)).append (hdigits offset)))

theorem neutral_withUnbounded (hquote : IsDelimiter quote) {unbounded : String}
    (h : isInert unbounded = true) (limit offset : UInt64) :
    Neutral quote (PageClause.withUnbounded unbounded limit offset) := by
  have hword {s : String} (h : isInert s = true) : Neutral quote s := neutral_of_inert hquote h
  have hdigits := neutral_digitsOf hquote
  refine Neutral.append ?_ (neutral_unlessZero ((hword (by decide)).append (hdigits offset)))
  split
  · exact (hword (by decide)).append (hdigits limit)
  · exact neutral_unlessZero ((hword (by decide)).append (hword h))

theorem neutral_page (hquote : IsDelimiter quote) (clause : PageClause) (limit offset : UInt64) :
    Neutral quote (clause.sql limit offset) := by
  have hword {s : String} (h : isInert s = true) : Neutral quote s := neutral_of_inert hquote h
  have hdigits := neutral_digitsOf hquote
  have hpart (n : UInt64) {before after : String} (hb : isInert before = true)
      (ha : isInert after = true) : Neutral quote (unlessZero n (before ++ digitsOf n ++ after)) :=
    neutral_unlessZero (((hword hb).append (hdigits n)).append (hword ha))
  cases clause with
  | offsetFetchNext =>
    exact (hpart offset (by decide) (by decide)).append (hpart limit (by decide) (by decide))
  | offsetRowsFetchFirst =>
    exact (hpart offset (by decide) (by decide)).append (hpart limit (by decide) (by decide))
  | offsetFetchFirst =>
    exact (neutral_unlessZero ((hword (by decide)).append (hdigits offset))).append
      (hpart limit (by decide) (by decide))
  | rowsTo =>
    simp only [PageClause.sql]
    split
    · exact counts_nil
    · exact (((hword (by decide)).append (hdigits _)).append (hword (by decide))).append (hdigits _)
  | limitMaxRows => exact neutral_withUnbounded hquote (by decide) limit offset
  | limitNegativeOne => exact neutral_withUnbounded hquote (by decide) limit offset
  | limitZero => exact neutral_withUnbounded hquote (by decide) limit offset

theorem neutral_rowNumbersHead (hquote : IsDelimiter quote) (offset : UInt64) :
    Neutral quote (RowNumbers.head offset) := by
  unfold RowNumbers.head
  split
  · exact neutral_of_inert hquote (by decide)
  · exact neutral_of_inert hquote (by decide)

theorem neutral_rowNumbersTail (hquote : IsDelimiter quote) (limit offset : UInt64) :
    Neutral quote (RowNumbers.tail limit offset) := by
  have hword {s : String} (h : isInert s = true) : Neutral quote s := neutral_of_inert hquote h
  have hdigits := neutral_digitsOf hquote
  unfold RowNumbers.tail
  split
  · exact (hword (by decide)).append (hdigits limit)
  · split
    · exact (hword (by decide)).append (hdigits offset)
    · exact (((hword (by decide)).append (hdigits _)).append (hword (by decide))).append
        (hdigits offset)

/-- What dialects bring into a query is spelled. -/
theorem brought_spelled (hquote : IsDelimiter quote) {node : Node} (h : Term.Brought node) :
    node.Spelled quote := by
  have hword {s : String} (h : isInert s = true) : Neutral quote s := neutral_of_inert hquote h
  cases h with
  | page => intro s hs; cases hs
  | trimmedColumn => intro s hs; cases hs
  | like => intro s hs; cases hs
  | castValue value column length =>
    intro s hs
    rw [List.mem_singleton.1 hs]
    exact hword (by decide)
  | call h parentheses =>
    intro s hs
    rw [List.mem_singleton.1 hs]
    exact hword h
  | keywordCall h => exact fun s hs => hword (h s hs)
  | operation h =>
    intro s hs
    rw [List.mem_singleton.1 hs]
    exact hword h
  | word h =>
    intro s hs
    rw [List.mem_singleton.1 hs]
    exact hword h
  | literal h =>
    intro s hs
    rw [List.mem_singleton.1 hs]
    exact (within_plain (unmarked_of_inert hquote h).2.1).literal

theorem wrapping_spelled (hquote : IsDelimiter quote) {node : Node} (h : Term.Wrapping node) :
    node.Spelled quote := by
  cases h with
  | select => intro s hs; cases hs
  | empty => intro s hs; cases hs
  | head offset =>
    intro s hs
    rw [List.mem_singleton.1 hs]
    exact neutral_rowNumbersHead hquote offset
  | tail limit offset =>
    intro s hs
    rw [List.mem_singleton.1 hs]
    exact neutral_rowNumbersTail hquote limit offset

/-! ## The pieces of a term -/

mutual

theorem valuePieces_fit (hquote : IsDelimiter quote) (column : Option Attribute) (value : Value) :
    AllFit quote (value.pieces column) := by
  cases value with
  | null => exact (fits_word hquote (by decide)).only
  | list items =>
    have hitems := itemPieces_fit hquote column true items
    rw [Value.pieces]
    exact .cons (fits_word hquote (by decide))
      (hitems.append (fits_word hquote (by decide)).only)
  | _ => exact Fits.only (p := .bound _ column) rfl

theorem itemPieces_fit (hquote : IsDelimiter quote) (column : Option Attribute) (first : Bool)
    (items : List Value) : AllFit quote (Value.itemPieces column first items) := by
  cases items with
  | nil =>
    rw [Value.itemPieces]
    exact allFit_nil
  | cons item items =>
    have hitem := valuePieces_fit hquote column item
    have hitems := itemPieces_fit hquote column false items
    have hcomma : AllFit quote (if first then [] else [.raw ", "]) := by
      cases first
      · exact (fits_word hquote (by decide)).only
      · exact allFit_nil
    rw [Value.itemPieces]
    exact (hcomma.append hitem).append hitems

end

/-- Every part that has pieces has fitting ones. -/
def PartsFit (quote : Char) (parts : List Part) : Prop :=
  ∀ part ∈ parts, ∀ ps, part.pieces = some ps → AllFit quote ps

theorem separated_fit {between : Nat → Term → Term → String} {parts : List Part}
    (hparts : PartsFit quote parts) (hbetween : ∀ i a b, Neutral quote (between i a b))
    {index : Nat} {before : Option Term} {ps : List Piece}
    (h : Part.separated between index before parts = some ps) : AllFit quote ps := by
  induction parts generalizing index before ps with
  | nil =>
    simp only [Part.separated, Option.some.injEq] at h
    subst h
    exact allFit_nil
  | cons part parts ih =>
    obtain ⟨qs, rs, hqs, hrs, rfl⟩ := Part.separated_cons.1 h
    have hlead : AllFit quote (Part.lead between index before part.term) := by
      cases before with
      | none => exact allFit_nil
      | some b => exact Fits.only (hbetween _ _ _)
    exact hlead.append ((hparts part (by simp) qs hqs).append
      (ih (fun p hp => hparts p (by simp [hp])) hrs))

theorem columnPieces_fit (hquote : IsDelimiter quote) (around : Around) (ref : ColumnRef) :
    AllFit quote (Node.columnPieces around ref) := by
  unfold Node.columnPieces
  split
  · refine .cons ?_ (.cons (fits_word hquote (by decide)) (Fits.only trivial))
    split <;> trivial
  · exact Fits.only trivial

theorem tablePieces_fit (hquote : IsDelimiter quote) (name : String)
    (schema alias_ : Option String) :
    AllFit quote (Node.tablePieces name schema alias_) := by
  refine AllFit.append ?_ (.cons trivial ?_)
  · cases schema
    · exact allFit_nil
    · exact .cons trivial (fits_word hquote (by decide)).only
  · cases alias_
    · exact allFit_nil
    · exact .cons (fits_word hquote (by decide)) (Fits.only trivial)

theorem neutral_escapeText (c : Char) : Neutral quote (Node.escapeText c) := by
  have hinside : Within quote '\'' (if c = '\'' then [c, c] else [c]) := by
    split
    · rename_i hc
      rw [hc]
      exact within_twice (.inl rfl)
    · rename_i hc
      exact within_other hc
  rw [← @String.toList_ofList (if c = '\'' then [c, c] else [c])] at hinside
  exact hinside.literal

theorem escapePieces_fit (hquote : IsDelimiter quote) (escape : Option Char) :
    AllFit quote (Node.escapePieces escape) := by
  cases escape with
  | none => exact allFit_nil
  | some c => exact .cons (fits_word hquote (by decide)) (Fits.only (neutral_escapeText c))

theorem fits_ite (hquote : IsDelimiter quote) {c : Prop} [Decidable c] {s s' : String}
    (h : isInert s = true) (h' : isInert s' = true) : (raw (if c then s else s')).Fits quote := by
  split
  · exact fits_word hquote h
  · exact fits_word hquote h'

theorem bracket_fit (wanted : Bool) {s : String} (h : (raw s).Fits quote) :
    AllFit quote (Node.bracket wanted s) := by
  unfold Node.bracket
  split
  · exact h.only
  · exact allFit_nil

/-- What a node brings in itself keeps placeholders and bindings in step. -/
def FormFits (quote : Char) : Node.Form → Prop
  | .alone ps => AllFit quote ps
  | .listed before separator after =>
    AllFit quote before ∧ (∀ i a b, Neutral quote (separator i a b)) ∧ AllFit quote after
  | .placed => True

theorem form_fits (hquote : IsDelimiter quote) {node : Node} (hnode : node.Spelled quote)
    (around : Around) : FormFits quote (node.form around) := by
  have hword {s : String} (h : isInert s = true) : (raw s).Fits quote := fits_word hquote h
  have hsame {s : String} (h : isInert s = true) (i : Nat) (a b : Term) :
      Neutral quote (Node.sameText s i a b) := hword h
  have hinert {s s' : String} {c : Prop} [Decidable c] (h : isInert s = true)
      (h' : isInert s' = true) : Neutral quote (if c then s else s') := fits_ite hquote h h'
  cases node with
  | select =>
    exact ⟨(bracket_fit _ (hword (by decide))).append (hword (by decide)).only,
      hsame (by decide), bracket_fit _ (hword (by decide))⟩
  | distinct => exact (fits_ite hquote (by decide) (by decide)).only
  | result => exact ⟨(hword (by decide)).only, hsame (by decide), allFit_nil⟩
  | fromClause =>
    exact ⟨(hword (by decide)).only, fun _ _ _ => hinert (by decide) (by decide), allFit_nil⟩
  | table name schema alias_ => exact tablePieces_fit hquote name schema alias_
  | whereClause => exact ⟨(hword (by decide)).only, hsame (by decide), allFit_nil⟩
  | groupBy => exact ⟨(hword (by decide)).only, hsame (by decide), allFit_nil⟩
  | having => exact ⟨(hword (by decide)).only, hsame (by decide), allFit_nil⟩
  | orderBy => exact ⟨(hword (by decide)).only, hsame (by decide), allFit_nil⟩
  | ordering direction =>
    refine ⟨allFit_nil, hsame (by decide), ?_⟩
    split
    · exact (hword (by decide)).only
    · exact allFit_nil
  | limitOffset limit offset => exact Fits.only (neutral_canonicalPage hquote limit offset)
  | page clause limit offset => exact Fits.only (neutral_page hquote clause limit offset)
  | column ref => exact columnPieces_fit hquote around ref
  | trimmedColumn ref strip =>
    refine .cons ?_ (.cons (hword (by decide))
      ((columnPieces_fit hquote around ref).append (hword (by decide)).only))
    cases strip <;> exact hword (by decide)
  | value value column => exact valuePieces_fit hquote column value
  | castValue value column target length =>
    have htarget : (raw target).Fits quote := hnode target (by simp [Node.fragments])
    exact .cons (hword (by decide)) ((valuePieces_fit hquote column value).append
      (.cons (hword (by decide)) (.cons htarget (.cons (hword (by decide))
        (.cons (neutral_toString hquote length) (hword (by decide)).only)))))
  | function name parentheses origin =>
    have hname : (raw name).Fits quote := hnode name (by simp [Node.fragments])
    cases parentheses with
    | false => exact hname.only
    | true =>
      exact ⟨.cons hname (hword (by decide)).only, fun _ _ _ => hinert (by decide) (by decide),
        (hword (by decide)).only⟩
  | keywordCall name keywords =>
    have hname : (raw name).Fits quote := hnode name (by simp [Node.fragments])
    refine ⟨.cons hname (hword (by decide)).only, fun index _ _ => ?_, (hword (by decide)).only⟩
    unfold Node.keywordText
    split
    · rename_i keyword hkeyword
      have hmem := List.mem_of_getElem? hkeyword
      have hneutral := hnode keyword (by simp [Node.fragments, hmem])
      exact ((hword (by decide)).append hneutral).append (hword (by decide))
    · exact hword (by decide)
  | operation operator =>
    have hneutral := hnode operator (by simp [Node.fragments])
    exact ⟨allFit_nil,
      fun _ _ _ => ((hword (by decide)).append hneutral).append (hword (by decide)), allFit_nil⟩
  | group => exact ⟨(hword (by decide)).only, hsame (by decide), (hword (by decide)).only⟩
  | boolean op =>
    exact ⟨bracket_fit _ (hword (by decide)), fun _ _ _ => hinert (by decide) (by decide),
      bracket_fit _ (hword (by decide))⟩
  | not => exact ⟨(hword (by decide)).only, hsame (by decide), (hword (by decide)).only⟩
  | exists_ negated =>
    exact ⟨(fits_ite hquote (by decide) (by decide)).only, hsame (by decide), allFit_nil⟩
  | text s => exact Fits.only (hnode s (by simp [Node.fragments]))
  | empty => exact ⟨allFit_nil, hsame (by decide), allFit_nil⟩
  | _ => trivial

/-- The same of the nodes whose parts have places of their own. -/
theorem place_fit (hquote : IsDelimiter quote) {node : Node} {parts : List Part} {ps : List Piece}
    (hparts : PartsFit quote parts) (h : node.place parts = some ps) : AllFit quote ps := by
  have hword {s : String} (h : isInert s = true) : (raw s).Fits quote := fits_word hquote h
  unfold Node.place at h
  split at h
  case h_1 kind =>
    cases h
    refine Fits.only ?_
    cases kind <;> exact hword (by decide)
  case h_2 kind only =>
    obtain ⟨qs, hqs, rfl⟩ := Option.map_eq_some_iff.1 h
    refine .cons ?_ (hparts only (by simp) qs hqs)
    cases kind <;> exact hword (by decide)
  case h_3 kind first second rest =>
    simp only [Option.bind_eq_bind, Option.bind_eq_some_iff, Option.some.injEq] at h
    obtain ⟨qs, hqs, rs, hrs, rfl⟩ := h
    refine .cons ?_ ((hparts first (by simp) qs hqs).append
      (.cons (hword (by decide)) (hparts second (by simp) rs hrs)))
    cases kind <;> exact hword (by decide)
  case h_4 op left right =>
    simp only [Option.bind_eq_bind, Option.bind_eq_some_iff] at h
    obtain ⟨qs, hqs, h⟩ := h
    have hleft := hparts left (by simp) qs hqs
    split at h
    · cases h
      exact hleft.append (fits_ite hquote (by decide) (by decide)).only
    · obtain ⟨rs, hrs, h⟩ := Option.bind_eq_some_iff.1 h
      cases h
      have hsymbol : (raw op.symbol).Fits quote := by
        cases op <;> exact hword (by decide)
      exact hleft.append (.cons (hword (by decide)) (.cons hsymbol (.cons (hword (by decide))
        (hparts right (by simp) rs hrs))))
  case h_5 operator ignoreCase negated escape left right =>
    simp only [Option.bind_eq_bind, Option.bind_eq_some_iff, Option.some.injEq] at h
    obtain ⟨qs, hqs, rs, hrs, rfl⟩ := h
    have hkeyword : (raw operator.keyword).Fits quote := by
      cases operator <;> exact hword (by decide)
    exact (hparts left (by simp) qs hqs).append
      (.cons (fits_ite hquote (by decide) (by decide)) (.cons hkeyword (.cons (hword (by decide))
        ((hparts right (by simp) rs hrs).append (escapePieces_fit hquote escape)))))
  case h_6 negated left right =>
    simp only [Option.bind_eq_bind, Option.bind_eq_some_iff, Option.some.injEq] at h
    obtain ⟨qs, hqs, rs, hrs, rfl⟩ := h
    exact (hparts left (by simp) qs hqs).append
      (.cons (fits_ite hquote (by decide) (by decide)) (hparts right (by simp) rs hrs))
  case h_7 negated first second third =>
    simp only [Option.bind_eq_bind, Option.bind_eq_some_iff, Option.some.injEq] at h
    obtain ⟨qs, hqs, rs, hrs, us, hus, rfl⟩ := h
    exact (hparts first (by simp) qs hqs).append
      (.cons (fits_ite hquote (by decide) (by decide)) ((hparts second (by simp) rs hrs).append
        (.cons (hword (by decide)) (hparts third (by simp) us hus))))
  case h_8 => cases h

/-- What a spelled node writes around fitting parts. -/
theorem shape_fit (hquote : IsDelimiter quote) {around : Around} {node : Node} {parts : List Part}
    {ps : List Piece} (hnode : node.Spelled quote) (hparts : PartsFit quote parts)
    (h : node.shape around parts = some ps) : AllFit quote ps := by
  have hform := form_fits hquote hnode around
  unfold Node.shape at h
  cases hf : node.form around with
  | alone qs =>
    rw [hf] at h hform
    cases h
    exact hform
  | listed before separator after =>
    rw [hf] at h hform
    obtain ⟨hbefore, hseparator, hafter⟩ := hform
    obtain ⟨qs, hqs, rfl⟩ := Option.map_eq_some_iff.1 h
    exact (hbefore.append (separated_fit hparts hseparator hqs)).append hafter
  | placed =>
    rw [hf] at h
    exact place_fit hquote hparts h

/-- The pieces of a term of spelled nodes. -/
theorem pieces_fit (hquote : IsDelimiter quote) {around : Around} {t : Term} {ps : List Piece}
    (ht : t.EveryNode (Node.Spelled quote)) (h : t.pieces around = some ps) : AllFit quote ps := by
  induction t using Term.induct generalizing around ps with
  | mk node alias_ children ih =>
    obtain ⟨hnode, hchildren⟩ := Term.every_mk.1 ht
    rw [Term.pieces_mk] at h
    obtain ⟨qs, hqs, rfl⟩ := Option.map_eq_some_iff.1 h
    refine (shape_fit hquote hnode ?_ hqs).append ?_
    · intro part hpart rs hrs
      obtain ⟨c, hc, rfl⟩ := List.mem_map.1 hpart
      exact ih c hc (hchildren c hc) hrs
    · unfold Node.aliasPieces
      split
      · exact allFit_nil
      · split
        · exact .cons (fits_word hquote (by decide)) (Fits.only trivial)
        · exact allFit_nil

end

/-! ## Translated queries -/

theorem quoteChar_isDelimiter (d : Dialect) : IsDelimiter d.quoteChar := by
  cases d <;> first | exact .inl rfl | exact .inr rfl

namespace Translator

/-- In the SQL of a well-formed tree, as many question marks stand outside of string literals and
delimited identifiers as there are bindings; these are numbered from one and bind neither `NULL` nor
lists. It takes that no text which is written as it is has question marks or delimiters in it;
names, aliases and escape characters may have any. -/
theorem translateTree_placeholders (tr : Translator) {t t' : Tree} {query : Term}
    {rendered : RenderedSql} (h : t.WellFormed) (hquery : t.term t.root = .ok query)
    (hclean : query.EveryNode fun node => ∀ s ∈ node.fragments, Unmarked tr.dialect.quoteChar s)
    (hy : Yields tr.translateTree t (.ok rendered) t') :
    Placeholder.count rendered.sql tr.dialect.quoteChar = rendered.bindings.length ∧
      ∀ i b, rendered.bindings[i]? = some b →
        b.position = i + 1 ∧ b.value ≠ .null ∧ ∀ items, b.value ≠ .list items := by
  have hquote := quoteChar_isDelimiter tr.dialect
  obtain ⟨-, ps, hps, rfl⟩ := Term.translated_some ((translateTree_iff tr h hquery).1 ⟨t', hy⟩)
  -- A literal that a dialect brings in has apostrophes, so what is kept is weaker than `hclean`.
  have hspelled : query.EveryNode (Node.Spelled tr.dialect.quoteChar) :=
    Term.every_imp (fun node _ hn s hs => (hn s hs).neutral) hclean
  have hfit := pieces_fit hquote (Term.adapted_every (fun _ => brought_spelled hquote)
    (fun _ => wrapping_spelled hquote) tr.dialect hspelled) hps
  have htallies := Sink.putAll_tallies hquote (Sink.new_tallies tr.style) hfit
  refine ⟨?_, fun i b hb => ?_⟩
  · have hstyle := Sink.putAll_style (Sink.new tr.style) ps
    have hcounts := htallies.counts
    rw [hstyle] at hcounts
    exact count_of_counts hcounts
  · obtain ⟨hposition, hscalar⟩ := htallies.bound i b hb
    refine ⟨hposition, ?_, ?_⟩
    · intro he
      rw [he] at hscalar
      cases hscalar
    · intro items he
      rw [he] at hscalar
      cases hscalar

/-- `SELECT HOUR("a'b?") FROM "it""s ?" WHERE "a'b?" LIKE 'x?' ESCAPE ''''` -/
def quotedHour : Term :=
  .of .select [
    .of .result [.of (.call "HOUR") [.leaf (.column ⟨none, "a'b?", none⟩)]],
    .of .fromClause [.leaf (.table "it\"s ?" none none)],
    .of .whereClause [.of (.like .like false false (some '\''))
      [.leaf (.column ⟨none, "a'b?", none⟩), .value (.text "x?")]]]

theorem translateTree_placeholders_quotedHour : quotedHour.build.WellFormed ∧
    ∃ rendered t',
      Yields (translateTree ⟨.oracle, .whenNeeded⟩) quotedHour.build (.ok rendered) t' ∧
      rendered.sql = "SELECT TO_NUMBER(TO_CHAR(\"a'b?\", 'HH24')) FROM \"it\"\"s ?\""
        ++ " WHERE \"a'b?\" LIKE ? ESCAPE ''''" ∧
      Placeholder.count rendered.sql '"' = rendered.bindings.length ∧
      ∀ i b, rendered.bindings[i]? = some b →
        b.position = i + 1 ∧ b.value ≠ .null ∧ ∀ items, b.value ≠ .list items := by
  have hwf := quotedHour.build_wellFormed
  have hquery := quotedHour.build_term
  have hclean : quotedHour.EveryNode fun node => ∀ s ∈ node.fragments, Unmarked '"' s := by
    simp [quotedHour, Term.EveryNode, Term.every_mk, Term.of, Term.leaf, Term.value, Node.call,
      Node.fragments, Unmarked]
  have hsql : quotedHour.translated ⟨.oracle, .whenNeeded⟩ =
      some ⟨"SELECT TO_NUMBER(TO_CHAR(\"a'b?\", 'HH24')) FROM \"it\"\"s ?\""
        ++ " WHERE \"a'b?\" LIKE ? ESCAPE ''''", [⟨1, .text "x?", none⟩]⟩ := by
    rw [Term.translated, Term.adapted_within]
    rfl
  obtain ⟨t', hy⟩ := (translateTree_iff ⟨.oracle, .whenNeeded⟩ hwf hquery).2 hsql
  exact ⟨hwf, _, t', hy, rfl,
    translateTree_placeholders ⟨.oracle, .whenNeeded⟩ hwf hquery hclean hy⟩

end Translator
end PolyglotSql
