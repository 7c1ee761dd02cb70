import Mathlib.Data.List.Chain
import PolyglotSql.Proofs.Rendering.Writing

/-!
# PolyglotSql.Proofs.Rendering.Verbatim

Rendered SQL as a reader takes it apart that leaves nothing out: names, by what they name and not by
how they are written, and all else character by character, blanks and the insides of string literals
included (`Lexeme.verbatim`). Two modes of quoting write texts that read the same, if what is
written as it is leaves no delimiter open (`Placeholder.Balanced`) and no name touches another name,
or a character that may go on with it (`Piece.Parted`).
-/

namespace PolyglotSql

/-! ## Texts that leave no delimiter open -/

namespace Placeholder

/-- A text that leaves no delimiter open. -/
def Balanced (quote : Char) (s : String) : Prop :=
  ∃ k, Counts quote s.toList k

/-- A text without apostrophes and without the delimiter of identifiers. -/
def Quoteless (quote : Char) (s : String) : Prop :=
  '\'' ∉ s.toList ∧ quote ∉ s.toList

instance (quote : Char) (s : String) : Decidable (Quoteless quote s) :=
  inferInstanceAs (Decidable (_ ∧ _))

variable {quote : Char} {s s' : String}

theorem Neutral.balanced (h : Neutral quote s) : Balanced quote s :=
  ⟨0, h⟩

theorem Balanced.append (h : Balanced quote s) (h' : Balanced quote s') :
    Balanced quote (s ++ s') := by
  obtain ⟨k, hk⟩ := h
  obtain ⟨k', hk'⟩ := h'
  refine ⟨k + k', ?_⟩
  rw [String.toList_append]
  exact hk.append hk'

theorem counts_quoteless (hmark : quote ≠ '?') {s : List Char} (hapostrophe : '\'' ∉ s)
    (hquote : quote ∉ s) : ∃ k, Counts quote s k := by
  induction s with
  | nil => exact ⟨0, counts_nil⟩
  | cons c s ih =>
    rw [List.mem_cons, not_or] at hapostrophe hquote
    obtain ⟨k, hk⟩ := ih hapostrophe.2 hquote.2
    by_cases hc : c = '?'
    · rw [hc]
      exact ⟨1 + k, (counts_mark hmark).append hk⟩
    · have hother := counts_other hc (Ne.symm hapostrophe.1) (Ne.symm hquote.1)
      exact ⟨0 + k, hother.append hk⟩

theorem Quoteless.balanced (hquote : IsDelimiter quote) (h : Quoteless quote s) :
    Balanced quote s := by
  have hmark : quote ≠ '?' := by
    rcases hquote with rfl | rfl <;> decide
  exact counts_quoteless hmark h.1 h.2

end Placeholder

open Placeholder

/-! ## Reading everything -/

namespace Lexeme

/-- What a character is read as besides: one inside of a literal, and a blank outside of names, as
itself. -/
def besides : Midst → Char → List Lexeme
  | .literal, c => [.sign c]
  | .delimited _, _ => []
  | _, c => if c = ' ' then [.sign c] else []

def verbatimFrom (quote : Char) : Midst → List Char → List Lexeme
  | m, [] => m.ended
  | m, c :: cs => (step quote m c).2 ++ besides m c ++ verbatimFrom quote (step quote m c).1 cs

/-- The names of a text and all of its other characters. -/
def verbatim (quote : Char) (text : List Char) : List Lexeme :=
  verbatimFrom quote .nothing text

example : verbatim '"' "a.\"b c\" = 'a \"b\"'".toList =
    [.name "a", .sign '.', .name "b c", .sign ' ', .sign '=', .sign ' ', .sign '\'', .sign 'a',
      .sign ' ', .sign '"', .sign 'b', .sign '"', .sign '\''] := by decide

/-- The delimiter that a reader is inside of. -/
def Midst.inside (quote : Char) : Midst → Option Char
  | .delimited _ => some quote
  | .literal => some '\''
  | _ => none

def after (quote : Char) (m : Midst) (s : List Char) : Midst :=
  s.foldl (fun m c => (step quote m c).1) m

/-- A character with which no name goes on. -/
def EndsNames (quote c : Char) : Prop :=
  Identifier.isPlainPart c = false ∧ c ≠ quote

variable {quote c : Char} {m : Midst} {rest rest' : List Char}

/-- A character that begins nothing. -/
theorem begin_nothing (hquote : c ≠ quote) (hstart : Identifier.isPlainStart c = false)
    (hliteral : c ≠ '\'') : (begin_ quote c).1 = .nothing := by
  simp only [begin_, hquote, hstart, hliteral, if_false, Bool.false_eq_true]
  split <;> rfl

theorem begin_inside (n : Nat) :
    (begin_ quote c).1.inside quote = (Scan.step quote ⟨none, n⟩ c).inside := by
  by_cases hc : c = quote
  · simp [hc, begin_, Midst.inside, Scan.step]
  · by_cases ha : c = '\''
    · have hstart : Identifier.isPlainStart '\'' = false := by decide
      subst ha
      simp [hc, hstart, begin_, Midst.inside, Scan.step]
    · have hscan : (Scan.step quote ⟨none, n⟩ c).inside = none := by
        simp [Scan.step, hc, ha, apply_ite Scan.inside]
      rw [hscan]
      cases hs : Identifier.isPlainStart c with
      | true => simp [begin_, hc, hs, Midst.inside]
      | false =>
        rw [begin_nothing hc hs ha]
        rfl

/-- A reader is inside of a delimiter where a scan is. -/
theorem step_inside (hquote : IsDelimiter quote) (n : Nat) :
    (step quote m c).1.inside quote = (Scan.step quote ⟨m.inside quote, n⟩ c).inside := by
  have hbegin : (begin_ quote c).1.inside quote = _ := begin_inside n
  cases m with
  | nothing => exact hbegin
  | plain seen =>
    unfold step
    dsimp only
    split
    · rename_i hpart
      have hother : c ≠ '\'' ∧ c ≠ quote := by
        constructor
        · rintro rfl
          exact absurd hpart (by decide)
        · rintro rfl
          rw [isPlainPart_quote hquote] at hpart
          cases hpart
      simp [Midst.inside, Scan.step, hother, apply_ite Scan.inside]
    · exact hbegin
  | delimited seen =>
    unfold step
    by_cases hc : c = quote <;> simp [hc, Midst.inside, Scan.step]
  | atQuote seen =>
    unfold step
    by_cases hc : c = quote
    · simp [hc, Midst.inside, Scan.step]
    · simp only [hc, if_false]
      exact hbegin
  | literal =>
    unfold step
    by_cases hc : c = '\'' <;> simp [hc, Midst.inside, Scan.step]

theorem after_inside (hquote : IsDelimiter quote) (s : List Char) (n : Nat) :
    (after quote m s).inside quote =
      (s.foldl (Scan.step quote) ⟨m.inside quote, n⟩).inside := by
  induction s generalizing m n with
  | nil => rfl
  | cons c s ih =>
    have hscan : (⟨(step quote m c).1.inside quote, (Scan.step quote ⟨m.inside quote, n⟩ c).count⟩
        : Scan) = Scan.step quote ⟨m.inside quote, n⟩ c := by
      rw [step_inside hquote n]
    have hrest := ih (m := (step quote m c).1) (n := (Scan.step quote ⟨m.inside quote, n⟩ c).count)
    rwa [hscan] at hrest

/-- Outside of delimiters, a character that ends names leaves nothing unfinished. -/
theorem step_ends (hc : EndsNames quote c) (h : (step quote m c).1.inside quote = none) :
    (step quote m c).1 = .nothing := by
  obtain ⟨hpart, hne⟩ := hc
  have hstart : Identifier.isPlainStart c = false := by
    rw [← Bool.not_eq_true]
    intro hs
    rw [Identifier.isPlainPart_of_start hs] at hpart
    cases hpart
  have hbegin (h : (begin_ quote c).1.inside quote = none) : (begin_ quote c).1 = .nothing := by
    by_cases ha : c = '\''
    · subst ha
      simp [begin_, hne, hstart, Midst.inside] at h
    · exact begin_nothing hne hstart ha
  cases m with
  | nothing => exact hbegin h
  | plain seen =>
    simp only [step, hpart] at h ⊢
    exact hbegin h
  | delimited seen => simp [step, hne, Midst.inside] at h
  | atQuote seen =>
    simp only [step, hne, if_false] at h ⊢
    exact hbegin h
  | literal =>
    by_cases ha : c = '\''
    · simp [step, ha]
    · simp [step, ha, Midst.inside] at h

/-- Texts read the same behind the same beginning, if they do from where it ends. -/
theorem verbatimFrom_append (s : List Char)
    (h : verbatimFrom quote (after quote m s) rest = verbatimFrom quote (after quote m s) rest') :
    verbatimFrom quote m (s ++ rest) = verbatimFrom quote m (s ++ rest') := by
  induction s generalizing m with
  | nil => exact h
  | cons c s ih =>
    rw [List.cons_append, List.cons_append, verbatimFrom, verbatimFrom, ih h]

/-! ## Names -/

theorem verbatimFrom_plain (seen : List Char) (h : Apart quote rest) :
    verbatimFrom quote (.plain seen) rest =
      .name (String.ofList seen.reverse) :: verbatim quote rest := by
  cases rest with
  | nil => rfl
  | cons c cs =>
    have hc := (h c cs rfl).1
    simp [verbatim, verbatimFrom, step, hc, Midst.ended, besides]

theorem verbatimFrom_atQuote (seen : List Char) (h : Apart quote rest) :
    verbatimFrom quote (.atQuote seen) rest =
      .name (String.ofList seen.reverse) :: verbatim quote rest := by
  cases rest with
  | nil => rfl
  | cons c cs =>
    have hc := (h c cs rfl).2
    simp [verbatim, verbatimFrom, step, hc, Midst.ended, besides]

theorem ne_blank_of_part (h : Identifier.isPlainPart c = true) : c ≠ ' ' := by
  rintro rfl
  exact absurd h (by decide)

theorem verbatimFrom_parts {cs : List Char} (seen : List Char)
    (h : ∀ c ∈ cs, Identifier.isPlainPart c = true) :
    verbatimFrom quote (.plain seen) (cs ++ rest) =
      verbatimFrom quote (.plain (cs.reverse ++ seen)) rest := by
  induction cs generalizing seen with
  | nil => rfl
  | cons c cs ih =>
    rw [List.forall_mem_cons] at h
    have hblank := ne_blank_of_part h.1
    rw [List.cons_append, verbatimFrom, step, if_pos h.1, ih (c :: seen) h.2]
    simp [besides, hblank]

theorem verbatim_plain {name : String} (hname : Identifier.isPlain name = true)
    (hquote : Identifier.isPlainPart quote = false) (h : Apart quote rest) :
    verbatim quote (name.toList ++ rest) = .name name :: verbatim quote rest := by
  obtain ⟨c, cs, hchars, hstart, hparts⟩ := Identifier.plain_chars hname
  have hpart := Identifier.isPlainPart_of_start hstart
  have hblank := ne_blank_of_part hpart
  have hc := Identifier.ne_of_part hquote hpart
  have hfirst : verbatim quote (c :: (cs ++ rest)) =
      verbatimFrom quote (.plain [c]) (cs ++ rest) := by
    simp [verbatim, verbatimFrom, step, begin_, hc, hstart, besides, hblank]
  have hrevert : String.ofList (cs.reverse ++ [c]).reverse = name := by
    rw [List.reverse_append, List.reverse_reverse, List.reverse_singleton, List.singleton_append,
      ← hchars, String.ofList_toList]
  rw [hchars, List.cons_append, hfirst, verbatimFrom_parts [c] hparts, verbatimFrom_plain _ h,
    hrevert]

theorem ne_blank_of_delimiter (hquote : IsDelimiter quote) : quote ≠ ' ' := by
  rcases hquote with rfl | rfl <;> decide

/-- The doubled quotes of a name are read as single ones, and its blanks as part of it. -/
theorem verbatimFrom_double (hquote : IsDelimiter quote) (name seen : List Char) :
    verbatimFrom quote (.delimited seen) (QuoteStyle.double quote name ++ rest) =
      verbatimFrom quote (.delimited (name.reverse ++ seen)) rest := by
  induction name generalizing seen with
  | nil => rfl
  | cons c name ih =>
    have hagain := ih (c :: seen)
    have hblank := ne_blank_of_delimiter hquote
    rw [QuoteStyle.double, List.flatMap_cons, List.append_assoc]
    rw [QuoteStyle.double] at hagain
    by_cases hc : c = quote
    · subst hc
      simp [verbatimFrom, step, besides, hblank, hagain]
    · simp [hc, verbatimFrom, step, besides, hagain]

theorem verbatim_delimit (hquote : IsDelimiter quote) (name : String) (h : Apart quote rest) :
    verbatim quote ((QuoteStyle.delimit quote name).toList ++ rest) =
      .name name :: verbatim quote rest := by
  have hblank := ne_blank_of_delimiter hquote
  have hopen (cs : List Char) :
      verbatim quote (quote :: cs) = verbatimFrom quote (.delimited []) cs := by
    simp [verbatim, verbatimFrom, step, begin_, besides, hblank]
  have hclose (seen cs : List Char) : verbatimFrom quote (.delimited seen) (quote :: cs) =
      verbatimFrom quote (.atQuote seen) cs := by
    simp [verbatimFrom, step, besides]
  rw [QuoteStyle.delimit, String.toList_ofList, List.cons_append, List.cons_append, hopen,
    List.append_assoc, verbatimFrom_double hquote, List.singleton_append, hclose,
    verbatimFrom_atQuote _ h]
  simp

section

variable (style : QuoteStyle)

/-- A name reads as what it names, however it is written. -/
theorem verbatim_quoteName (hquote : IsDelimiter style.quote) (name : String)
    (h : Apart style.quote rest) :
    verbatim style.quote ((style.quoteName name).toList ++ rest) =
      .name name :: verbatim style.quote rest := by
  unfold QuoteStyle.quoteName
  split
  · exact verbatim_delimit hquote name h
  · rename_i hno
    exact verbatim_plain (QuoteStyle.isPlain_of_bareName hno) (isPlainPart_quote hquote) h

theorem verbatim_quoteAlias (hquote : IsDelimiter style.quote) (alias_ : String)
    (h : Apart style.quote rest) :
    verbatim style.quote ((style.quoteAlias alias_).toList ++ rest) =
      .name alias_ :: verbatim style.quote rest := by
  unfold QuoteStyle.quoteAlias
  split
  · exact verbatim_delimit hquote alias_ h
  · rename_i hno
    exact verbatim_plain (QuoteStyle.isPlain_of_bareAlias hno) (isPlainPart_quote hquote) h

end
end Lexeme

open Lexeme

/-! ## Pieces -/

namespace Piece

/-- The characters of a piece, but for an identifier, which is one thing. -/
def glyphs : Piece → List (Option Char)
  | .raw s => s.toList.map some
  | .name _ | .alias_ _ => [none]
  | .bound _ _ => [some '?']

/-- Neither an identifier nor a character with which one goes on. -/
def Severed (quote : Char) (g : Option Char) : Prop :=
  ∃ c, g = some c ∧ EndsNames quote c

/-- What may stand side by side: characters, and an identifier beside what severs it. -/
def Meets (quote : Char) (g g' : Option Char) : Prop :=
  (g.isSome ∧ g'.isSome) ∨ Severed quote g ∨ Severed quote g'

/-- Pieces in which every identifier stands apart. -/
def Parted (quote : Char) (ps : List Piece) : Prop :=
  (ps.flatMap glyphs).IsChain (Meets quote)

/-- Pieces of which none leaves a delimiter open. -/
def AllClosed (quote : Char) (ps : List Piece) : Prop :=
  ∀ s, raw s ∈ ps → Balanced quote s

variable {quote : Char} {ps : List Piece}

theorem severed_of_meets {g : Option Char} (h : Meets quote g none) : Severed quote g := by
  rcases h with ⟨-, h⟩ | h | ⟨c, h, -⟩
  · cases h
  · exact h
  · cases h

theorem severed_of_meets' {g : Option Char} (h : Meets quote none g) : Severed quote g := by
  rcases h with ⟨h, -⟩ | ⟨c, h, -⟩ | h
  · cases h
  · cases h
  · exact h

theorem apart_written (style : QuoteStyle)
    (h : ∀ g ∈ (ps.flatMap glyphs).head?, Severed style.quote g) :
    Apart style.quote (written style ps) := by
  induction ps with
  | nil => exact apart_nil
  | cons p ps ih =>
    have hchar {c : Char} {cs : List Char} (hc : Severed style.quote (some c)) :
        Apart style.quote (c :: cs) := by
      obtain ⟨d, hd, hends⟩ := hc
      cases hd
      exact apart_cons hends.1 hends.2 cs
    cases p with
    | raw s =>
      rw [written_cons, chars]
      cases hs : s.toList with
      | nil => exact ih (by simpa [glyphs, hs] using h)
      | cons c cs => exact hchar (h (some c) (by simp [glyphs, hs]))
    | bound value column => exact hchar (h (some '?') (by simp [glyphs]))
    | name s =>
      obtain ⟨c, hc, -⟩ := h none (by simp [glyphs])
      cases hc
    | alias_ s =>
      obtain ⟨c, hc, -⟩ := h none (by simp [glyphs])
      cases hc

/-- A reader that has passed some characters is in the midst of nothing, if an identifier may
follow. -/
theorem after_severed {m : Midst} {cs : List Char} (hm : m = .nothing ∨ cs ≠ [])
    (hlast : ∀ c ∈ cs.getLast?, EndsNames quote c) (h : (after quote m cs).inside quote = none) :
    after quote m cs = .nothing := by
  rcases List.eq_nil_or_concat cs with rfl | ⟨cs, c, rfl⟩
  · exact hm.resolve_right fun hne => hne rfl
  · have hc := hlast c (by simp)
    rw [after, List.concat_eq_append, List.foldl_append] at h ⊢
    exact step_ends hc h

/-- Pieces read the same under all modes, from wherever outside of delimiters a reader comes to
them, and from the midst of nothing if an identifier comes first. -/
theorem verbatimFrom_written (hquote : IsDelimiter quote) (mode mode' : QuoteMode)
    (hclosed : AllClosed quote ps) (hparted : Parted quote ps) {m : Midst}
    (hm : m.inside quote = none) (hfirst : none ∈ (ps.flatMap glyphs).head? → m = .nothing) :
    verbatimFrom quote m (written ⟨mode, quote⟩ ps) =
      verbatimFrom quote m (written ⟨mode', quote⟩ ps) := by
  -- By induction on the pieces, from wherever the one before leaves the reader. In front of an
  -- identifier that has to be the midst of nothing, or the name would go on with it.
  induction ps generalizing m with
  | nil => rfl
  | cons p ps ih =>
    have hrest : AllClosed quote ps := fun s hs => hclosed s (by simp [hs])
    rw [Parted, List.flatMap_cons, List.isChain_append] at hparted
    obtain ⟨-, hparted, hseam⟩ := hparted
    -- Characters are the same under both modes and leave the reader outside of delimiters.
    have hblock (cs : List Char) (hglyphs : p.glyphs = cs.map some)
        (hinside : (after quote m cs).inside quote = none) :
        verbatimFrom quote m (cs ++ written ⟨mode, quote⟩ ps) =
          verbatimFrom quote m (cs ++ written ⟨mode', quote⟩ ps) := by
      refine verbatimFrom_append cs (ih hrest hparted hinside fun hname => ?_)
      refine after_severed ?_ (fun c hc => ?_) hinside
      · by_cases hcs : cs = []
        · left
          refine hfirst ?_
          rwa [List.flatMap_cons, hglyphs, hcs, List.map_nil, List.nil_append]
        · exact .inr hcs
      · have hmeets := hseam (some c) (by simpa [hglyphs] using hc) _ hname
        obtain ⟨d, hd, hends⟩ := severed_of_meets hmeets
        cases hd
        exact hends
    -- An identifier reads as its name, since what follows severs it.
    have hnamed {s s' : String} {n : String} (hglyphs : p.glyphs = [none])
        (h : ∀ rest, Apart quote rest →
          verbatim quote (s.toList ++ rest) = .name n :: verbatim quote rest)
        (h' : ∀ rest, Apart quote rest →
          verbatim quote (s'.toList ++ rest) = .name n :: verbatim quote rest) :
        verbatimFrom quote m (s.toList ++ written ⟨mode, quote⟩ ps) =
          verbatimFrom quote m (s'.toList ++ written ⟨mode', quote⟩ ps) := by
      have hsevered : ∀ g ∈ (ps.flatMap glyphs).head?, Severed quote g := fun g hg =>
        severed_of_meets' (hseam none (by simp [hglyphs]) g hg)
      have hnone : none ∉ (ps.flatMap glyphs).head? := by
        intro hg
        obtain ⟨c, hc, -⟩ := hsevered none hg
        cases hc
      obtain rfl : m = .nothing := hfirst (by simp [hglyphs])
      have hagain := ih hrest hparted (m := .nothing) rfl fun hg => absurd hg hnone
      calc verbatim quote (s.toList ++ written ⟨mode, quote⟩ ps)
          = .name n :: verbatim quote (written ⟨mode, quote⟩ ps) :=
            h _ (apart_written ⟨mode, quote⟩ hsevered)
        _ = .name n :: verbatim quote (written ⟨mode', quote⟩ ps) := congrArg _ hagain
        _ = verbatim quote (s'.toList ++ written ⟨mode', quote⟩ ps) :=
            (h' _ (apart_written ⟨mode', quote⟩ hsevered)).symm
    cases p with
    | raw s =>
      obtain ⟨k, hk⟩ := hclosed s (by simp)
      refine hblock s.toList rfl ?_
      rw [after_inside hquote s.toList 0, hm, hk 0]
    | bound value column =>
      have hmark : quote ≠ '?' := by
        rcases hquote with rfl | rfl <;> decide
      refine hblock ['?'] rfl ?_
      rw [after_inside hquote ['?'] 0, hm, counts_mark hmark 0]
    | name s =>
      exact hnamed rfl (fun _ => verbatim_quoteName ⟨mode, quote⟩ hquote s)
        (fun _ => verbatim_quoteName ⟨mode', quote⟩ hquote s)
    | alias_ s =>
      exact hnamed rfl (fun _ => verbatim_quoteAlias ⟨mode, quote⟩ hquote s)
        (fun _ => verbatim_quoteAlias ⟨mode', quote⟩ hquote s)

/-- Pieces read the same under all modes of quoting. -/
theorem verbatim_written (hquote : IsDelimiter quote) (mode mode' : QuoteMode)
    (hclosed : AllClosed quote ps) (hparted : Parted quote ps) :
    verbatim quote (written ⟨mode, quote⟩ ps) = verbatim quote (written ⟨mode', quote⟩ ps) :=
  verbatimFrom_written hquote mode mode' hclosed hparted rfl fun _ => rfl

end Piece
end PolyglotSql
