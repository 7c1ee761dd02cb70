import PolyglotSql.Proofs.Rendering.Placeholders
import PolyglotSql.Proofs.Rendering.Reading

/-!
# PolyglotSql.Proofs.Rendering.Writing

The text of a rendered query, piece by piece. What is written of a part of a term stands in the text
of the term (`separated_split`, `listed_split`), and the names of a table read back wherever what
follows severs them from it (`path_tablePieces`).
-/

namespace PolyglotSql

namespace Piece

/-- A piece as a quoting policy writes it. -/
def chars (style : QuoteStyle) : Piece → List Char
  | .raw s => s.toList
  | .name s => (style.quoteName s).toList
  | .alias_ s => (style.quoteAlias s).toList
  | .bound _ _ => ['?']

/-- The text of some pieces. -/
def written (style : QuoteStyle) (ps : List Piece) : List Char :=
  ps.flatMap (chars style)

variable {style : QuoteStyle}

@[simp] theorem written_nil : written style [] = [] := rfl

@[simp] theorem written_cons (p : Piece) (ps : List Piece) :
    written style (p :: ps) = p.chars style ++ written style ps := rfl

@[simp] theorem written_append (ps qs : List Piece) :
    written style (ps ++ qs) = written style ps ++ written style qs :=
  List.flatMap_append

end Piece

open Piece

theorem Sink.putAll_written (s : Sink) (ps : List Piece) :
    (s.putAll ps).sql.toList = s.sql.toList ++ written s.style ps := by
  induction ps generalizing s with
  | nil => simp
  | cons p ps ih =>
    rw [putAll_cons, ih, put_style, written_cons, ← List.append_assoc]
    congr 1
    cases p <;> simp [put, text, identifier, alias_, chars]

/-- The text of a finished rendering. -/
theorem Sink.finish_written (style : QuoteStyle) (ps : List Piece) :
    ((Sink.new style).putAll ps).finish.sql.toList = written style ps := by
  rw [finish, putAll_written]
  rfl

/-! ## Parts -/

/-- A part stands between those before it and those behind it. -/
theorem Part.separated_split {between : Nat → Term → Term → String} {before after : List Part}
    {p : Part} {index : Nat} {last : Option Term} {ps : List Piece}
    (h : separated between index last (before ++ p :: after) = some ps) :
    ∃ front own rest next, p.pieces = some own ∧
      separated between next (some p.term) after = some rest ∧ ps = front ++ (own ++ rest) := by
  induction before generalizing index last ps with
  | nil =>
    obtain ⟨own, rest, hown, hrest, rfl⟩ := separated_cons.1 h
    exact ⟨_, own, rest, _, hown, hrest, rfl⟩
  | cons q before ih =>
    obtain ⟨first, others, -, hothers, rfl⟩ := separated_cons.1 h
    obtain ⟨front, own, rest, next, hown, hrest, rfl⟩ := ih hothers
    refine ⟨lead between index last q.term ++ (first ++ front), own, rest, next, hown, hrest, ?_⟩
    simp only [List.append_assoc]

/-- What a node writes that lists its parts, at one of them. -/
theorem Term.listed_split {around : Around} {node : Node} {before after : List Term} {t : Term}
    {ps opening closing : List Piece} {between : Nat → Term → Term → String}
    (hform : node.form around = .listed opening between closing)
    (h : pieces around (.mk node none (before ++ t :: after)) = some ps) :
    ∃ front own rest next,
      t.pieces (around.below node (before ++ t :: after)) = some own ∧
      Part.separated between next (some t)
        (after.map fun u => ⟨u, u.pieces (around.below node (before ++ t :: after))⟩) = some rest ∧
      ps = front ++ (own ++ (rest ++ closing)) := by
  rw [pieces_mk] at h
  obtain ⟨qs, hqs, rfl⟩ := Option.map_eq_some_iff.1 h
  simp only [Node.shape, hform, List.map_append, List.map_cons] at hqs
  obtain ⟨inner, hinner, rfl⟩ := Option.map_eq_some_iff.1 hqs
  obtain ⟨front, own, rest, next, hown, hrest, rfl⟩ := Part.separated_split hinner
  refine ⟨opening ++ front, own, rest, next, hown, hrest, ?_⟩
  simp

/-! ## What severs names from the rest -/

namespace Lexeme

/-- A text that goes on with no dotted name in front of it: it is empty, or begins with a comma, a
closing bracket, or a blank and then a name. -/
def Severs (quote : Char) : List Char → Prop
  | [] => True
  | ' ' :: c :: _ => Identifier.isPlainStart c = true ∨ c = quote
  | c :: _ => c = ',' ∨ c = ')'

variable {quote : Char} {s s' rest : List Char}

theorem severs_cons {c : Char} (cs : List Char) (h : c = ',' ∨ c = ')') :
    Severs quote (c :: cs) := by
  unfold Severs
  split
  · rename_i he
    cases he
  · rename_i he
    cases he
    rcases h with h | h <;> cases h
  · rename_i he
    cases he
    exact h

/-- Whether a text begins with something that severs. -/
def opens : List Char → Bool
  | ' ' :: c :: _ => Identifier.isPlainStart c
  | c :: _ => c == ',' || c == ')'
  | [] => false

theorem severs_of_opens (h : opens s = true) (s' : List Char) : Severs quote (s ++ s') := by
  unfold opens at h
  split at h
  · exact .inl h
  · exact severs_cons _ (by simpa using h)
  · cases h

theorem Severs.append (h : Severs quote s) (h' : Severs quote s') : Severs quote (s ++ s') := by
  unfold Severs at h
  split at h
  · exact h'
  · exact h
  · exact severs_cons _ h

theorem Severs.apart (hquote : Placeholder.IsDelimiter quote) (h : Severs quote rest) :
    Apart quote rest := by
  have hnot {c : Char} (hc : c = ' ' ∨ c = ',' ∨ c = ')') (cs : List Char) :
      Apart quote (c :: cs) := by
    rcases hc with rfl | rfl | rfl <;> rcases hquote with rfl | rfl <;>
      exact apart_cons (by decide) (by decide) cs
  unfold Severs at h
  split at h
  · exact apart_nil
  · exact hnot (.inl rfl) _
  · exact hnot (.inr h) _

/-- A name goes on with nothing but a dot. -/
theorem path_name (a : String) {ls : List Lexeme} (h : ∀ rest, ls ≠ .sign '.' :: rest) :
    path (.name a :: ls) = [a] := by
  unfold path
  split
  · rename_i he
    cases he
    exact absurd rfl (h _)
  · rename_i he
    cases he
    rfl
  · rename_i hno
    exact absurd rfl (hno a ls)

/-- Within a name, the next lexeme is a name. -/
theorem readFrom_within {m : Midst} (hm : m ≠ .nothing ∧ m ≠ .literal) (cs : List Char) (c : Char)
    (ls : List Lexeme) : readFrom quote m cs ≠ .sign c :: ls := by
  induction cs generalizing m with
  | nil =>
    intro h
    cases m <;> first | exact hm.1 rfl | exact hm.2 rfl | cases h
  | cons d cs ih =>
    rw [readFrom]
    cases m with
    | nothing => exact absurd rfl hm.1
    | literal => exact absurd rfl hm.2
    | plain seen =>
      unfold step
      dsimp only
      split
      · exact ih (by simp)
      · simp [Midst.ended]
    | delimited seen =>
      unfold step
      dsimp only
      split
      · exact ih (by simp)
      · exact ih (by simp)
    | atQuote seen =>
      unfold step
      dsimp only
      split
      · exact ih (by simp)
      · simp [Midst.ended]

theorem Severs.no_dot (hquote : Placeholder.IsDelimiter quote) (h : Severs quote rest)
    (ls : List Lexeme) : read quote rest ≠ .sign '.' :: ls := by
  have hblank : quote ≠ ' ' := by
    rcases hquote with rfl | rfl <;> decide
  have hsign {c : Char} (hc : c = ',' ∨ c = ')') : IsSign quote c ∧ c ≠ '.' := by
    rcases hc with rfl | rfl <;> rcases hquote with rfl | rfl <;> decide
  unfold Severs at h
  split at h
  · simp
  · rename_i c cs
    rw [read_blank hblank, read_cons, begin_]
    split
    · exact readFrom_within (by simp) cs '.' ls
    · rename_i hc
      rw [if_pos (h.resolve_right hc)]
      exact readFrom_within (by simp) cs '.' ls
  · rename_i c cs _
    obtain ⟨hc, hdot⟩ := hsign h
    rw [read_sign hc]
    simp [hdot]

theorem isPlainPart_quote (hquote : Placeholder.IsDelimiter quote) :
    Identifier.isPlainPart quote = false := by
  rcases hquote with rfl | rfl <;> decide

/-! ## Tables -/

variable {style : QuoteStyle}

/-- An alias stands behind a blank, which severs it from what is in front. -/
theorem severs_alias (alias_ : String) :
    Severs style.quote (' ' :: ((style.quoteAlias alias_).toList ++ rest)) := by
  have hfirst : ∃ c cs, (style.quoteAlias alias_).toList = c :: cs ∧
      (Identifier.isPlainStart c = true ∨ c = style.quote) := by
    unfold QuoteStyle.quoteAlias
    split
    · rw [QuoteStyle.delimit, String.toList_ofList]
      exact ⟨_, _, rfl, .inr rfl⟩
    · rename_i hno
      obtain ⟨c, cs, hchars, hstart, -⟩ :=
        Identifier.plain_chars (QuoteStyle.isPlain_of_bareAlias hno)
      exact ⟨c, cs, hchars, .inl hstart⟩
  obtain ⟨c, cs, hchars, hc⟩ := hfirst
  rw [hchars]
  exact hc

/-- The names of a table read back, the schema apart from the table. -/
theorem path_tablePieces (hquote : Placeholder.IsDelimiter style.quote) (name : String)
    (schema alias_ : Option String) (h : Severs style.quote rest) :
    path (read style.quote (written style (Node.tablePieces name schema alias_) ++ rest)) =
      schema.toList ++ [name] := by
  have hpart := isPlainPart_quote hquote
  have htable : ∃ tail, Severs style.quote tail ∧
      written style (Node.tablePieces name none alias_) ++ rest =
        (style.quoteName name).toList ++ tail := by
    cases alias_ with
    | none => exact ⟨rest, h, by simp [Node.tablePieces, chars]⟩
    | some a =>
      exact ⟨' ' :: ((style.quoteAlias a).toList ++ rest), severs_alias a,
        by simp [Node.tablePieces, chars]⟩
  obtain ⟨tail, htail, htable⟩ := htable
  have hname : path (read style.quote ((style.quoteName name).toList ++ tail)) = [name] := by
    rw [read_quoteName name hpart (htail.apart hquote)]
    exact path_name name fun ls => htail.no_dot hquote ls
  cases schema with
  | none =>
    rw [htable, hname]
    rfl
  | some schema =>
    have hdot : Apart style.quote ('.' :: ((style.quoteName name).toList ++ tail)) := by
      rcases hquote with he | he <;> rw [he] <;> exact apart_cons (by decide) (by decide) _
    have hsign : IsSign style.quote '.' := by
      rcases hquote with he | he <;> rw [he] <;> decide
    have hschema : written style (Node.tablePieces name (some schema) alias_) ++ rest =
        (style.quoteName schema).toList ++ '.' :: ((style.quoteName name).toList ++ tail) := by
      rw [← htable]
      simp [Node.tablePieces, chars]
    rw [hschema, read_quoteName schema hpart hdot, read_sign hsign, path, hname]
    rfl

end Lexeme

open Lexeme

variable {style : QuoteStyle}

/-- Parts that are severed, each with what stands in front of it, are severed together. -/
theorem Part.separated_severs {between : Nat → Term → Term → String} {parts : List Part}
    (hparts : ∀ p ∈ parts, ∀ own, p.pieces = some own → ∀ i b,
      Severs style.quote ((between i b p.term).toList ++ written style own))
    {index : Nat} {last : Term} {ps : List Piece}
    (h : separated between index (some last) parts = some ps) :
    Severs style.quote (written style ps) := by
  induction parts generalizing index last ps with
  | nil =>
    simp only [separated, Option.some.injEq] at h
    subst h
    exact trivial
  | cons p parts ih =>
    obtain ⟨own, rest, hown, hrest, rfl⟩ := separated_cons.1 h
    have hp := hparts p (by simp) own hown index last
    have := hp.append (ih (fun q hq => hparts q (by simp [hq])) hrest)
    simpa [lead, chars] using this

end PolyglotSql
