import PolyglotSql.Proofs.Rendering.Scanning

/-!
# PolyglotSql.Proofs.Rendering.Reading

Rendered SQL as a reader takes it apart: names, by what they name and not by how they are written,
and all else character by character, blanks left out. Names read back as what they were, however the
quoting policy writes them, if nothing follows that would go on with them (`read_quoteName`,
`read_quoteAlias`).
-/

namespace PolyglotSql

/-- What a reader of SQL tells apart. -/
inductive Lexeme where
  | name (s : String)
  /-- Any character that belongs to no name. -/
  | sign (c : Char)
deriving DecidableEq, Inhabited

namespace Lexeme

/-- What a reader is in the midst of, with the characters of a name so far, the last one first. -/
inductive Midst where
  | nothing
  | plain (seen : List Char)
  | delimited (seen : List Char)
  /-- At a quote inside of a delimited name, which ends there unless the quote is written twice. -/
  | atQuote (seen : List Char)
  | literal
deriving DecidableEq

/-- The name that ends where a reader stands, if one may. -/
def Midst.ended : Midst → List Lexeme
  | .plain seen | .atQuote seen => [.name (String.ofList seen.reverse)]
  | _ => []

/-- What begins at a character. -/
def begin_ (quote c : Char) : Midst × List Lexeme :=
  if c = quote then (.delimited [], [])
  else if Identifier.isPlainStart c then (.plain [c], [])
  else if c = '\'' then (.literal, [.sign c])
  else if c = ' ' then (.nothing, [])
  else (.nothing, [.sign c])

/-- One more character. -/
def step (quote : Char) (m : Midst) (c : Char) : Midst × List Lexeme :=
  match m with
  | .nothing => begin_ quote c
  | .plain seen =>
    if Identifier.isPlainPart c then (.plain (c :: seen), [])
    else ((begin_ quote c).1, m.ended ++ (begin_ quote c).2)
  | .delimited seen => if c = quote then (.atQuote seen, []) else (.delimited (c :: seen), [])
  | .atQuote seen =>
    if c = quote then (.delimited (c :: seen), [])
    else ((begin_ quote c).1, m.ended ++ (begin_ quote c).2)
  | .literal => if c = '\'' then (.nothing, []) else (.literal, [])

def readFrom (quote : Char) : Midst → List Char → List Lexeme
  | m, [] => m.ended
  | m, c :: cs => (step quote m c).2 ++ readFrom quote (step quote m c).1 cs

/-- The names and signs of a text. -/
def read (quote : Char) (text : List Char) : List Lexeme :=
  readFrom quote .nothing text

/-- The dotted name at the front of what was read. -/
def path : List Lexeme → List String
  | .name s :: .sign '.' :: rest => s :: path rest
  | .name s :: _ => [s]
  | _ => []

variable {quote : Char} {rest : List Char}

@[simp] theorem read_nil : read quote [] = [] := rfl

theorem read_cons (c : Char) (cs : List Char) :
    read quote (c :: cs) = (begin_ quote c).2 ++ readFrom quote (begin_ quote c).1 cs := rfl

theorem read_blank (hquote : quote ≠ ' ') (cs : List Char) :
    read quote (' ' :: cs) = read quote cs := by
  have hbegin : begin_ quote ' ' = (.nothing, []) := by
    rw [begin_, if_neg hquote.symm]
    rfl
  rw [read_cons, hbegin]
  rfl

/-- A character that begins nothing. -/
def IsSign (quote c : Char) : Prop :=
  c ≠ quote ∧ Identifier.isPlainStart c = false ∧ c ≠ '\'' ∧ c ≠ ' '

instance (quote c : Char) : Decidable (IsSign quote c) :=
  inferInstanceAs (Decidable (_ ∧ _))

theorem read_sign {c : Char} (h : IsSign quote c) (cs : List Char) :
    read quote (c :: cs) = .sign c :: read quote cs := by
  have hbegin : begin_ quote c = (.nothing, [.sign c]) := by
    simp [begin_, h.1, h.2.1, h.2.2.1, h.2.2.2]
  rw [read_cons, hbegin]
  rfl

/-! ## Names -/

/-- Nothing that goes on with a name. -/
def Apart (quote : Char) (rest : List Char) : Prop :=
  ∀ c cs, rest = c :: cs → Identifier.isPlainPart c = false ∧ c ≠ quote

theorem apart_nil : Apart quote [] := by
  intro c cs h
  cases h

theorem apart_cons {c : Char} (hpart : Identifier.isPlainPart c = false) (hquote : c ≠ quote)
    (cs : List Char) : Apart quote (c :: cs) := by
  intro d ds h
  cases h
  exact ⟨hpart, hquote⟩

/-- A plain name ends where nothing goes on with it. -/
theorem readFrom_plain (seen : List Char) (h : Apart quote rest) :
    readFrom quote (.plain seen) rest = .name (String.ofList seen.reverse) :: read quote rest := by
  cases rest with
  | nil => rfl
  | cons c cs =>
    have hc := (h c cs rfl).1
    rw [readFrom, step, if_neg (by simp [hc]), read_cons]
    rfl

theorem readFrom_atQuote (seen : List Char) (h : Apart quote rest) :
    readFrom quote (.atQuote seen) rest =
      .name (String.ofList seen.reverse) :: read quote rest := by
  cases rest with
  | nil => rfl
  | cons c cs =>
    have hc := (h c cs rfl).2
    rw [readFrom, step, if_neg hc, read_cons]
    rfl

theorem readFrom_parts {cs : List Char} (seen : List Char)
    (h : ∀ c ∈ cs, Identifier.isPlainPart c = true) :
    readFrom quote (.plain seen) (cs ++ rest) =
      readFrom quote (.plain (cs.reverse ++ seen)) rest := by
  induction cs generalizing seen with
  | nil => rfl
  | cons c cs ih =>
    rw [List.forall_mem_cons] at h
    rw [List.cons_append, readFrom, step, if_pos h.1, ih (c :: seen) h.2]
    simp

theorem read_plain {name : String} (hname : Identifier.isPlain name = true)
    (hquote : Identifier.isPlainPart quote = false) (h : Apart quote rest) :
    read quote (name.toList ++ rest) = .name name :: read quote rest := by
  obtain ⟨c, cs, hchars, hstart, hparts⟩ := Identifier.plain_chars hname
  have hc := Identifier.ne_of_part hquote (Identifier.isPlainPart_of_start hstart)
  have hbegin : begin_ quote c = (.plain [c], []) := by
    rw [begin_, if_neg hc, if_pos hstart]
  have hrevert : String.ofList (cs.reverse ++ [c]).reverse = name := by
    rw [List.reverse_append, List.reverse_reverse, List.reverse_singleton, List.singleton_append,
      ← hchars, String.ofList_toList]
  rw [hchars, List.cons_append, read_cons, hbegin, List.nil_append, readFrom_parts [c] hparts,
    readFrom_plain _ h, hrevert]

/-- The doubled quotes of a name are read as single ones. -/
theorem readFrom_double (name seen : List Char) :
    readFrom quote (.delimited seen) (QuoteStyle.double quote name ++ rest) =
      readFrom quote (.delimited (name.reverse ++ seen)) rest := by
  induction name generalizing seen with
  | nil => rfl
  | cons c name ih =>
    have hagain := ih (c :: seen)
    rw [QuoteStyle.double, List.flatMap_cons, List.append_assoc]
    rw [QuoteStyle.double] at hagain
    by_cases hc : c = quote
    · rw [if_pos hc, List.cons_append, List.cons_append, List.nil_append, readFrom, step,
        if_pos hc, List.nil_append, readFrom, step, if_pos hc, List.nil_append, hagain]
      simp
    · rw [if_neg hc, List.cons_append, List.nil_append, readFrom, step, if_neg hc,
        List.nil_append, hagain]
      simp

theorem read_delimit (name : String) (h : Apart quote rest) :
    read quote ((QuoteStyle.delimit quote name).toList ++ rest) =
      .name name :: read quote rest := by
  have hbegin : begin_ quote quote = (.delimited [], []) := by
    rw [begin_, if_pos rfl]
  rw [QuoteStyle.delimit, String.toList_ofList, List.cons_append, List.cons_append, read_cons,
    hbegin, List.nil_append, List.append_assoc, readFrom_double, List.singleton_append, readFrom,
    step, if_pos rfl, List.nil_append, readFrom_atQuote _ h]
  simp

variable {style : QuoteStyle}

theorem read_quoteName (name : String) (hquote : Identifier.isPlainPart style.quote = false)
    (h : Apart style.quote rest) :
    read style.quote ((style.quoteName name).toList ++ rest) =
      .name name :: read style.quote rest := by
  unfold QuoteStyle.quoteName
  split
  · exact read_delimit name h
  · rename_i hno
    exact read_plain (QuoteStyle.isPlain_of_bareName hno) hquote h

theorem read_quoteAlias (alias_ : String) (hquote : Identifier.isPlainPart style.quote = false)
    (h : Apart style.quote rest) :
    read style.quote ((style.quoteAlias alias_).toList ++ rest) =
      .name alias_ :: read style.quote rest := by
  unfold QuoteStyle.quoteAlias
  split
  · exact read_delimit alias_ h
  · rename_i hno
    exact read_plain (QuoteStyle.isPlain_of_bareAlias hno) hquote h

end Lexeme
end PolyglotSql
