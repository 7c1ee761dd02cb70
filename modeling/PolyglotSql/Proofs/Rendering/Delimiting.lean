import PolyglotSql.Proofs.Rendering.Scanning

/-!
# PolyglotSql.Proofs.Rendering.Delimiting

A reader of one identifier (`Identifier.token`) and what the quoting policy writes for a name. The
reader finds the end of a delimited name by its quotes alone (`scan_double`), so it gets back every
name from what is written for it, whatever the name is made of, and no name ends before its text
does (`quoted_token`).
-/

namespace PolyglotSql

namespace Identifier

/-- The text begins with a quote. -/
def Delimited (quote : Char) (text : String) : Prop :=
  text.toList.head? = some quote

instance (quote : Char) (text : String) : Decidable (Delimited quote text) :=
  inferInstanceAs (Decidable (_ = _))

/-- A delimited name behind its first quote and what follows its last one, which is the first that
no other quote follows; two quotes stand for one. Nothing if the name does not end. -/
def scan (quote : Char) : List Char → Option (List Char × List Char)
  | [] => none
  | c :: rest =>
    if c = quote then
      match rest with
      | [] => some ([], [])
      | d :: behind =>
        if d = quote then (scan quote behind).map (Prod.map (quote :: ·) id) else some ([], rest)
    else (scan quote rest).map (Prod.map (c :: ·) id)

/-- The identifier that a text begins with and what follows it: a delimited name, or else the text
as it is. -/
def token (quote : Char) (text : String) : Option (String × String) :=
  if Delimited quote text then
    (scan quote text.toList.tail).map (Prod.map String.ofList String.ofList)
  else some (text, "")

variable {quote : Char}

theorem scan_twice (rest : List Char) :
    scan quote (quote :: quote :: rest) = (scan quote rest).map (Prod.map (quote :: ·) id) := by
  simp [scan]

theorem scan_other {c : Char} (h : c ≠ quote) (rest : List Char) :
    scan quote (c :: rest) = (scan quote rest).map (Prod.map (c :: ·) id) := by
  rw [scan.eq_def]
  exact if_neg h

theorem scan_double (name : List Char) {rest : List Char} (h : rest.head? ≠ some quote) :
    scan quote (QuoteStyle.double quote name ++ quote :: rest) = some (name, rest) := by
  induction name with
  | nil =>
    cases rest with
    | nil => simp [QuoteStyle.double, scan]
    | cons d behind =>
      -- the quote behind the name ends it, as no other follows
      have hd : d ≠ quote := fun he => h (by rw [he, List.head?_cons])
      simp [QuoteStyle.double, scan, hd]
  | cons c name ih =>
    rw [QuoteStyle.double] at ih
    rw [QuoteStyle.double, List.flatMap_cons, List.append_assoc]
    by_cases hc : c = quote
    · rw [if_pos hc, hc, List.cons_append, List.cons_append, List.nil_append, scan_twice, ih]
      rfl
    · rw [if_neg hc, List.cons_append, List.nil_append, scan_other hc, ih]
      rfl

theorem delimited_delimit (name rest : String) :
    Delimited quote (QuoteStyle.delimit quote name ++ rest) := by
  rw [Delimited, String.toList_append, QuoteStyle.delimit, String.toList_ofList]
  rfl

theorem token_delimit (name : String) {rest : String} (h : ¬Delimited quote rest) :
    token quote (QuoteStyle.delimit quote name ++ rest) = some (name, rest) := by
  have htail : (QuoteStyle.delimit quote name ++ rest).toList.tail =
      QuoteStyle.double quote name.toList ++ quote :: rest.toList := by
    simp [QuoteStyle.delimit]
  rw [token, if_pos (delimited_delimit name rest), htail, scan_double name.toList h]
  simp

theorem not_mem_of_plain (hquote : isPlainPart quote = false) (name : String)
    (h : isPlain name = true) : quote ∉ name.toList :=
  fun hmem => ne_of_part hquote (isPlainPart_of_mem h hmem) rfl

end Identifier

namespace QuoteStyle

open Identifier

variable {style : QuoteStyle} {write : String → String}

theorem unreserved_of_bareName {name : String} (h : ¬style.delimitsName name = true)
    (hmode : style.mode ≠ .never) : isReserved name = false := by
  unfold delimitsName needsQuoting at h
  cases hstyle : style.mode <;> simp_all

theorem unreserved_of_bareAlias {alias_ : String} (h : ¬style.delimitsAlias alias_ = true)
    (hmode : style.mode ≠ .never) : isReserved alias_ = false := by
  unfold delimitsAlias needsQuoting at h
  cases hstyle : style.mode <;> simp_all

theorem written_cases (hwrite : write = style.quoteName ∨ write = style.quoteAlias)
    (name : String) : write name = delimit style.quote name ∨
      write name = name ∧ isPlain name = true ∧ (style.mode ≠ .never → isReserved name = false) := by
  rcases hwrite with rfl | rfl
  · rw [quoteName]
    by_cases h : style.delimitsName name = true
    · exact .inl (if_pos h)
    · exact .inr ⟨if_neg h, isPlain_of_bareName h, unreserved_of_bareName h⟩
  · rw [quoteAlias]
    by_cases h : style.delimitsAlias name = true
    · exact .inl (if_pos h)
    · exact .inr ⟨if_neg h, isPlain_of_bareAlias h, unreserved_of_bareAlias h⟩

/-- In every mode, and for every quote character that is no part of plain identifiers, a reader gets
back exactly the name from what is written for it, as a name or as an alias, and nothing is left
over. So no two names are written alike. A delimited name ends where its text ends, whatever
follows but a further quote; any other is written as a plain identifier, which is a reserved word
only in the mode that never delimits them. -/
theorem quoted_token (hquote : ∀ name, isPlain name = true → style.quote ∉ name.toList)
    (hwrite : write = style.quoteName ∨ write = style.quoteAlias) :
    (∀ name, token style.quote (write name) = some (name, "")) ∧ Function.Injective write ∧
    (∀ name rest, Delimited style.quote (write name) → ¬Delimited style.quote rest →
      token style.quote (write name ++ rest) = some (name, rest)) ∧
    ∀ name, ¬Delimited style.quote (write name) → isPlain (write name) = true ∧
      (style.mode ≠ .never → isReserved (write name) = false) := by
  have hplain {name : String} (h : isPlain name = true) : ¬Delimited style.quote name :=
    fun hfirst => hquote name h (List.mem_of_mem_head? hfirst)
  have hempty : ¬Delimited style.quote "" := by
    simp [Delimited]
  have htoken (name : String) : token style.quote (write name) = some (name, "") := by
    rcases written_cases hwrite name with h | ⟨h, hname, -⟩
    · have := token_delimit name hempty
      rwa [String.append_empty, ← h] at this
    · rw [h, token, if_neg (hplain hname)]
  refine ⟨htoken, fun a b hab => ?_, fun name rest hname hrest => ?_, fun name hname => ?_⟩
  · have hsame := congrArg (token style.quote) hab
    rw [htoken, htoken] at hsame
    simpa using hsame
  · rcases written_cases hwrite name with h | ⟨h, hbare, -⟩
    · rw [h]
      exact token_delimit name hrest
    · rw [h] at hname
      exact absurd hname (hplain hbare)
  · rcases written_cases hwrite name with h | ⟨h, hbare⟩
    · have hopen : Delimited style.quote (delimit style.quote name ++ "") := delimited_delimit name ""
      rw [String.append_empty, ← h] at hopen
      exact absurd hopen hname
    · rwa [h]

theorem quoted_token_quotes :
    let style : QuoteStyle := ⟨.whenNeeded, '"'⟩
    (∀ name, isPlain name = true → '"' ∉ name.toList) ∧
    style.quoteName "\"\"" = "\"\"\"\"\"\"" ∧
    token '"' (style.quoteName "\"\"") = some ("\"\"", "") ∧
    token '"' (style.quoteName "order" ++ ".\"a\"") = some ("order", ".\"a\"") := by
  intro style
  have hquote : ∀ name, isPlain name = true → '"' ∉ name.toList := not_mem_of_plain (by decide)
  obtain ⟨htoken, -, hends, -⟩ := @quoted_token style style.quoteName hquote (.inl rfl)
  exact ⟨hquote, by decide, htoken _, hends _ _ (by decide) (by decide)⟩

end QuoteStyle
end PolyglotSql
