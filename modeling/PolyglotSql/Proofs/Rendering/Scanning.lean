import PolyglotSql.Rendering.Pagination
import PolyglotSql.Rendering.Placeholder
import PolyglotSql.Rendering.Quoting

/-!
# PolyglotSql.Proofs.Rendering.Scanning

Texts that a scan for placeholders enters and leaves outside of any delimiter. `Counts quote s k`
says so of a text with `k` placeholders; it is kept by concatenation, so a rendered text can be
looked at piece by piece. Names that the quoting policy lets through count none, whatever they are
made of.
-/

namespace PolyglotSql

theorem Identifier.isPlainPart_of_start {c : Char} (h : isPlainStart c = true) :
    isPlainPart c = true := by
  simp only [isPlainStart, isPlainPart, Char.isAlphanum, Bool.or_eq_true] at h ⊢
  rcases h with h | h
  · exact .inl (.inl (.inl h))
  · exact .inl (.inr h)

theorem Identifier.plain_chars {name : String} (h : isPlain name = true) :
    ∃ c cs, name.toList = c :: cs ∧ isPlainStart c = true ∧ ∀ d ∈ cs, isPlainPart d = true := by
  unfold isPlain at h
  split at h
  · cases h
  · rename_i c cs hname
    rw [Bool.and_eq_true, List.all_eq_true] at h
    exact ⟨c, cs, hname, h⟩

theorem Identifier.isPlainPart_of_mem {name : String} (h : isPlain name = true) {c : Char}
    (hc : c ∈ name.toList) : isPlainPart c = true := by
  obtain ⟨first, rest, hname, hfirst, hrest⟩ := plain_chars h
  rw [hname] at hc
  rcases List.mem_cons.1 hc with rfl | hc
  · exact isPlainPart_of_start hfirst
  · exact hrest c hc

theorem Identifier.ne_of_part {c quote : Char} (hquote : isPlainPart quote = false)
    (hc : isPlainPart c = true) : c ≠ quote := by
  rintro rfl
  rw [hquote] at hc
  cases hc

/-- A name that the policy does not delimit is plain. -/
theorem QuoteStyle.isPlain_of_bareName {style : QuoteStyle} {name : String}
    (h : ¬ style.delimitsName name = true) : Identifier.isPlain name = true := by
  unfold delimitsName Identifier.needsQuoting at h
  cases hmode : style.mode <;> simp_all

theorem QuoteStyle.isPlain_of_bareAlias {style : QuoteStyle} {alias_ : String}
    (h : ¬ style.delimitsAlias alias_ = true) : Identifier.isPlain alias_ = true := by
  unfold delimitsAlias Identifier.needsQuoting at h
  cases hmode : style.mode <;> simp_all

namespace Placeholder

/-- A scan that begins a text outside of any delimiter ends it outside, having met `k` more
placeholders. -/
def Counts (quote : Char) (s : List Char) (k : Nat) : Prop :=
  ∀ n, s.foldl (Scan.step quote) ⟨none, n⟩ = ⟨none, n + k⟩

/-- A scan stays inside of a delimiter all through a text. -/
def Within (quote delimiter : Char) (s : List Char) : Prop :=
  ∀ n, s.foldl (Scan.step quote) ⟨some delimiter, n⟩ = ⟨some delimiter, n⟩

/-- A text without placeholders that leaves no delimiter open. -/
def Neutral (quote : Char) (s : String) : Prop :=
  Counts quote s.toList 0

/-- A text without question marks and delimiters. -/
def Unmarked (quote : Char) (s : String) : Prop :=
  '?' ∉ s.toList ∧ '\'' ∉ s.toList ∧ quote ∉ s.toList

instance (quote : Char) (s : String) : Decidable (Unmarked quote s) :=
  inferInstanceAs (Decidable (_ ∧ _))

variable {quote delimiter : Char} {s s' : List Char} {k k' : Nat}

/-- The placeholders of a whole text. -/
theorem count_of_counts {sql : String} (h : Counts quote sql.toList k) : count sql quote = k := by
  rw [count, h 0]
  exact Nat.zero_add k

theorem counts_nil : Counts quote [] 0 :=
  fun _ => rfl

theorem Counts.append (h : Counts quote s k) (h' : Counts quote s' k') :
    Counts quote (s ++ s') (k + k') := by
  intro n
  rw [List.foldl_append, h n, h' (n + k), Nat.add_assoc]

theorem within_nil : Within quote delimiter [] :=
  fun _ => rfl

theorem Within.append (h : Within quote delimiter s) (h' : Within quote delimiter s') :
    Within quote delimiter (s ++ s') := by
  intro n
  rw [List.foldl_append, h n, h' n]

/-! ## Single characters -/

theorem counts_mark (hquote : quote ≠ '?') : Counts quote ['?'] 1 := by
  intro n
  simp [Scan.step, hquote.symm]

theorem counts_other {c : Char} (hmark : c ≠ '?') (hapostrophe : c ≠ '\'') (hquote : c ≠ quote) :
    Counts quote [c] 0 := by
  intro n
  simp [Scan.step, hmark, hapostrophe, hquote]

theorem within_other {c : Char} (h : c ≠ delimiter) : Within quote delimiter [c] := by
  intro n
  simp [Scan.step, h]

/-- A delimiter written twice closes and opens again. -/
theorem within_twice (h : delimiter = '\'' ∨ delimiter = quote) :
    Within quote delimiter [delimiter, delimiter] := by
  intro n
  simp [Scan.step, h]

/-- A text between delimiters. -/
theorem Within.delimited (h : delimiter = '\'' ∨ delimiter = quote)
    (hs : Within quote delimiter s) : Counts quote (delimiter :: s ++ [delimiter]) 0 := by
  intro n
  -- The scan opens, stays within, and closes with the number it came with.
  have hopen : Scan.step quote ⟨none, n⟩ delimiter = ⟨some delimiter, n⟩ := by
    simp [Scan.step, h]
  have hclose : Scan.step quote ⟨some delimiter, n⟩ delimiter = ⟨none, n⟩ := by
    simp [Scan.step]
  rw [List.cons_append, List.foldl_cons, hopen, List.foldl_append, hs n, List.foldl_cons, hclose]
  rfl

/-! ## Texts -/

theorem counts_plain (hmark : '?' ∉ s) (hapostrophe : '\'' ∉ s) (hquote : quote ∉ s) :
    Counts quote s 0 := by
  induction s with
  | nil => exact counts_nil
  | cons c s ih =>
    rw [List.mem_cons, not_or] at hmark hapostrophe hquote
    have hc := counts_other (Ne.symm hmark.1) (Ne.symm hapostrophe.1) (Ne.symm hquote.1)
    exact hc.append (ih hmark.2 hapostrophe.2 hquote.2)

theorem within_plain (h : delimiter ∉ s) : Within quote delimiter s := by
  induction s with
  | nil => exact within_nil
  | cons c s ih =>
    rw [List.mem_cons, not_or] at h
    exact (within_other (Ne.symm h.1)).append (ih h.2)

theorem Unmarked.neutral {s : String} (h : Unmarked quote s) : Neutral quote s :=
  counts_plain h.1 h.2.1 h.2.2

theorem Neutral.append {s s' : String} (h : Neutral quote s) (h' : Neutral quote s') :
    Neutral quote (s ++ s') := by
  rw [Neutral, String.toList_append]
  exact Counts.append h h'

theorem Within.literal {s : String} (h : Within quote '\'' s.toList) :
    Neutral quote ("'" ++ s ++ "'") := by
  rw [Neutral, String.toList_append, String.toList_append]
  exact h.delimited (.inl rfl)

theorem within_double (name : List Char) : Within quote quote (QuoteStyle.double quote name) := by
  induction name with
  | nil => exact within_nil
  | cons c name ih =>
    rw [QuoteStyle.double, List.flatMap_cons]
    by_cases hc : c = quote
    · rw [if_pos hc, hc]
      exact (within_twice (.inr rfl)).append ih
    · rw [if_neg hc]
      exact (within_other hc).append ih

/-- A delimited name counts no placeholders, whatever the name. -/
theorem neutral_delimit (name : String) : Neutral quote (QuoteStyle.delimit quote name) := by
  rw [Neutral, QuoteStyle.delimit, String.toList_ofList]
  exact (within_double name.toList).delimited (.inr rfl)

/-! ## The delimiters of the dialects -/

/-- The characters that delimit identifiers in some dialect. -/
def IsDelimiter (quote : Char) : Prop :=
  quote = '"' ∨ quote = '`'

/-- The question mark and the delimiters of all dialects. -/
def marks : List Char :=
  ['?', '\'', '"', '`']

/-- Whether a text has none of these. -/
def isInert (s : String) : Bool :=
  s.toList.all fun c => !marks.contains c

theorem unmarked_of_inert {s : String} (hquote : IsDelimiter quote) (h : isInert s = true) :
    Unmarked quote s := by
  simp only [isInert, List.all_eq_true, Bool.not_eq_true'] at h
  have hnot {c : Char} (hc : marks.contains c = true) : c ∉ s.toList := by
    intro hm
    rw [h c hm] at hc
    exact Bool.false_ne_true hc
  refine ⟨hnot rfl, hnot rfl, ?_⟩
  rcases hquote with rfl | rfl
  · exact hnot rfl
  · exact hnot rfl

theorem neutral_of_inert {s : String} (hquote : IsDelimiter quote) (h : isInert s = true) :
    Neutral quote s :=
  (unmarked_of_inert hquote h).neutral

/-- Characters of a class that leaves the marks out make an inert text. -/
theorem isInert_of_all {p : Char → Bool} {s : String} (hp : (marks.all fun c => !p c) = true)
    (hs : ∀ c ∈ s.toList, p c = true) : isInert s = true := by
  rw [List.all_eq_true] at hp
  rw [isInert, List.all_eq_true]
  intro c hc
  rw [Bool.not_eq_true', ← Bool.not_eq_true]
  intro hm
  have hno := hp c (List.contains_iff_mem.1 hm)
  rw [hs c hc] at hno
  exact Bool.false_ne_true hno

/-- A plain identifier has no delimiters in it. -/
theorem isPlain_inert {name : String} (h : Identifier.isPlain name = true) :
    isInert name = true :=
  isInert_of_all (p := Identifier.isPlainPart) rfl fun _ hc => Identifier.isPlainPart_of_mem h hc

/-- A name counts no placeholders as the policy writes it, whatever the name. -/
theorem neutral_quoteName {style : QuoteStyle} (hquote : IsDelimiter style.quote) (name : String) :
    Neutral style.quote (style.quoteName name) := by
  unfold QuoteStyle.quoteName
  split
  · exact neutral_delimit name
  · rename_i h
    exact neutral_of_inert hquote (isPlain_inert (QuoteStyle.isPlain_of_bareName h))

/-- The same of an alias. -/
theorem neutral_quoteAlias {style : QuoteStyle} (hquote : IsDelimiter style.quote)
    (name : String) : Neutral style.quote (style.quoteAlias name) := by
  unfold QuoteStyle.quoteAlias
  split
  · exact neutral_delimit name
  · rename_i h
    exact neutral_of_inert hquote (isPlain_inert (QuoteStyle.isPlain_of_bareAlias h))

theorem neutral_toString (hquote : IsDelimiter quote) (n : Nat) : Neutral quote (toString n) := by
  refine neutral_of_inert hquote (isInert_of_all (p := Char.isDigit) rfl ?_)
  intro c hc
  have hmem : c ∈ Nat.toDigits 10 n := by simpa using hc
  exact Nat.isDigit_of_mem_toDigits (by decide) (by decide) hmem

end Placeholder
end PolyglotSql
