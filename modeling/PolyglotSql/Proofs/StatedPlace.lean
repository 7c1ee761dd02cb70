import PolyglotSql.Failure
import PolyglotSql.Proofs.Canonical.Integers
import PolyglotSql.Sql.Script

/-!
# PolyglotSql.Proofs.StatedPlace

The place that is read off a message. The SQL reader ends its messages with the place of the error
(`Position.describe`), but what it says in front may quote the script, and the marks of a place are
searched from the front. So the place at the end is found if there is no mark in front of it. If
there is one, the line is read behind that, and the column behind the next mark of a column, be it
quoted too or the one at the end (`statedPlace?_describe`).

A mark may also be made of both parts: `Line:` at the end of what is said, and the blank in front of
the place.
-/

namespace PolyglotSql

/-! ## Cutting a text at a pattern -/

namespace Text

variable {pattern text before after rest x y : List Char}

/-- A pattern stands in a text between two parts of it, and stands nowhere earlier. -/
structure FirstAt (pattern before after text : List Char) : Prop where
  parts : text = before ++ (pattern ++ after)
  first : ∀ before' after', text = before' ++ (pattern ++ after') →
    before.length ≤ before'.length

theorem dropLeading_eq_some_iff :
    dropLeading pattern text = some rest ↔ text = pattern ++ rest := by
  induction pattern generalizing text with
  | nil => simp [dropLeading]
  | cons p ps ih =>
    cases text with
    | nil => simp [dropLeading]
    | cons c cs =>
      by_cases hc : p = c
      · simp [dropLeading, hc, ih]
      · simp [dropLeading, hc, Ne.symm hc]

theorem FirstAt.isInfix (h : FirstAt pattern before after text) : pattern <:+: text :=
  ⟨before, after, by rw [h.parts, List.append_assoc]⟩

theorem FirstAt.unique {before' after' : List Char} (h : FirstAt pattern before after text)
    (h' : FirstAt pattern before' after' text) : before = before' ∧ after = after' := by
  have hlength := Nat.le_antisymm (h.first _ _ h'.parts) (h'.first _ _ h.parts)
  obtain ⟨hbefore, hrest⟩ := List.append_inj (h.parts.symm.trans h'.parts) hlength
  exact ⟨hbefore, List.append_cancel_left hrest⟩

theorem firstAt_of_cutAt (h : cutAt pattern text = some (before, after)) :
    FirstAt pattern before after text := by
  induction text generalizing before with
  | nil =>
    simp only [cutAt, List.isEmpty_iff] at h
    split at h
    · rename_i hp
      cases h
      exact ⟨by simp [hp], fun _ _ _ => Nat.zero_le _⟩
    · cases h
  | cons c cs ih =>
    cases hdrop : dropLeading pattern (c :: cs) with
    | some rest =>
      simp only [cutAt, hdrop] at h
      obtain ⟨rfl, rfl⟩ := Prod.mk.inj (Option.some.inj h)
      have hparts : c :: cs = pattern ++ rest := dropLeading_eq_some_iff.1 hdrop
      exact ⟨hparts, fun _ _ _ => Nat.zero_le _⟩
    | none =>
      cases hcut : cutAt pattern cs with
      | none => simp [cutAt, hdrop, hcut] at h
      | some cut =>
        simp only [cutAt, hdrop, hcut] at h
        obtain ⟨rfl, rfl⟩ := Prod.mk.inj (Option.some.inj h)
        obtain ⟨hparts, hfirst⟩ := ih hcut
        refine ⟨by rw [hparts]; rfl, fun before' after' he => ?_⟩
        cases before' with
        | nil => cases hdrop.symm.trans (dropLeading_eq_some_iff.2 he)
        | cons d ds => exact Nat.succ_le_succ (hfirst _ _ (List.cons.inj he).2)

theorem cutAt_eq_none_iff : cutAt pattern text = none ↔ ¬ pattern <:+: text := by
  constructor
  · rintro h ⟨before, after, rfl⟩
    induction before with
    | nil =>
      cases hp : pattern ++ after with
      | nil => simp_all [cutAt]
      | cons c cs =>
        have hdrop := dropLeading_eq_some_iff.2 hp.symm
        simp [hp, cutAt, hdrop] at h
    | cons c cs ih =>
      simp only [List.cons_append, cutAt] at h
      split at h
      · cases h
      · refine ih ?_
        split at h
        · cases h
        · assumption
  · intro h
    rw [Option.eq_none_iff_forall_ne_some]
    rintro ⟨before, after⟩ hcut
    exact h (firstAt_of_cutAt hcut).isInfix

theorem cutAt_eq_some_iff :
    cutAt pattern text = some (before, after) ↔ FirstAt pattern before after text := by
  refine ⟨firstAt_of_cutAt, fun h => ?_⟩
  cases hcut : cutAt pattern text with
  | none => exact absurd h.isInfix (cutAt_eq_none_iff.1 hcut)
  | some cut =>
    obtain ⟨rfl, rfl⟩ := h.unique (firstAt_of_cutAt hcut)
    rfl

theorem exists_firstAt (h : pattern <:+: text) :
    ∃ before after, FirstAt pattern before after text := by
  cases hcut : cutAt pattern text with
  | none => exact absurd h (cutAt_eq_none_iff.1 hcut)
  | some cut => exact ⟨cut.1, cut.2, cutAt_eq_some_iff.1 hcut⟩

/-- What stands first in a text still does if more follows. -/
theorem FirstAt.append (h : FirstAt pattern before after x) (y : List Char) :
    FirstAt pattern before (after ++ y) (x ++ y) := by
  refine ⟨by rw [h.parts]; simp, fun before' after' he => ?_⟩
  rw [← List.append_assoc] at he
  rcases List.append_eq_append_iff.1 he with ⟨between, hlong, -⟩ | ⟨between, hx, -⟩
  · have hlength := congrArg List.length hlong
    have hparts := congrArg List.length h.parts
    simp only [List.length_append] at hlength hparts
    omega
  · exact h.first before' between (by rw [hx, List.append_assoc])

/-- A pattern does not begin in a text without it and end in the next, if that begins otherwise. -/
theorem FirstAt.behind (hx : ¬ pattern <:+: x) (hy : ∀ c ∈ y.head?, c ∉ pattern)
    (h : FirstAt pattern before after y) : FirstAt pattern (x ++ before) after (x ++ y) := by
  refine ⟨by rw [h.parts, List.append_assoc], fun before' after' he => ?_⟩
  rcases List.append_eq_append_iff.1 he with ⟨between, rfl, hrest⟩ | ⟨between, rfl, hrest⟩
  · have := h.first between after' hrest
    simp only [List.length_append]
    omega
  · rcases List.append_eq_append_iff.1 hrest with ⟨more, rfl, -⟩ | ⟨more, rfl, hmore⟩
    · exact absurd ⟨before', more, by simp⟩ hx
    · cases more with
      | nil => exact absurd ⟨before', [], by simp⟩ hx
      | cons c cs => exact absurd (by simp) (hy c (by simp [hmore]))

/-- A pattern stands first behind a text without the character that it begins with. -/
theorem firstAt_of_not_mem (after : List Char) {c : Char} (hc : pattern.head? = some c)
    (h : c ∉ before) : FirstAt pattern before after (before ++ (pattern ++ after)) := by
  obtain ⟨cs, rfl⟩ := List.head?_eq_some_iff.1 hc
  refine ⟨rfl, fun before' after' he => ?_⟩
  rcases List.append_eq_append_iff.1 he with ⟨between, rfl, -⟩ | ⟨between, rfl, hrest⟩
  · simp
  · cases between with
    | nil => simp
    | cons d ds =>
      obtain ⟨rfl, -⟩ := List.cons.inj hrest
      exact absurd (by simp) h

end Text

/-! ## Reading a place -/

namespace Failure

open Text

variable {text rest y : List Char} {n : Nat}

/-- A text begins with the digits of a number that fits 64 bits. -/
structure Begins (text : List Char) (n : Nat) (rest : List Char) : Prop where
  digits : ∃ digits, Sql.IsDecimal digits n ∧ text = digits.toList ++ rest
  ends : ∀ c ∈ rest.head?, c.isDigit = false
  fits : n < 2 ^ 64

theorem span_digits {ds : List Char} (hds : ∀ c ∈ ds, c.isDigit = true)
    (hrest : ∀ c ∈ rest.head?, c.isDigit = false) :
    (ds ++ rest).span Char.isDigit = (ds, rest) := by
  induction ds with
  | nil =>
    cases rest with
    | nil => rfl
    | cons c cs => simp [List.span_eq_takeWhile_dropWhile, hrest c (by simp)]
  | cons d ds ih =>
    obtain ⟨hd, hds⟩ := List.forall_mem_cons.1 hds
    have hspan := ih hds
    rw [List.span_eq_takeWhile_dropWhile, Prod.mk.injEq] at hspan
    rw [List.span_eq_takeWhile_dropWhile, List.cons_append, List.takeWhile_cons_of_pos hd,
      List.dropWhile_cons_of_pos hd, hspan.1, hspan.2]

theorem head?_dropWhile_digits (text : List Char) :
    ∀ c ∈ (text.dropWhile Char.isDigit).head?, c.isDigit = false := by
  intro c hc
  have := List.head?_dropWhile_not Char.isDigit text
  simp_all

theorem readNumber_eq_some_iff : readNumber text = some (n, rest) ↔ Begins text n rest := by
  constructor
  · intro h
    have hdigits : ∀ c ∈ text.takeWhile Char.isDigit, c.isDigit = true := fun c hc =>
      List.mem_takeWhile_imp hc
    rw [readNumber, List.span_eq_takeWhile_dropWhile] at h
    by_cases hne : text.takeWhile Char.isDigit = []
    · simp [hne, readDigits?] at h
    · simp only [Page.readDigits_digits hdigits hne] at h
      split at h
      · rename_i hfits
        obtain ⟨rfl, rfl⟩ := Prod.mk.inj (Option.some.inj h)
        refine ⟨⟨String.ofList (text.takeWhile Char.isDigit), ⟨?_, ?_, ?_⟩, ?_⟩,
          head?_dropWhile_digits text, hfits⟩
        · simpa using hne
        · simpa using hdigits
        · simp
        · simp
      · cases h
  · rintro ⟨⟨digits, hdigits, rfl⟩, hends, hfits⟩
    rw [readNumber, span_digits hdigits.digit hends]
    simp only [hdigits.readDigits]
    exact if_pos hfits

/-- A number ends where a text begins otherwise. -/
theorem readNumber_append {c : Char} (hc : c.isDigit = false) :
    readNumber (text ++ c :: y) =
      (readNumber text).map fun read => (read.1, read.2 ++ c :: y) := by
  have hspan : (text ++ c :: y).span Char.isDigit =
      (text.takeWhile Char.isDigit, text.dropWhile Char.isDigit ++ c :: y) := by
    conv_lhs => rw [← List.takeWhile_append_dropWhile (p := Char.isDigit) (l := text)]
    rw [List.append_assoc]
    refine span_digits (fun d hd => List.mem_takeWhile_imp hd) fun d hd => ?_
    cases hrest : text.dropWhile Char.isDigit with
    | nil => simp_all
    | cons e es => exact head?_dropWhile_digits text d (by simpa [hrest] using hd)
  simp only [readNumber, hspan, List.span_eq_takeWhile_dropWhile]
  cases readDigits? (text.takeWhile Char.isDigit) with
  | none => rfl
  | some n => by_cases hn : n < Nat.pow 2 64 <;> simp [hn]

theorem begins_toString (rest : List Char) (hn : n < 2 ^ 64)
    (hrest : ∀ c ∈ rest.head?, c.isDigit = false) :
    Begins ((toString n).toList ++ rest) n rest :=
  ⟨⟨toString n, Sql.isDecimal_toString n, rfl⟩, hrest, hn⟩

/-! ### Columns -/

/-- What is skipped between the mark of a column and its number. -/
def isFiller (c : Char) : Bool :=
  c == ':' || c == ' '

/-- The number behind the first mark of a column. -/
def columnIn? (text : List Char) : Option Nat := do
  let (_, behind) ← cutAt "Column".toList text
  let (column, _) ← readNumber (behind.dropWhile isFiller)
  some column

theorem statedPlace?_eq (message : String) :
    statedPlace? message = (do
      let (_, quoted) ← cutAt "Line: ".toList message.toList
      let (line, rest) ← readNumber quoted
      let column ← columnIn? rest
      some ⟨line, column⟩) := by
  simp only [statedPlace?, columnIn?, Option.bind_eq_bind, Option.bind_assoc]
  refine Option.bind_congr fun cut _ => Option.bind_congr fun read _ => ?_
  cases hrest : read.2 with
  | nil => rfl
  | cons c cs => rfl

theorem Begins.dropWhile_filler {filler digits : List Char} (h : Begins digits n rest)
    (hfiller : ∀ c ∈ filler, isFiller c = true) :
    (filler ++ digits).dropWhile isFiller = digits := by
  obtain ⟨⟨ds, hds, rfl⟩, -, -⟩ := h
  rw [List.dropWhile_append_of_pos hfiller]
  cases hd : ds.toList with
  | nil => exact absurd hd hds.toList_ne
  | cons d more =>
    have hdigit := hds.digit d (by simp [hd])
    have hne : isFiller d = false := by
      rw [isFiller, Bool.or_eq_false_iff]
      constructor <;> rw [beq_eq_false_iff_ne] <;> rintro rfl <;> exact absurd hdigit (by decide)
    rw [List.cons_append, List.dropWhile_cons_of_neg (by simp [hne])]

theorem columnIn?_eq_some_iff : columnIn? text = some n ↔ ∃ between filler digits rest,
    FirstAt "Column".toList between (filler ++ digits) text ∧
      (∀ c ∈ filler, isFiller c = true) ∧ Begins digits n rest := by
  constructor
  · intro h
    simp only [columnIn?, Option.bind_eq_bind, Option.bind_eq_some_iff] at h
    obtain ⟨⟨between, behind⟩, hcut, ⟨m, rest⟩, hread, hm⟩ := h
    obtain rfl := Option.some.inj hm
    refine ⟨between, behind.takeWhile isFiller, behind.dropWhile isFiller, rest, ?_,
      fun c hc => List.mem_takeWhile_imp hc, readNumber_eq_some_iff.1 hread⟩
    rw [List.takeWhile_append_dropWhile]
    exact cutAt_eq_some_iff.1 hcut
  · rintro ⟨between, filler, digits, rest, hmark, hfiller, hdigits⟩
    simp only [columnIn?, Option.bind_eq_bind, cutAt_eq_some_iff.2 hmark, Option.bind_some,
      hdigits.dropWhile_filler hfiller, readNumber_eq_some_iff.2 hdigits]

/-- A column is read where its mark stands first, whatever follows that does not go on with it. -/
theorem columnIn?_append {c : Char} (hc : c.isDigit = false) (hfiller : isFiller c = false)
    (h : "Column".toList <:+: x) : columnIn? (x ++ c :: y) = columnIn? x := by
  cases hcut : cutAt "Column".toList x with
  | none => exact absurd h (cutAt_eq_none_iff.1 hcut)
  | some cut =>
    have hmore := cutAt_eq_some_iff.2 ((cutAt_eq_some_iff.1 hcut).append (c :: y))
    have hdrop : (cut.2 ++ c :: y).dropWhile isFiller = cut.2.dropWhile isFiller ++ c :: y := by
      rw [List.dropWhile_append]
      split
      · simp_all
      · rfl
    simp only [columnIn?, hcut, hmore, Option.bind_eq_bind, Option.bind_some, hdrop,
      readNumber_append hc, Option.bind_map]
    rfl

/-- The column at the end is read if no mark of a column stands in front of it. -/
theorem columnIn?_last (before : List Char) {column : Nat} (hx : ¬ "Column".toList <:+: x)
    (hhead : ∀ c ∈ before.head?, c ∉ "Column".toList) (hne : before ≠ []) (hbefore : 'C' ∉ before)
    (hcolumn : column < 2 ^ 64) :
    columnIn? (x ++ (before ++
      ("Column".toList ++ (": ".toList ++ (toString column).toList)))) = some column := by
  have hcolumnMark : "Column".toList.head? = some 'C' := by decide
  have hmark := firstAt_of_not_mem (": ".toList ++ (toString column).toList) hcolumnMark hbefore
  have hdigits := begins_toString [] hcolumn (by simp)
  rw [List.append_nil] at hdigits
  refine columnIn?_eq_some_iff.2 ⟨_, ": ".toList, (toString column).toList, [],
    hmark.behind hx fun c hc => hhead c ?_, by simp [isFiller], hdigits⟩
  rwa [List.head?_append_of_ne_nil _ hne] at hc

/-! ### Messages that end with a place -/

/-- What a text states of a place by itself, if a message goes on behind it with a place that has
the given column. -/
inductive Quotes (text : List Char) (column : Nat) : Place → Prop
  | line {before quoted rest : List Char} {line : Nat}
      (mark : FirstAt "Line: ".toList before quoted text) (number : Begins quoted line rest)
      (unmarked : ¬ "Column".toList <:+: rest) : Quotes text column ⟨line, column⟩
  | both {before quoted rest between filler digits rest' : List Char} {line stated : Nat}
      (mark : FirstAt "Line: ".toList before quoted text) (number : Begins quoted line rest)
      (columnMark : FirstAt "Column".toList between (filler ++ digits) rest)
      (skipped : ∀ c ∈ filler, isFiller c = true) (columnNumber : Begins digits stated rest') :
    Quotes text column ⟨line, stated⟩

theorem quotes_iff {column : Nat} {place : Place} {before quoted : List Char}
    (h : FirstAt "Line: ".toList before quoted text) : Quotes text column place ↔
      ∃ rest, Begins quoted place.line rest ∧
        (¬ "Column".toList <:+: rest ∧ place.column = column ∨
          "Column".toList <:+: rest ∧ columnIn? rest = some place.column) := by
  constructor
  · rintro (⟨hmark, hnumber, hnone⟩ | ⟨hmark, hnumber, hcolumn, hfiller, hdigits⟩)
    · obtain ⟨-, rfl⟩ := h.unique hmark
      exact ⟨_, hnumber, .inl ⟨hnone, rfl⟩⟩
    · obtain ⟨-, rfl⟩ := h.unique hmark
      exact ⟨_, hnumber, .inr ⟨hcolumn.isInfix,
        columnIn?_eq_some_iff.2 ⟨_, _, _, _, hcolumn, hfiller, hdigits⟩⟩⟩
  · obtain ⟨line, stated⟩ := place
    rintro ⟨rest, hnumber, ⟨hnone, rfl⟩ | ⟨-, hcolumn⟩⟩
    · exact .line h hnumber hnone
    · obtain ⟨_, _, _, _, hmark, hfiller, hdigits⟩ := columnIn?_eq_some_iff.1 hcolumn
      exact .both h hnumber hmark hfiller hdigits

/-- What a message says behind the blank in front of its place. -/
def placeTail (p : Sql.Position) : List Char :=
  "at ".toList ++ ("Line: ".toList ++ ((toString p.line).toList ++ (", ".toList ++
    ("Column".toList ++ (": ".toList ++ (toString p.column).toList)))))

theorem describe_toList (p : Sql.Position) : p.describe.toList = ' ' :: placeTail p := by
  simp [Sql.Position.describe, placeTail]

theorem columnIn?_placeTail {p : Sql.Position} (hc : p.column < 2 ^ 64) {column : Nat} :
    columnIn? (x ++ placeTail p) = some column ↔
      ¬ "Column".toList <:+: x ∧ column = p.column ∨
      "Column".toList <:+: x ∧ columnIn? x = some column := by
  by_cases hx : "Column".toList <:+: x
  · have happend : columnIn? (x ++ placeTail p) = columnIn? x :=
      columnIn?_append (c := 'a') (by decide) (by decide) hx
    simp only [happend, hx, not_true_eq_false, false_and, true_and, false_or]
  · have hdigits : 'C' ∉ (toString p.line).toList := fun h => by
      cases (Sql.isDecimal_toString p.line).digit 'C' h
    have hbefore :
        'C' ∉ "at ".toList ++ ("Line: ".toList ++ ((toString p.line).toList ++ ", ".toList)) := by
      simp only [List.mem_append, not_or]
      exact ⟨by decide, by decide, hdigits, by decide⟩
    have hlast : columnIn? (x ++ placeTail p) = some p.column := by
      simpa only [placeTail, List.append_assoc] using
        columnIn?_last _ hx (by simp) (by simp) hbefore hc
    simp only [hlast, hx, not_false_eq_true, true_and, false_and, or_false, Option.some.injEq,
      eq_comm]

theorem message_toList (said : String) (p : Sql.Position) :
    (said ++ p.describe).toList = said.toList ++ [' '] ++ placeTail p := by
  rw [String.toList_append, describe_toList, List.append_assoc]
  rfl

/-- Without a mark in front of it, the place at the end is found. -/
theorem statedPlace?_of_unmarked {said : String} {p : Sql.Position} (hl : p.line < 2 ^ 64)
    (hc : p.column < 2 ^ 64) (h : ¬ "Line: ".toList <:+: said.toList ++ [' ']) :
    statedPlace? (said ++ p.describe) = some ⟨p.line, p.column⟩ := by
  have hmark : "Line: ".toList.head? = some 'L' := by decide
  have hline := cutAt_eq_some_iff.2 (FirstAt.behind h (y := placeTail p) (by simp [placeTail])
    (firstAt_of_not_mem _ hmark (by decide)))
  have hnumber := readNumber_eq_some_iff.2 (begins_toString (", ".toList ++
    ("Column".toList ++ (": ".toList ++ (toString p.column).toList))) hl (by simp))
  have hcolumn := columnIn?_last ", ".toList (x := []) (by simp) (by simp) (by simp) (by simp) hc
  rw [List.nil_append] at hcolumn
  rw [statedPlace?_eq, message_toList]
  simp only [hline, hnumber, hcolumn, Option.bind_eq_bind, Option.bind_some]

/-- Behind the first mark, the line is read from the text. -/
theorem statedPlace?_of_firstAt {said : String} {p : Sql.Position} {before quoted : List Char}
    {place : Place} (h : FirstAt "Line: ".toList before quoted (said.toList ++ [' '])) :
    statedPlace? (said ++ p.describe) = some place ↔ ∃ rest, Begins quoted place.line rest ∧
      columnIn? (rest ++ placeTail p) = some place.column := by
  have hline := cutAt_eq_some_iff.2 (h.append (placeTail p))
  have hnumber : readNumber (quoted ++ placeTail p) =
      (readNumber quoted).map fun read => (read.1, read.2 ++ placeTail p) :=
    readNumber_append (c := 'a') (by decide)
  rw [statedPlace?_eq, message_toList]
  simp only [hline, hnumber, Option.bind_eq_bind, Option.bind_some, Option.bind_map,
    ← readNumber_eq_some_iff]
  cases readNumber quoted with
  | none => simp
  | some read =>
    obtain ⟨line, rest⟩ := read
    change (columnIn? (rest ++ placeTail p)).bind (fun column => some (Place.mk line column)) =
      some place ↔ _
    constructor
    · intro h
      obtain ⟨column, hcolumn, he⟩ := Option.bind_eq_some_iff.1 h
      cases he
      exact ⟨rest, rfl, hcolumn⟩
    · rintro ⟨rest', hread, hcolumn⟩
      cases hread
      exact Option.bind_eq_some_iff.2 ⟨_, hcolumn, rfl⟩

/-- The place that is found in a message that ends with one. It is that place if no mark of a line
stands in front of it, nor is made of the end of what is said and the blank behind it. Otherwise it
is what the first such mark makes of the text: a line that the text gives, with a column that it
gives too or that of the place at the end; and none if no line is given behind that mark. -/
theorem statedPlace?_describe (said : String) {p : Sql.Position} (hl : p.line < 2 ^ 64)
    (hc : p.column < 2 ^ 64) {place : Place} :
    statedPlace? (said ++ p.describe) = some place ↔
      (¬ "Line: ".toList <:+: said.toList ++ [' '] ∧ place = ⟨p.line, p.column⟩) ∨
      Quotes (said.toList ++ [' ']) p.column place := by
  by_cases hmark : "Line: ".toList <:+: said.toList ++ [' ']
  · obtain ⟨before, quoted, hfirst⟩ := exists_firstAt hmark
    rw [statedPlace?_of_firstAt hfirst, quotes_iff hfirst]
    simp only [columnIn?_placeTail hc, hmark, not_true_eq_false, false_and, false_or]
  · have hquotes : ¬ Quotes (said.toList ++ [' ']) p.column place := by
      rintro (⟨h, -, -⟩ | ⟨h, -, -, -, -⟩) <;> exact hmark h.isInfix
    simp only [statedPlace?_of_unmarked hl hc hmark, hmark, hquotes, Option.some.injEq,
      not_false_eq_true, true_and, or_false, eq_comm]

/-- A line that the script quotes is taken with the column of the message. What has no blank behind
its colon is no mark. -/
theorem statedPlace?_describe_quotedLine :
    (1 < 2 ^ 64 ∧ 12 < 2 ^ 64) ∧
      statedPlace? ("Expected: end of statement, found: 'Line: 3'" ++
        Sql.Position.describe ⟨1, 12⟩) = some ⟨3, 12⟩ ∧
      statedPlace? ("Expected: end of statement, found: 'Line:3, Column: 4'" ++
        Sql.Position.describe ⟨1, 12⟩) = some ⟨1, 12⟩ := by
  refine ⟨by decide, ?_, ?_⟩
  · exact (statedPlace?_describe _ (by decide) (by decide)).2 (.inr (.line
      (cutAt_eq_some_iff.1 rfl) (readNumber_eq_some_iff.1 rfl) (cutAt_eq_none_iff.1 rfl)))
  · exact (statedPlace?_describe _ (by decide) (by decide)).2
      (.inl ⟨cutAt_eq_none_iff.1 rfl, rfl⟩)

/-- A script that quotes a place is said to be wrong there. -/
theorem quotedPlace_misleads : ∃ e said,
    Sql.Script.parse "'Line: 7, Column: 3'" = .error e ∧
      e.message = said ++ Sql.Position.describe ⟨1, 1⟩ ∧
      statedPlace? (said ++ Sql.Position.describe ⟨1, 1⟩) = some ⟨7, 3⟩ := by
  have hmessage : (match Sql.Script.parse "'Line: 7, Column: 3'" with
      | .error e => some e.message
      | .ok _ => none) = some ("sql parser error: Expected: an SQL statement, " ++
        "found: 'Line: 7, Column: 3'" ++ Sql.Position.describe ⟨1, 1⟩) := by
    decide +kernel
  cases he : Sql.Script.parse "'Line: 7, Column: 3'" with
  | ok found => simp [he] at hmessage
  | error e =>
    rw [he] at hmessage
    exact ⟨e, _, rfl, Option.some.inj hmessage, by decide +kernel⟩

end Failure
end PolyglotSql
