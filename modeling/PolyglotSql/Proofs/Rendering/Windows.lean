import Mathlib.Algebra.Group.Nat.Defs
import Mathlib.Data.List.Basic
import PolyglotSql.Dialect.RowNumbers
import PolyglotSql.Dialect.Rules

/-!
# PolyglotSql.Proofs.Rendering.Windows

Row limits as the databases read them. A reader takes the words of the texts that are written for a
limit: in front of a select, at its end, and behind it (`Page.read`); what it reads keeps some of
the rows of the select (`Page.rows`). Rows are numbered from one where numbers count, and the
pseudo-column `ROWNUM` counts the rows that a filter lets through, as it lets them through.
-/

namespace PolyglotSql

/-- The rows that a limit and an offset ask for, all that are left if the limit is zero. -/
def window {α : Type} (limit offset : UInt64) (rows : List α) : List α :=
  if limit = 0 then rows.drop offset.toNat else (rows.drop offset.toNat).take limit.toNat

/-- A row limit that has been read. -/
inductive Page where
  /-- The first rows behind those that are skipped, or all of them. -/
  | slice (count : Option Nat) (skip : Nat)
  /-- The rows of some numbers. -/
  | range (first last : Nat)
  /-- `SELECT * FROM (q) WHERE ROWNUM <= last` -/
  | upTo (last : Nat)
  /-- `SELECT * FROM (SELECT tid.*, ROWNUM rnum FROM (q) tid WHERE ROWNUM <= last) WHERE rnum > skip`,
  the inner filter left out if there is no last row. -/
  | numbered (last : Option Nat) (skip : Nat)
deriving DecidableEq

namespace Page

/-- The rows that a filter on `ROWNUM` lets through, with their numbers. A row is tried with the
number that it would have; the next number is only used up by a row that is let through. -/
def counted {α : Type} (keep : Nat → Bool) : (number : Nat) → List α → List (α × Nat)
  | _, [] => []
  | number, row :: rows =>
    if keep number then (row, number) :: counted keep (number + 1) rows
    else counted keep number rows

/-- The rows that are kept; the column `rnum` of numbered rows is left out. -/
def rows {α : Type} (page : Page) (all : List α) : List α :=
  match page with
  | .slice none skip => all.drop skip
  | .slice (some count) skip => (all.drop skip).take count
  | .range first last =>
    ((all.zipIdx 1).filter fun (_, number) => first ≤ number ∧ number ≤ last).map (·.1)
  | .upTo last => (counted (· ≤ last) 1 all).map (·.1)
  | .numbered last skip =>
    let inner := counted (fun number => last.all (number ≤ ·)) 1 all
    (inner.filter fun (_, number) => skip < number).map (·.1)

/-! ## Reading -/

/-- The word that ends where a reader stands, if there is one. -/
def ended (seen : List Char) : List String :=
  if seen.isEmpty then [] else [String.ofList seen]

/-- The words of a text; brackets and commas are words by themselves. -/
def wordsFrom (seen : List Char) : List Char → List String
  | [] => ended seen
  | c :: cs =>
    if c = ' ' then ended seen ++ wordsFrom [] cs
    else if c = '(' ∨ c = ')' ∨ c = ',' then ended seen ++ String.singleton c :: wordsFrom [] cs
    else wordsFrom (seen ++ [c]) cs

def words (text : List Char) : List String :=
  wordsFrom [] text

/-- The number that a word spells. -/
def number? (word : String) : Option Nat :=
  Text.readDigits? word.toList

/-- How many rows a limit keeps, if it is one. A negative limit keeps all rows in SQLite, and so does
a limit of zero in HSQLDB. -/
def count? (d : Dialect) (word : String) : Option (Option Nat) :=
  match d with
  | .sqlite =>
    match word.toList with
    | '-' :: digits => (Text.readDigits? digits).map fun n => if n = 0 then some 0 else none
    | _ => (number? word).map some
  | .hsqldb => (number? word).map fun n => if n = 0 then none else some n
  | _ => (number? word).map some

/-- `LIMIT n OFFSET m`, each of which may be left out. -/
def limitOffset? (d : Dialect) : List String → Option Page
  | [] => some (.slice none 0)
  | ["LIMIT", n] => do some (.slice (← count? d n) 0)
  | ["OFFSET", m] => do some (.slice none (← number? m))
  | ["LIMIT", n, "OFFSET", m] => do some (.slice (← count? d n) (← number? m))
  | _ => none

/-- `LIMIT n OFFSET m`, where an offset does not stand alone. -/
def limitThenOffset? (d : Dialect) : List String → Option Page
  | "OFFSET" :: _ => none
  | words => limitOffset? d words

/-- `FETCH FIRST n ROWS ONLY`, which may be left out. -/
def fetch? : List String → Option (Option Nat)
  | [] => some none
  | ["FETCH", "FIRST", n, "ROWS", "ONLY"] | ["FETCH", "NEXT", n, "ROWS", "ONLY"] =>
    (number? n).map some
  | _ => none

/-- `OFFSET m ROWS` in front of what is fetched, either of which may be left out. -/
def offsetRowsFetch? : List String → Option Page
  | "OFFSET" :: m :: "ROWS" :: words => do some (.slice (← fetch? words) (← number? m))
  | words => do some (.slice (← fetch? words) 0)

/-- `OFFSET m` in front of what is fetched, either of which may be left out. -/
def offsetFetch? : List String → Option Page
  | "OFFSET" :: m :: words => do some (.slice (← fetch? words) (← number? m))
  | words => do some (.slice (← fetch? words) 0)

/-- `ROWS a TO b` -/
def range? : List String → Option Page
  | [] => some (.slice none 0)
  | ["ROWS", a, "TO", b] => do some (.range (← number? a) (← number? b))
  | _ => none

/-- What is written at the end of a select. -/
def clause? (d : Dialect) : List String → Option Page :=
  match d with
  | .generic | .postgresql | .h2 => limitOffset? d
  | .mysql | .sqlite | .hsqldb => limitThenOffset? d
  | .derby | .db2 => offsetRowsFetch?
  | .ingres => offsetFetch?
  | .firebird => range?
  | .oracle => fun words => if words.isEmpty then some (.slice none 0) else none

/-- What is written around a select, for its rows to be numbered. -/
def filter? (opening closing : List String) : Option Page :=
  match opening, closing with
  | ["SELECT", "*", "FROM", "("], [")", "WHERE", "ROWNUM", "<=", n] => (number? n).map .upTo
  | ["SELECT", "*", "FROM", "(", "SELECT", "tid.*", ",", "ROWNUM", "rnum", "FROM", "("],
    [")", "tid", ")", "WHERE", "rnum", ">", m] => (number? m).map (.numbered none)
  | ["SELECT", "*", "FROM", "(", "SELECT", "tid.*", ",", "ROWNUM", "rnum", "FROM", "("],
    [")", "tid", "WHERE", "ROWNUM", "<=", n, ")", "WHERE", "rnum", ">", m] => do
    some (.numbered (some (← number? n)) (← number? m))
  | _, _ => none

/-- The row limit that is read from the texts in front of a select, at its end, and behind it. Only
Oracle is given texts around a select. -/
def read (d : Dialect) (opening clause closing : List Char) : Option Page :=
  if opening.isEmpty ∧ closing.isEmpty then clause? d (words clause)
  else if d = .oracle ∧ clause.isEmpty then filter? (words opening) (words closing)
  else none

/-! ## Rows -/

variable {α : Type}

theorem counted_le (last number : Nat) (all : List α) :
    counted (· ≤ last) number all = (all.take (last + 1 - number)).zipIdx number := by
  induction all generalizing number with
  | nil => simp [counted]
  | cons row all ih =>
    rw [counted]
    by_cases h : number ≤ last
    · have hlast : last + 1 - number = last + 1 - (number + 1) + 1 := by omega
      rw [if_pos (by simpa using h), ih, hlast, List.take_succ_cons, List.zipIdx_cons]
    · have hlast : last + 1 - number = 0 := by omega
      rw [if_neg (by simpa using h), ih, hlast, List.take_zero, List.take_zero]

theorem counted_all (number : Nat) (all : List α) :
    counted (fun _ => true) number all = all.zipIdx number := by
  induction all generalizing number with
  | nil => rfl
  | cons row all ih => rw [counted, if_pos rfl, ih, List.zipIdx_cons]

theorem zipIdx_from (first number : Nat) (all : List α) :
    ((all.zipIdx number).filter fun (_, n) => decide (first ≤ n)).map (·.1) =
      all.drop (first - number) := by
  induction all generalizing number with
  | nil => simp
  | cons row all ih =>
    rw [List.zipIdx_cons, List.filter_cons]
    by_cases h : first ≤ number
    · have hall := ih (number + 1)
      rw [show first - (number + 1) = 0 by omega, List.drop_zero] at hall
      rw [if_pos (by simpa using h), List.map_cons, hall, show first - number = 0 by omega,
        List.drop_zero]
    · rw [if_neg (by simpa using h), ih, show first - number = first - (number + 1) + 1 by omega,
        List.drop_succ_cons]

theorem zipIdx_upTo (last number : Nat) (all : List α) :
    (all.zipIdx number).filter (fun (_, n) => decide (n ≤ last)) =
      (all.take (last + 1 - number)).zipIdx number := by
  induction all generalizing number with
  | nil => simp
  | cons row all ih =>
    rw [List.zipIdx_cons, List.filter_cons]
    by_cases h : number ≤ last
    · have hlast : last + 1 - number = last + 1 - (number + 1) + 1 := by omega
      rw [if_pos (by simpa using h), ih, hlast, List.take_succ_cons, List.zipIdx_cons]
    · have hlast : last + 1 - number = 0 := by omega
      rw [if_neg (by simpa using h), ih, hlast, show last + 1 - (number + 1) = 0 by omega]
      rfl

theorem rows_range (first last : Nat) (all : List α) :
    (range first last).rows all = (all.drop (first - 1)).take (last - (first - 1)) := by
  have hsplit : ((all.zipIdx 1).filter fun (_, n) => decide (first ≤ n ∧ n ≤ last)) =
      ((all.zipIdx 1).filter fun (_, n) => decide (n ≤ last)).filter
        fun (_, n) => decide (first ≤ n) := by
    rw [List.filter_filter]
    simp
  rw [rows, hsplit, zipIdx_upTo, zipIdx_from, List.drop_take]
  simp

theorem rows_upTo (last : Nat) (all : List α) : (upTo last).rows all = all.take last := by
  rw [rows, counted_le, List.zipIdx_map_fst]
  simp

theorem rows_numbered (last : Option Nat) (skip : Nat) (all : List α) :
    (numbered last skip).rows all = (match last with
      | some last => (all.take last).drop skip
      | none => all.drop skip) := by
  cases last with
  | some last =>
    have hinner := counted_le last 1 all
    have hskip := zipIdx_from (skip + 1) 1 (all.take last)
    simp only [rows, Option.all_some, hinner, Nat.add_sub_cancel] at hskip ⊢
    exact hskip
  | none =>
    have hskip := zipIdx_from (skip + 1) 1 all
    simp only [rows, Option.all_none, counted_all, Nat.add_sub_cancel] at hskip ⊢
    exact hskip

/-! ## Words -/

/-- Characters that go on with a word. -/
def Solid (cs : List Char) : Prop :=
  ∀ c ∈ cs, c ≠ ' ' ∧ c ≠ '(' ∧ c ≠ ')' ∧ c ≠ ','

-- the characters are tried one by one, those of the text alone
instance (cs : List Char) : Decidable (Solid cs) :=
  List.decidableBAll (fun c => c ≠ ' ' ∧ c ≠ '(' ∧ c ≠ ')' ∧ c ≠ ',') cs

theorem wordsFrom_solid {cs : List Char} (h : Solid cs) (seen rest : List Char) :
    wordsFrom seen (cs ++ rest) = wordsFrom (seen ++ cs) rest := by
  induction cs generalizing seen with
  | nil => simp
  | cons c cs ih =>
    obtain ⟨⟨hblank, hopen, hclose, hcomma⟩, hcs⟩ := List.forall_mem_cons.1 h
    rw [List.cons_append, wordsFrom, if_neg hblank, if_neg (by simp [hopen, hclose, hcomma]),
      ih hcs]
    simp

theorem wordsFrom_split {c : Char} (hc : c = ' ' ∨ c = ')') (seen cs rest : List Char) :
    wordsFrom seen (cs ++ c :: rest) = wordsFrom seen cs ++ words (c :: rest) := by
  induction cs generalizing seen with
  | nil => rcases hc with rfl | rfl <;> rfl
  | cons d cs ih =>
    rw [List.cons_append, wordsFrom, wordsFrom]
    split
    · rw [ih, List.append_assoc]
    · split
      · rw [ih, List.append_assoc, List.cons_append]
      · exact ih _

@[simp] theorem words_blank (cs : List Char) : words (' ' :: cs) = words cs := rfl

@[simp] theorem words_bracket (cs : List Char) : words (')' :: cs) = ")" :: words cs := rfl

theorem words_solid {w : String} (h : Solid w.toList) (hw : w ≠ "") : words w.toList = [w] := by
  have := wordsFrom_solid h [] []
  rw [List.append_nil] at this
  rw [words, this, wordsFrom]
  simp [ended, hw]

/-- Words with a blank in front of each. -/
def spaced (ws : List String) : List Char :=
  ws.flatMap fun w => ' ' :: w.toList

/-- A text that is some words with a blank in front of each. -/
def Spells (text : String) (ws : List String) : Prop :=
  text.toList = spaced ws ∧ ∀ w ∈ ws, Solid w.toList ∧ w ≠ ""

instance (text : String) (ws : List String) : Decidable (Spells text ws) :=
  inferInstanceAs (Decidable (_ ∧ _))

theorem Spells.words {text : String} {ws : List String} (h : Spells text ws) :
    words text.toList = ws := by
  obtain ⟨htext, hws⟩ := h
  rw [htext]
  clear htext
  induction ws with
  | nil => rfl
  | cons w ws ih =>
    obtain ⟨⟨hsolid, hw⟩, hws⟩ := List.forall_mem_cons.1 hws
    have hword := words_solid hsolid hw
    rw [spaced, List.flatMap_cons, List.cons_append, words_blank]
    cases ws with
    | nil => simpa using hword
    | cons w' ws =>
      rw [List.flatMap_cons, List.cons_append, Page.words, wordsFrom_split (.inl rfl), ← Page.words,
        hword, List.singleton_append]
      exact congrArg _ (ih hws)

theorem spells_nil : Spells "" [] := by
  decide

theorem Spells.append {s s' : String} {ws ws' : List String} (h : Spells s ws)
    (h' : Spells s' ws') : Spells (s ++ s') (ws ++ ws') := by
  refine ⟨?_, fun w hw => ?_⟩
  · rw [String.toList_append, h.1, h'.1, spaced, spaced, spaced, List.flatMap_append]
  · rcases List.mem_append.1 hw with hw | hw
    · exact h.2 w hw
    · exact h'.2 w hw

/-! ## Numbers -/

theorem readDigits_digits {cs : List Char} (h : ∀ c ∈ cs, c.isDigit = true) (hcs : cs ≠ []) :
    Text.readDigits? cs = some (Nat.ofDigitChars 10 cs 0) := by
  have hfold (acc : Nat) : cs.foldl (fun acc c => acc.bind fun n =>
      if c.isDigit then some (10 * n + (c.toNat - 48)) else none) (some acc) =
        some (Nat.ofDigitChars 10 cs acc) := by
    clear hcs
    induction cs generalizing acc with
    | nil => simp
    | cons c cs ih =>
      obtain ⟨hc, hcs⟩ := List.forall_mem_cons.1 h
      rw [List.foldl_cons, Option.bind_some, if_pos hc, ih hcs, Nat.ofDigitChars_cons]
      rfl
  rw [Text.readDigits?, if_neg (by simpa using hcs), hfold]

variable (n : UInt64)

theorem digitsOf_toList : (digitsOf n).toList = Nat.toDigits 10 n.toNat := by
  rw [digitsOf, Nat.toString_eq_ofList_toDigits, String.toList_ofList]

theorem digitsOf_digit : ∀ c ∈ (digitsOf n).toList, c.isDigit = true := by
  rw [digitsOf_toList]
  exact fun c hc => Nat.isDigit_of_mem_toDigits (by decide) (by decide) hc

theorem digitsOf_ne : digitsOf n ≠ "" := by
  intro h
  have := digitsOf_toList n
  rw [h] at this
  exact Nat.toDigits_ne_nil this.symm

theorem digitsOf_solid : Solid (digitsOf n).toList := by
  intro c hc
  have hdigit := digitsOf_digit n c hc
  refine ⟨?_, ?_, ?_, ?_⟩ <;> rintro rfl <;> exact absurd hdigit (by decide)

theorem number_digitsOf : number? (digitsOf n) = some n.toNat := by
  have hne : (digitsOf n).toList ≠ [] := by
    rw [digitsOf_toList]
    exact Nat.toDigits_ne_nil
  rw [number?, readDigits_digits (digitsOf_digit n) hne, digitsOf_toList,
    Nat.ofDigitChars_ten_toDigits]

theorem spells_number (s : String) (ws : List String)
    (h : s.toList = spaced ws ++ [' '] ∧ ∀ w ∈ ws, Solid w.toList ∧ w ≠ "") :
    Spells (s ++ digitsOf n) (ws ++ [digitsOf n]) := by
  refine ⟨?_, fun w hw => ?_⟩
  · simp [h.1, spaced]
  · rcases List.mem_append.1 hw with hw | hw
    · exact h.2 w hw
    · obtain rfl := List.mem_singleton.1 hw
      exact ⟨digitsOf_solid n, digitsOf_ne n⟩

/-- Words that are written for a number unless it is zero. -/
def numbered? (n : UInt64) (ws : List String) : List String :=
  if n = 0 then [] else ws

variable {n} in
theorem Spells.unlessZero {s : String} {ws : List String} (h : Spells s ws) :
    Spells (unlessZero n s) (numbered? n ws) := by
  by_cases hn : n = 0
  · subst hn
    exact spells_nil
  · rwa [PolyglotSql.unlessZero, numbered?, if_pos (UInt64.pos_iff_ne_zero.2 hn), if_neg hn]

/-! ## Clauses -/

/-- A page keeps what a limit and an offset ask for of all results that a database may give. -/
def Keeps (page : Page) (limit offset : UInt64) : Prop :=
  ∀ (α : Type) (all : List α), all.length < 2 ^ 63 → page.rows all = window limit offset all

/-- The slice that a limit and an offset ask for. -/
def asked (limit offset : UInt64) : Page :=
  .slice (if limit = 0 then none else some limit.toNat) offset.toNat

theorem asked_keeps (limit offset : UInt64) : (asked limit offset).Keeps limit offset := by
  intro α all _
  unfold asked window
  split <;> rfl

variable {d : Dialect} {limit offset : UInt64}

theorem canonical_read (hcount : count? d (digitsOf limit) = some (some limit.toNat)) :
    limitOffset? d (words (PageClause.canonical limit offset).toList) =
      some (asked limit offset) := by
  have hspells := (spells_number limit " LIMIT " ["LIMIT"] (by decide)).unlessZero
    (n := limit) |>.append
      ((spells_number offset " OFFSET " ["OFFSET"] (by decide)).unlessZero
        (n := offset))
  rw [PageClause.canonical, hspells.words, asked]
  by_cases hl : limit = 0 <;> by_cases ho : offset = 0 <;>
    simp [numbered?, hl, ho, limitOffset?, hcount, number_digitsOf]

/-- A limit that an offset alone is given keeps all rows that a result may have. -/
theorem withUnbounded_read {unbounded : String} (count : Option Nat)
    (hunbounded : Spells (" LIMIT " ++ unbounded) ["LIMIT", unbounded])
    (hcount : limit ≠ 0 → count? d (digitsOf limit) = some (some limit.toNat))
    (hall : count? d unbounded = some count) (hcountAll : ∀ n ∈ count, 2 ^ 63 ≤ n) :
    ∃ page, limitThenOffset? d (words (PageClause.withUnbounded unbounded limit offset).toList) =
      some page ∧ page.Keeps limit offset := by
  have hoffset := spells_number offset " OFFSET " ["OFFSET"] (by decide)
  have hlimit := spells_number limit " LIMIT " ["LIMIT"] (by decide)
  by_cases hl : limit = 0
  · subst hl
    have hspells := (hunbounded.unlessZero (n := offset)).append (hoffset.unlessZero (n := offset))
    rw [PageClause.withUnbounded, if_neg (by decide), hspells.words]
    by_cases ho : offset = 0
    · subst ho
      exact ⟨asked 0 0, rfl, asked_keeps 0 0⟩
    · refine ⟨.slice count offset.toNat, ?_, fun α all hlength => ?_⟩
      · simp [numbered?, ho, limitThenOffset?, limitOffset?, hall, number_digitsOf]
      · cases count with
        | none => rfl
        | some n =>
          have hn := hcountAll n rfl
          rw [rows, window, if_pos rfl, List.take_of_length_le]
          rw [List.length_drop]
          omega
  · refine ⟨asked limit offset, ?_, asked_keeps limit offset⟩
    have hspells := hlimit.append (hoffset.unlessZero (n := offset))
    rw [PageClause.withUnbounded, if_pos (UInt64.pos_iff_ne_zero.2 hl), hspells.words, asked]
    by_cases ho : offset = 0 <;>
      simp [numbered?, hl, ho, limitThenOffset?, limitOffset?, hcount, number_digitsOf]

theorem offsetRowsFetch_read (s kind : String)
    (hfetch : s.toList = spaced ["FETCH", kind] ++ [' '] ∧
      ∀ w ∈ ["FETCH", kind], Solid w.toList ∧ w ≠ "")
    (hkind : kind = "FIRST" ∨ kind = "NEXT") :
    offsetRowsFetch? (words (unlessZero offset (" OFFSET " ++ digitsOf offset ++ " ROWS")
      ++ unlessZero limit (s ++ digitsOf limit ++ " ROWS ONLY")).toList) =
        some (asked limit offset) := by
  have hrows : Spells " ROWS" ["ROWS"] := by decide
  have honly : Spells " ROWS ONLY" ["ROWS", "ONLY"] := by decide
  have hskip := (spells_number offset " OFFSET " ["OFFSET"] (by decide)).append hrows
  have hcount := (spells_number limit s ["FETCH", kind] hfetch).append honly
  rw [((hskip.unlessZero (n := offset)).append (hcount.unlessZero (n := limit))).words, asked]
  rcases hkind with rfl | rfl <;> by_cases hl : limit = 0 <;> by_cases ho : offset = 0 <;>
    simp [numbered?, hl, ho, offsetRowsFetch?, fetch?, number_digitsOf]

theorem offsetFetch_read : offsetFetch? (words (PageClause.offsetFetchFirst.sql limit offset).toList) =
    some (asked limit offset) := by
  have hskip := spells_number offset " OFFSET " ["OFFSET"] (by decide)
  have honly : Spells " ROWS ONLY" ["ROWS", "ONLY"] := by decide
  have hcount := (spells_number limit " FETCH FIRST " ["FETCH", "FIRST"] (by decide)).append honly
  rw [PageClause.sql,
    ((hskip.unlessZero (n := offset)).append (hcount.unlessZero (n := limit))).words, asked]
  by_cases hl : limit = 0 <;> by_cases ho : offset = 0 <;>
    simp [numbered?, hl, ho, offsetFetch?, fetch?, number_digitsOf]

theorem saturatingAdd_toNat (a b : UInt64) :
    (saturatingAdd a b).toNat = min (a.toNat + b.toNat) (2 ^ 64 - 1) := by
  rw [saturatingAdd, UInt64.toNat_ofNat']
  exact Nat.mod_eq_of_lt (by simp only [Nat.reducePow, Nat.pow_eq]; omega)

/-- Rows by their numbers, where the last number may be beyond the last row. -/
theorem range_keeps {first last : Nat} (hfirst : first = min (offset.toNat + 1) (2 ^ 64 - 1))
    (hlast : if limit = 0 then 2 ^ 63 - 1 ≤ last
      else last = min (offset.toNat + limit.toNat) (2 ^ 64 - 1)) :
    (range first last).Keeps limit offset := by
  intro α all hlength
  rw [rows_range, window]
  by_cases ho : all.length ≤ offset.toNat
  · -- Both skip all the rows.
    rw [List.drop_eq_nil_of_le (i := first - 1) (by omega), List.drop_eq_nil_of_le ho]
    simp
  · obtain rfl : first = offset.toNat + 1 := by omega
    rw [Nat.add_sub_cancel]
    by_cases hl : limit = 0
    · rw [if_pos hl] at hlast ⊢
      rw [List.take_of_length_le (by rw [List.length_drop]; omega)]
    · rw [if_neg hl] at hlast ⊢
      by_cases hsum : offset.toNat + limit.toNat ≤ 2 ^ 64 - 1
      · rw [show last - offset.toNat = limit.toNat by omega]
      · rw [List.take_of_length_le (by rw [List.length_drop]; omega),
          List.take_of_length_le (by rw [List.length_drop]; omega)]

theorem rowsTo_read : ∃ page,
    range? (words (PageClause.rowsTo.sql limit offset).toList) = some page ∧
      page.Keeps limit offset := by
  rw [PageClause.sql]
  by_cases hnone : limit = 0 ∧ offset = 0
  · obtain ⟨rfl, rfl⟩ := hnone
    exact ⟨asked 0 0, rfl, asked_keeps 0 0⟩
  · let last := if 0 < limit then saturatingAdd offset limit else lastRowNumber
    have hspells := (spells_number (saturatingAdd offset 1) " ROWS " ["ROWS"]
      (by decide)).append (spells_number last " TO " ["TO"] (by decide))
    rw [← String.append_assoc] at hspells
    refine ⟨.range (saturatingAdd offset 1).toNat last.toNat, ?_,
      range_keeps (saturatingAdd_toNat offset 1) ?_⟩
    · rw [if_neg hnone, hspells.words]
      simp [range?, number_digitsOf]
    · by_cases hl : limit = 0
      · subst hl
        exact Nat.le_refl _
      · rw [if_neg hl]
        simp only [last, if_pos (UInt64.pos_iff_ne_zero.2 hl), saturatingAdd_toNat]

/-! ## Filters -/

theorem words_behind {s : String} {ws : List String} (h : Spells s ws) :
    words (")" ++ s).toList = ")" :: ws := by
  rw [String.toList_append, ← h.words]
  rfl

theorem words_behindTwo {s s' : String} {ws ws' : List String} (h : Spells s ws)
    (h' : Spells s' ws') : words (")" ++ (s ++ ")" ++ s')).toList = ")" :: (ws ++ ")" :: ws') := by
  have hsplit : words (s.toList ++ ')' :: s'.toList) = words s.toList ++ words (')' :: s'.toList) :=
    wordsFrom_split (.inr rfl) [] s.toList s'.toList
  rw [h.words, words_bracket, h'.words] at hsplit
  rw [String.toList_append, String.toList_append, String.toList_append, ← hsplit,
    List.append_assoc]
  rfl

variable {limit offset : UInt64}

theorem upTo_keeps (hl : limit ≠ 0) : (upTo limit.toNat).Keeps limit 0 := by
  intro α all _
  rw [rows_upTo, window, if_neg hl]
  rfl

theorem numbered_keeps (hl : limit ≠ 0) :
    (numbered (some (saturatingAdd offset limit).toNat) offset.toNat).Keeps limit offset := by
  intro α all hlength
  rw [rows_numbered, window, if_neg hl, saturatingAdd_toNat]
  dsimp only
  rw [List.drop_take]
  by_cases hsum : offset.toNat + limit.toNat ≤ 2 ^ 64 - 1
  · rw [show min (offset.toNat + limit.toNat) (2 ^ 64 - 1) - offset.toNat = limit.toNat by omega]
  · rw [List.take_of_length_le (by rw [List.length_drop]; omega),
      List.take_of_length_le (by rw [List.length_drop]; omega)]

theorem filter_read (h : limit ≠ 0 ∨ offset ≠ 0) : ∃ page,
    filter? (words ("SELECT" ++ RowNumbers.head offset ++ "(").toList)
      (words (")" ++ RowNumbers.tail limit offset).toList) = some page ∧
        page.Keeps limit offset := by
  have hfilter (m : UInt64) := spells_number m " WHERE rnum > " ["WHERE", "rnum", ">"]
    (by decide)
  by_cases ho : offset = 0
  · subst ho
    have hl : limit ≠ 0 := by simpa using h
    have hwords := words_behind
      (spells_number limit " WHERE ROWNUM <= " ["WHERE", "ROWNUM", "<="] (by decide))
    refine ⟨.upTo limit.toNat, ?_, upTo_keeps hl⟩
    rw [RowNumbers.head, RowNumbers.tail, if_pos rfl, if_pos rfl, hwords,
      show words ("SELECT" ++ " * FROM " ++ "(").toList = ["SELECT", "*", "FROM", "("] by decide]
    simp [filter?, number_digitsOf]
  · have hopening : words ("SELECT" ++ RowNumbers.head offset ++ "(").toList =
        ["SELECT", "*", "FROM", "(", "SELECT", "tid.*", ",", "ROWNUM", "rnum", "FROM", "("] := by
      rw [RowNumbers.head, if_neg ho]
      decide
    rw [hopening]
    by_cases hl : limit = 0
    · subst hl
      have htail : RowNumbers.tail 0 offset =
          " tid" ++ ")" ++ (" WHERE rnum > " ++ digitsOf offset) := by
        rw [RowNumbers.tail, if_neg ho, if_pos rfl, ← String.append_assoc]
        rfl
      have htid : Spells " tid" ["tid"] := by decide
      have hwords := words_behindTwo htid (hfilter offset)
      refine ⟨.numbered none offset.toNat, ?_, fun α all _ => rows_numbered none offset.toNat all⟩
      rw [htail, hwords]
      simp [filter?, number_digitsOf]
    · have htail : RowNumbers.tail limit offset =
          " tid WHERE ROWNUM <= " ++ digitsOf (saturatingAdd offset limit) ++ ")" ++
            (" WHERE rnum > " ++ digitsOf offset) := by
        have hbracket : ") WHERE rnum > " = ")" ++ " WHERE rnum > " := by decide
        rw [RowNumbers.tail, if_neg ho, if_neg hl, hbracket, ← String.append_assoc,
          ← String.append_assoc]
      have hwords := words_behindTwo (spells_number (saturatingAdd offset limit)
        " tid WHERE ROWNUM <= " ["tid", "WHERE", "ROWNUM", "<="] (by decide))
        (hfilter offset)
      refine ⟨.numbered (some (saturatingAdd offset limit).toNat) offset.toNat, ?_,
        numbered_keeps hl⟩
      rw [htail, hwords]
      simp [filter?, number_digitsOf]

end Page

/-! ## Dialects -/

/-- What a dialect writes at the end of a select for a limit and an offset. -/
def Dialect.limitText (d : Dialect) (limit offset : UInt64) : String :=
  match d.pageClause? with
  | some clause => clause.sql limit offset
  | none => PageClause.canonical limit offset

namespace Page

/-- A dialect that does not enclose selects writes a clause that reads as what was asked for. -/
theorem clause_read {d : Dialect} (hd : d ≠ .oracle) (limit offset : UInt64) : ∃ page,
    clause? d (words (d.limitText limit offset).toList) = some page ∧ page.Keeps limit offset := by
  have hasked {d : Dialect} {text : String}
      (h : clause? d (words text.toList) = some (asked limit offset)) :
      ∃ page, clause? d (words text.toList) = some page ∧ page.Keeps limit offset :=
    ⟨_, h, asked_keeps limit offset⟩
  have hnumber {d : Dialect} (h : count? d (digitsOf limit) = (number? (digitsOf limit)).map some) :
      count? d (digitsOf limit) = some (some limit.toNat) := by
    rw [h, number_digitsOf]
    rfl
  cases d with
  | oracle => exact absurd rfl hd
  | generic | postgresql | h2 => exact hasked (canonical_read (hnumber rfl))
  | derby => exact hasked (offsetRowsFetch_read " FETCH NEXT " "NEXT" (by decide) (.inr rfl))
  | db2 => exact hasked (offsetRowsFetch_read " FETCH FIRST " "FIRST" (by decide) (.inl rfl))
  | ingres => exact hasked offsetFetch_read
  | firebird => exact rowsTo_read
  | mysql =>
    exact withUnbounded_read (some 18446744073709551615) (by decide) (fun _ => hnumber rfl)
      (by decide) (by simp)
  | sqlite =>
    refine withUnbounded_read none (by decide) (fun _ => hnumber ?_) (by decide)
      (by simp)
    -- A limit in digits has no sign.
    rw [count?]
    split
    · rename_i digits hsign
      exact absurd (digitsOf_digit limit '-' (by simp [hsign])) (by decide)
    · rfl
  | hsqldb =>
    refine withUnbounded_read none (by decide) (fun hl => ?_) (by decide) (by simp)
    have hpos : limit.toNat ≠ 0 := fun h => hl (UInt64.toNat_inj.1 h)
    rw [count?, number_digitsOf, Option.map_some, if_neg hpos]

end Page
end PolyglotSql
