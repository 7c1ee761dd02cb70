import Mathlib.Data.List.Basic
import PolyglotSql.Batch.Format
import PolyglotSql.Batch.Script

/-!
# PolyglotSql.Proofs.Batch.Lines

The lines of a report as text. A report is printed as comments and SQL, each ended by a line break
(`text_entries`), and only the first line of a comment begins with the sign for comments. A comment
has more lines than that exactly if a source that is echoed, an error message or a text that is bound
has a line break (`mem_comments_break`).
-/

namespace PolyglotSql

/-! ## Line breaks -/

namespace Text

/-- What stands between the line breaks of a text. -/
def lines (s : String) : List (List Char) :=
  s.toList.splitOn '\n'

theorem mem_join {separator : String} {c : Char} (hc : c ∉ separator.toList) (parts : List String) :
    c ∈ (join separator parts).toList ↔ ∃ p ∈ parts, c ∈ p.toList := by
  induction parts with
  | nil => simp [join]
  | cons p parts ih =>
    cases parts with
    | nil => simp [join]
    | cons q parts =>
      rw [join, String.intercalate_cons_cons, ← join, String.toList_append, String.toList_append,
        List.mem_append, List.mem_append, ih, List.exists_mem_cons_iff]
      simp [hc]

theorem toList_join (parts : List String) : (join "" parts).toList = parts.flatMap String.toList := by
  induction parts with
  | nil => simp [join]
  | cons p parts ih =>
    cases parts with
    | nil => simp [join]
    | cons q parts =>
      rw [join, String.intercalate_cons_cons, ← join, String.toList_append, ih]
      simp

/-- A text that is printed line by line has the lines of what is printed, and an empty one behind
the last line break. -/
theorem lines_printed (entries : List String) :
    lines (join "" (entries.map endOfLine)) = entries.flatMap lines ++ [[]] := by
  rw [lines, toList_join, List.flatMap_map]
  induction entries with
  | nil => rfl
  | cons e entries ih =>
    have hentry : (endOfLine e).toList = e.toList ++ ['\n'] := by simp [endOfLine]
    rw [List.flatMap_cons, hentry, List.append_assoc, List.singleton_append,
      List.splitOn_append_cons_self, ih, List.flatMap_cons, List.append_assoc]
    rfl

theorem lines_single {s : String} (h : '\n' ∉ s.toList) : lines s = [s.toList] :=
  List.splitOn_eq_singleton h

end Text

theorem break_not_digit (n : Nat) : '\n' ∉ Nat.toDigits 10 n := by
  intro h
  have := Nat.isDigit_of_mem_toDigits (by decide) (by decide) h
  cases this

theorem break_not_number (n : Nat) : '\n' ∉ (toString n).toList := by
  rw [Nat.toString_eq_ofList_toDigits, String.toList_ofList]
  exact break_not_digit n

theorem break_not_integer (n : Int) : '\n' ∉ (toString n).toList := by
  cases n with
  | ofNat n => exact break_not_number n
  | negSucc n =>
    have hsign : (toString (Int.negSucc n)).toList = '-' :: (toString (n + 1)).toList := by
      rw [show toString (Int.negSucc n) = "-" ++ toString (n + 1) from rfl, String.toList_append]
      rfl
    rw [hsign]
    simpa using break_not_number (n + 1)

namespace Binary64

theorem break_not_zeros (n : Nat) : '\n' ∉ zeros n := by
  simp [zeros]

theorem break_not_positional (d : Decimal) :
    '\n' ∉ (positional d).1 ∧ '\n' ∉ (positional d).2 := by
  have hdigits : '\n' ∉ d.digits := break_not_digit d.significand
  have htake (n : Nat) : '\n' ∉ d.digits.take n := fun h => hdigits (List.mem_of_mem_take h)
  have hdrop (n : Nat) : '\n' ∉ d.digits.drop n := fun h => hdigits (List.mem_of_mem_drop h)
  unfold positional
  dsimp only
  split
  · exact ⟨by simp, by simp [hdigits, break_not_zeros]⟩
  · exact ⟨by simp [htake, break_not_zeros], hdrop _⟩

theorem break_not_plain (x : Binary64) : '\n' ∉ x.plain.toList := by
  have hsign : '\n' ∉ x.sign.toList := by
    unfold sign
    split <;> decide
  obtain ⟨hwhole, hfraction⟩ := break_not_positional x.shortest
  unfold plain
  generalize positional x.shortest = parts at hwhole hfraction
  obtain ⟨whole, fraction⟩ := parts
  split
  · decide
  · split
    · simp [hsign]
    · split
      · simp [hsign]
      · cases fraction with
        | nil => simp_all
        | cons c cs => simp_all

end Binary64

/-- A value that has a text with a line break. -/
inductive Value.Breaks : Value → Prop
  | text {s : String} (h : '\n' ∈ s.toList) : Breaks (.text s)
  | item {items : List Value} {v : Value} (hv : v ∈ items) (h : Breaks v) : Breaks (.list items)

namespace Value

/-- Quotes are the only characters that are written otherwise in a literal of a text. -/
theorem mem_textLiteral {s : String} {c : Char} (hc : c ≠ '\'') :
    c ∈ (text s).literal.toList ↔ c ∈ s.toList := by
  have hliteral : (text s).literal.toList = '\'' ::
      ((s.toList.flatMap fun d => if d = '\'' then ['\'', '\''] else [d]) ++ ['\'']) := by
    simp [literal, Text.replaceChar]
  simp only [hliteral, List.mem_cons, List.mem_append, List.mem_flatMap, hc, false_or,
    List.not_mem_nil, or_false]
  constructor
  · rintro ⟨d, hd, h⟩
    split at h
    · exact absurd h (by simpa using hc)
    · rwa [List.mem_singleton.1 h]
  · intro h
    exact ⟨c, h, by simp [hc]⟩

theorem mem_literal_break (v : Value) : '\n' ∈ v.literal.toList ↔ v.Breaks := by
  have hnone {v : Value} (hv : '\n' ∉ v.literal.toList) (h : ¬ v.Breaks) :
      '\n' ∈ v.literal.toList ↔ v.Breaks := iff_of_false hv h
  induction v using Value.literal.induct with
  | case1 => exact hnone (by simp [literal]) nofun
  | case2 => exact hnone (by simp [literal]) nofun
  | case3 => exact hnone (by simp [literal]) nofun
  | case4 n => exact hnone (by simpa [literal] using break_not_integer n.toInt) nofun
  | case5 x => exact hnone (by simpa [literal] using x.break_not_plain) nofun
  | case6 s =>
    rw [mem_textLiteral (by decide)]
    constructor
    · exact .text
    · rintro ⟨h⟩
      exact h
  | case7 items ih =>
    have hlist : '\n' ∈ (list items).literal.toList ↔
        '\n' ∈ (Text.join ", " (items.map literal)).toList := by
      simp [literal]
    rw [hlist, Text.mem_join (by decide)]
    constructor
    · intro h
      obtain ⟨p, hp, hbreak⟩ := h
      obtain ⟨v, hv, rfl⟩ := List.mem_map.1 hp
      exact .item hv ((ih v hv).1 hbreak)
    · rintro (_ | ⟨hv, h⟩)
      rename_i v
      exact ⟨v.literal, List.mem_map_of_mem hv, (ih v hv).2 h⟩

end Value

/-! ## Comments -/

theorem Binding.mem_describe_break (b : Binding) : '\n' ∈ b.describe.toList ↔ b.value.Breaks := by
  have hposition := break_not_number b.position
  have htype (t : SqlType) : '\n' ∉ t.name.toList := by
    cases t <;> decide
  unfold describe
  rw [← b.value.mem_literal_break]
  cases b.sqlType with
  | none => simp_all
  | some t => simp_all

/-- The sign in front of a comment stands in front of its first line. -/
theorem Text.lines_comment {s : String} (h : "--".toList <+: s.toList) :
    ∃ first further, lines s = first :: further ∧ "--".toList <+: first := by
  obtain ⟨rest, hrest⟩ := h
  obtain ⟨first, further, hlines⟩ := List.exists_cons_of_ne_nil (List.splitOn_ne_nil '\n' rest)
  refine ⟨"--".toList ++ first, further, ?_, List.prefix_append _ _⟩
  -- The sign has no line break, so it goes in front of whatever the first line is without it.
  have hsign (cs : List Char) : "--".toList ++ cs = '-' :: '-' :: cs := by simp
  rw [lines, ← hrest, hsign, hsign]
  simp [List.splitOn_cons_eq_if_modifyHead, hlines]

namespace Outcome

variable {d : Dialect} {verbose : Bool} {o : Outcome}

/-- The comments on a statement: its number, its source, and either the error or what is bound. -/
def comments (d : Dialect) (verbose : Bool) (o : Outcome) : List String :=
  ("-- #" ++ toString o.index ++ " " ++ d.name) ::
    ((if verbose then ["-- source: " ++ o.source] else []) ++
      match o.error with
      | some error => ["-- error: " ++ error]
      | none =>
        if o.bindings.isEmpty then []
        else ["-- bindings: " ++ Text.join ", " (o.bindings.map Binding.describe)])

/-- The SQL that is printed: that of a statement without error. -/
def shownSql (o : Outcome) : Option String :=
  if o.isOk then o.sql else none

/-- Something that is shown in comments has a line break. -/
def Breaks (verbose : Bool) (o : Outcome) : Prop :=
  (verbose = true ∧ '\n' ∈ o.source.toList) ∨
    (∃ error, o.error = some error ∧ '\n' ∈ error.toList) ∨
    (o.error = none ∧ ∃ b ∈ o.bindings, b.value.Breaks)

theorem mem_lines {options : OutputOptions} (hplain : options.colored = false) {line : String} :
    line ∈ o.lines d options ↔
      line ∈ o.comments d options.verbose ∨ o.shownSql = some line := by
  have hpaint (e : Emphasis) (s : String) : e.paint options.colored s = s := by
    simp [Emphasis.paint, hplain]
  obtain ⟨index, source, sql, bindings, error⟩ := o
  simp only [lines, comments, shownSql, isOk, hpaint]
  cases error with
  | some error => simp
  | none =>
    have hsql : line ∈ sql.toList ↔ sql = some line := Option.mem_toList
    simp only [Option.isNone_none, if_true, List.mem_cons, List.mem_append, hsql]
    tauto

theorem comments_sign {comment : String} (h : comment ∈ o.comments d verbose) :
    "--".toList <+: comment.toList := by
  have hsign {word : String} (hword : "--".toList <+: word.toList) (s : String) :
      "--".toList <+: (word ++ s).toList := by
    rw [String.toList_append]
    exact hword.trans (List.prefix_append _ _)
  unfold comments at h
  rcases List.mem_cons.1 h with rfl | h
  · exact hsign (hsign (hsign (by decide) _) _) _
  · rcases List.mem_append.1 h with h | h
    · split at h
      · rw [List.mem_singleton.1 h]
        exact hsign (by decide) _
      · cases h
    · split at h
      · rw [List.mem_singleton.1 h]
        exact hsign (by decide) _
      · split at h
        · cases h
        · rw [List.mem_singleton.1 h]
          exact hsign (by decide) _

theorem comments_break :
    (∃ comment ∈ o.comments d verbose, '\n' ∈ comment.toList) ↔ o.Breaks verbose := by
  have hindex := break_not_number o.index
  have hname : '\n' ∉ d.name.toList := by
    cases d <;> decide
  have hbindings : '\n' ∈ (Text.join ", " (o.bindings.map Binding.describe)).toList ↔
      ∃ b ∈ o.bindings, b.value.Breaks := by
    simp [Text.mem_join, Binding.mem_describe_break]
  have hheader : '\n' ∉ ("-- #" ++ toString o.index ++ " " ++ d.name).toList := by
    simp_all
  have hsource : (∃ comment ∈ if verbose then ["-- source: " ++ o.source] else [],
      '\n' ∈ comment.toList) ↔ verbose = true ∧ '\n' ∈ o.source.toList := by
    cases verbose <;> simp
  unfold comments Breaks
  rw [List.exists_mem_cons_iff]
  simp only [hheader, false_or, List.mem_append, or_and_right, exists_or, hsource]
  cases o.error with
  | some error => simp
  | none =>
    cases hempty : o.bindings with
    | nil => simp
    | cons b bs =>
      simp only [hempty, List.map_cons, List.exists_mem_cons_iff] at hbindings
      simp [hbindings]

end Outcome

namespace BatchReport

variable {r : BatchReport} {options : OutputOptions}

/-- The number of failed statements, if there are any. -/
def summary (r : BatchReport) : List String :=
  if 0 < r.failedCount then
    ["-- " ++ toString r.failedCount ++ " of " ++ toString r.statements.length ++
      " statements failed"]
  else []

def comments (verbose : Bool) (r : BatchReport) : List String :=
  r.statements.flatMap (·.comments r.dialect verbose) ++ r.summary

/-- What is printed, one after another; there is an empty text behind each statement. -/
def entries (options : OutputOptions) (r : BatchReport) : List String :=
  r.statements.flatMap (fun o => o.lines r.dialect options ++ [""]) ++ r.summary

theorem text_entries (hplain : options.colored = false) :
    r.text options = Text.join "" ((r.entries options).map endOfLine) := by
  have hsummary : (if 0 < r.failedCount then
        endOfLine (Emphasis.paint .summary options.colored ("-- " ++ toString r.failedCount ++
          " of " ++ toString r.statements.length ++ " statements failed"))
      else "") = Text.join "" (r.summary.map endOfLine) := by
    unfold summary
    split <;> simp [Emphasis.paint, hplain, Text.join]
  rw [text, ← String.toList_inj]
  simp only [hsummary]
  simp [Text.toList_join, entries, endOfLine, List.flatMap_map, List.flatMap_assoc]

/-- Empty texts apart, what is printed is SQL and comments. -/
theorem mem_entries (hplain : options.colored = false) {entry : String} :
    entry ∈ r.entries options ∨ entry = "" ↔ entry = "" ∨
      (∃ o ∈ r.statements, o.shownSql = some entry) ∨ entry ∈ r.comments options.verbose := by
  have hlines (o : Outcome) : entry ∈ o.lines r.dialect options ++ [""] ↔
      entry ∈ o.comments r.dialect options.verbose ∨ o.shownSql = some entry ∨ entry = "" := by
    rw [List.mem_append, List.mem_singleton, Outcome.mem_lines hplain, or_assoc]
  simp only [entries, comments, List.mem_append, List.mem_flatMap, hlines]
  constructor
  · rintro ((⟨o, ho, h | h | h⟩ | h) | h)
    · exact .inr (.inr (.inl ⟨o, ho, h⟩))
    · exact .inr (.inl ⟨o, ho, h⟩)
    · exact .inl h
    · exact .inr (.inr (.inr h))
    · exact .inl h
  · rintro (h | ⟨o, ho, h⟩ | ⟨o, ho, h⟩ | h)
    · exact .inr h
    · exact .inl (.inl ⟨o, ho, .inr (.inl h)⟩)
    · exact .inl (.inl ⟨o, ho, .inl h⟩)
    · exact .inl (.inr h)

theorem summary_plain {line : String} (h : line ∈ r.summary) :
    "--".toList <+: line.toList ∧ '\n' ∉ line.toList := by
  unfold summary at h
  split at h
  · rw [List.mem_singleton.1 h]
    have hfailed := break_not_number r.failedCount
    have hall := break_not_number r.statements.length
    constructor
    · simp only [String.toList_append, List.append_assoc]
      exact List.prefix_append_of_prefix (by decide)
    · simp_all
  · cases h

theorem comments_sign {verbose : Bool} {comment : String} (h : comment ∈ r.comments verbose) :
    "--".toList <+: comment.toList := by
  rcases List.mem_append.1 h with h | h
  · obtain ⟨o, -, ho⟩ := List.mem_flatMap.1 h
    exact Outcome.comments_sign ho
  · exact (summary_plain h).1

theorem comments_break {verbose : Bool} : (∃ comment ∈ r.comments verbose, '\n' ∈ comment.toList) ↔
    ∃ o ∈ r.statements, o.Breaks verbose := by
  constructor
  · rintro ⟨comment, hcomment, hbreak⟩
    rcases List.mem_append.1 hcomment with h | h
    · obtain ⟨o, ho, h⟩ := List.mem_flatMap.1 h
      exact ⟨o, ho, Outcome.comments_break.1 ⟨comment, h, hbreak⟩⟩
    · exact absurd hbreak (summary_plain h).2
  · rintro ⟨o, ho, h⟩
    obtain ⟨comment, hcomment, hbreak⟩ := Outcome.comments_break.2 h
    exact ⟨comment, List.mem_append_left _ (List.mem_flatMap.2 ⟨o, ho, hcomment⟩), hbreak⟩

theorem mem_lines_text (hplain : options.colored = false) {line : List Char} :
    line ∈ Text.lines (r.text options) ↔ line = [] ∨
      (∃ o ∈ r.statements, ∃ sql, o.shownSql = some sql ∧ line ∈ Text.lines sql) ∨
      ∃ comment ∈ r.comments options.verbose, line ∈ Text.lines comment := by
  have hempty : line ∈ Text.lines "" ↔ line = [] := List.mem_singleton
  have hentries : line ∈ Text.lines (r.text options) ↔
      ∃ entry, (entry ∈ r.entries options ∨ entry = "") ∧ line ∈ Text.lines entry := by
    rw [text_entries hplain, Text.lines_printed, List.mem_append, List.mem_flatMap,
      List.mem_singleton, ← hempty]
    simp only [or_and_right, exists_or, exists_eq_left]
  rw [hentries]
  simp only [mem_entries hplain, or_and_right, exists_or, exists_eq_left, hempty]
  constructor
  · rintro (h | ⟨sql, ⟨o, ho, hsql⟩, h⟩ | h)
    · exact .inl h
    · exact .inr (.inl ⟨o, ho, sql, hsql, h⟩)
    · exact .inr (.inr h)
  · rintro (h | ⟨o, ho, sql, hsql, h⟩ | h)
    · exact .inl h
    · exact .inr (.inl ⟨sql, ⟨o, ho, hsql⟩, h⟩)
    · exact .inr (.inr h)

/-- Whether a line of a report as text is empty, a line of SQL, or in a comment. -/
def Accounts (r : BatchReport) (line : List Char) : Prop :=
  line = [] ∨ (∃ o ∈ r.statements, ∃ sql, o.shownSql = some sql ∧ line ∈ Text.lines sql) ∨
    "--".toList <+: line

/-- The lines of a report as text without colours: empty ones, those of the SQL, and those of the
comments, of which the first ones begin as comments. If no source that is echoed, no error message
and no text that is bound has a line break, comments have no further lines, and so nothing but SQL
stands outside of comments. -/
theorem text_lines (r : BatchReport) (options : OutputOptions) (hplain : options.colored = false) :
    (∀ line, line ∈ Text.lines (r.text options) ↔ line = [] ∨
      (∃ o ∈ r.statements, ∃ sql, o.shownSql = some sql ∧ line ∈ Text.lines sql) ∨
      ∃ comment ∈ r.comments options.verbose, line ∈ Text.lines comment) ∧
    (∀ comment ∈ r.comments options.verbose, ∃ first further,
      Text.lines comment = first :: further ∧ "--".toList <+: first) ∧
    ((∃ comment ∈ r.comments options.verbose, '\n' ∈ comment.toList) ↔
      ∃ o ∈ r.statements, o.Breaks options.verbose) ∧
    ((∀ o ∈ r.statements, ¬ o.Breaks options.verbose) →
      ∀ line ∈ Text.lines (r.text options), r.Accounts line) := by
  refine ⟨fun line => mem_lines_text hplain,
    fun comment h => Text.lines_comment (comments_sign h), comments_break, ?_⟩
  intro hbreaks line hline
  rcases (mem_lines_text hplain).1 hline with h | h | ⟨comment, hcomment, h⟩
  · exact .inl h
  · exact .inr (.inl h)
  · have hsingle : '\n' ∉ comment.toList := by
      intro hbreak
      obtain ⟨o, ho, hobreaks⟩ := comments_break.1 ⟨comment, hcomment, hbreak⟩
      exact hbreaks o ho hobreaks
    rw [Text.lines_single hsingle, List.mem_singleton] at h
    exact .inr (.inr (h ▸ comments_sign hcomment))

/-- What becomes of `SELECT 'text'`. -/
def textSelected (source text : String) : BatchReport :=
  ⟨.generic, [.translated 1 source ⟨"SELECT ?", [⟨1, .text text, none⟩]⟩]⟩

theorem text_lines_oneLine :
    let r := textSelected "SELECT 'x'" "x"
    let options : OutputOptions := ⟨.text, false, true⟩
    Translator.translateScript ⟨.generic, .whenNeeded⟩ .empty "SELECT 'x'" = .ok (.ok r) ∧
      options.colored = false ∧ (∀ o ∈ r.statements, ¬ o.Breaks options.verbose) ∧
      ∀ line ∈ Text.lines (r.text options), r.Accounts line := by
  intro r options
  have hbreaks : ∀ o ∈ r.statements, ¬ o.Breaks options.verbose := by
    intro o ho
    obtain rfl := List.mem_singleton.1 ho
    rintro (⟨-, h⟩ | ⟨error, h, -⟩ | ⟨-, b, hb, h⟩)
    · exact absurd h (by decide)
    · cases h
    · obtain rfl := List.mem_singleton.1 hb
      cases h with
      | text h => exact absurd h (by decide)
  exact ⟨by decide +kernel, rfl, hbreaks, (text_lines r options rfl).2.2.2 hbreaks⟩

/-- The second line of a text that is bound stands outside of comments. -/
theorem boundText_uncommented :
    let r := textSelected "SELECT 'x\ny'" "x\ny"
    Translator.translateScript ⟨.generic, .whenNeeded⟩ .empty "SELECT 'x\ny'" = .ok (.ok r) ∧
      "y'".toList ∈ Text.lines (r.text ⟨.text, false, false⟩) ∧ ¬ r.Accounts "y'".toList := by
  intro r
  refine ⟨by decide +kernel, ?_, ?_⟩
  · have hbinding : Binding.describe ⟨1, .text "x\ny", none⟩ = "1 = 'x\ny'" := by
      simp only [Binding.describe, Value.literal]
      decide +kernel
    have hcomment : "-- bindings: 1 = 'x\ny'" ∈ r.comments false := by
      refine List.mem_append_left _ (List.mem_flatMap.2 ⟨_, .head _, .tail _ ?_⟩)
      change _ ∈ ["-- bindings: " ++ Text.join ", " [Binding.describe ⟨1, .text "x\ny", none⟩]]
      rw [hbinding]
      decide +kernel
    exact (mem_lines_text rfl).2 (.inr (.inr ⟨_, hcomment, by decide +kernel⟩))
  · rintro (h | ⟨o, ho, sql, hsql, h⟩ | h)
    · exact absurd h (by decide)
    · obtain rfl := List.mem_singleton.1 ho
      obtain rfl := Option.some.inj hsql
      exact absurd h (by decide)
    · exact absurd h (by decide)

end BatchReport
end PolyglotSql
