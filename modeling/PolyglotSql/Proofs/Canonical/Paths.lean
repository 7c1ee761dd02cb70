import Mathlib.Data.List.TakeDrop
import Mathlib.Data.List.TakeWhile
import PolyglotSql.Proofs.Rendering.Reading
import PolyglotSql.Sql.Literal
import PolyglotSql.Term.Basic

/-!
# PolyglotSql.Proofs.Canonical.Paths

Dotted names, as a tree keeps them. A table is kept by the text of its path, cut at the last dot, so
that the names in the tree are those of the path only where no part is in quotes, no dot is in the
last part, and there are two parts at most (`tableNames_iff`). The text of a path reads back as its
parts where each is written as the dialect writes names (`path_pathText`).
-/

namespace PolyglotSql

/-! ## Cutting at the last dot -/

namespace Text

theorem span_dot {s : List Char} (h : '.' ∉ s) (rest : List Char) :
    (s ++ '.' :: rest).span (· ≠ '.') = (s, '.' :: rest) := by
  have hall : ∀ c ∈ s, decide (c ≠ '.') = true := by
    intro c hc
    rw [decide_eq_true_iff]
    rintro rfl
    exact h hc
  rw [List.span_eq_takeWhile_dropWhile, List.takeWhile_append_of_pos hall,
    List.dropWhile_append_of_pos hall]
  simp

theorem cutLastDot_some {s : String} {qualifier last : List Char}
    (hs : s.toList = qualifier ++ '.' :: last) (h : '.' ∉ last) :
    cutLastDot s = some (String.ofList qualifier, String.ofList last) := by
  have hreverse : s.toList.reverse = last.reverse ++ '.' :: qualifier.reverse := by
    simp [hs]
  rw [cutLastDot, hreverse, span_dot (by simpa using h)]
  simp

theorem exists_lastDot {s : List Char} (h : '.' ∈ s) :
    ∃ qualifier last, s = qualifier ++ '.' :: last ∧ '.' ∉ last := by
  obtain ⟨last, qualifier, he, hlast⟩ := List.eq_append_cons_of_mem (List.mem_reverse.2 h)
  refine ⟨qualifier.reverse, last.reverse, ?_, by simpa using hlast⟩
  simpa using congrArg List.reverse he

theorem cutLastDot_eq_none {s : String} : cutLastDot s = none ↔ '.' ∉ s.toList := by
  constructor
  · intro h hdot
    obtain ⟨qualifier, last, hs, hlast⟩ := exists_lastDot hdot
    cases h.symm.trans (cutLastDot_some hs hlast)
  · intro h
    have hall : ∀ c ∈ s.toList.reverse, decide (c ≠ '.') = true := by
      intro c hc
      rw [decide_eq_true_iff]
      rintro rfl
      exact h (List.mem_reverse.1 hc)
    rw [cutLastDot, List.span_eq_takeWhile_dropWhile, List.dropWhile_eq_nil_iff.2 hall]

/-- A text is the two that it is cut into, around the dot. -/
theorem cutLastDot_eq_some {s qualifier last : String} :
    cutLastDot s = some (qualifier, last) ↔
      s.toList = qualifier.toList ++ '.' :: last.toList ∧ '.' ∉ last.toList := by
  constructor
  · intro h
    by_cases hdot : '.' ∈ s.toList
    · obtain ⟨before, behind, hs, hbehind⟩ := exists_lastDot hdot
      cases h.symm.trans (cutLastDot_some hs hbehind)
      simpa using ⟨hs, hbehind⟩
    · cases h.symm.trans (cutLastDot_eq_none.2 hdot)
  · intro h
    simpa using cutLastDot_some h.1 h.2

end Text

namespace Sql

/-! ## Written names -/

theorem length_le_doubleQuotes (quote last : Char) (cs : List Char) :
    cs.length ≤ (doubleQuotes quote last cs).length := by
  fun_induction doubleQuotes quote last cs with
  | case1 | case2 | case3 => simp
  | case6 _ _ _ _ _ ih =>
    simp only [List.length_cons] at ih ⊢
    omega
  | case4 | case5 | case7 => simp_all

theorem Name.text_unquoted {n : Name} (h : n.quote = none) : n.text = n.value := by
  simp [Name.text, h]

/-- A name is as long as it is written only without quotes. -/
theorem Name.length_text (n : Name) :
    n.value.toList.length ≤ n.text.toList.length ∧
      (n.text.toList.length = n.value.toList.length → n.quote = none) := by
  cases h : n.quote with
  | none => simp [n.text_unquoted h]
  | some quote =>
    have := length_le_doubleQuotes quote '\x00' n.value.toList
    simp only [Name.text, h, withQuotes, String.toList_append, List.length_append,
      String.toList_ofList, String.toList_singleton, List.length_singleton]
    omega

theorem pathText_singleton (n : Name) : pathText [n] = n.text := by
  simp [pathText, Text.join]

theorem pathText_cons (n next : Name) (path : Path) :
    (pathText (n :: next :: path)).toList =
      n.text.toList ++ '.' :: (pathText (next :: path)).toList := by
  simp [pathText, Text.join]

/-! ## Tables -/

/-- The names by which a tree keeps a table, the schema first. -/
def tableNames (path : Path) : List String :=
  match Text.cutLastDot (pathText path) with
  | some (schema, name) => [schema, name]
  | none => [pathText path]

theorem tableOf_names (path : Path) (alias_ : Option String) :
    ∃ name schema, Term.tableOf (pathText path) alias_ = .leaf (.table name schema alias_) ∧
      schema.toList ++ [name] = tableNames path := by
  unfold Term.tableOf tableNames
  cases Text.cutLastDot (pathText path) with
  | none => exact ⟨_, none, rfl, rfl⟩
  | some cut => exact ⟨cut.2, some cut.1, rfl, rfl⟩

/-- A table without quotes, whose only dot stands between a schema and a name. -/
def PlainTable : Path → Prop
  | [name] => name.quote = none ∧ '.' ∉ name.value.toList
  | [schema, name] => schema.quote = none ∧ name.quote = none ∧ '.' ∉ name.value.toList
  | _ => False

theorem tableNames_one {path : Path} {s : String} :
    tableNames path = [s] ↔ pathText path = s ∧ '.' ∉ s.toList := by
  unfold tableNames
  cases hcut : Text.cutLastDot (pathText path) with
  | none =>
    have hdot := Text.cutLastDot_eq_none.1 hcut
    simp only [List.cons.injEq, and_true]
    constructor
    · rintro rfl
      exact ⟨rfl, hdot⟩
    · exact And.left
  | some cut =>
    simp only [List.cons.injEq, reduceCtorEq, and_false, false_iff]
    rintro ⟨rfl, hdot⟩
    rw [Text.cutLastDot_eq_none.2 hdot] at hcut
    cases hcut

theorem tableNames_two {path : Path} {s s' : String} :
    tableNames path = [s, s'] ↔
      (pathText path).toList = s.toList ++ '.' :: s'.toList ∧ '.' ∉ s'.toList := by
  rw [← Text.cutLastDot_eq_some]
  unfold tableNames
  cases Text.cutLastDot (pathText path) with
  | none => simp
  | some cut => simp [Prod.ext_iff]

/-- The names of a plain table alone are kept. -/
theorem tableNames_iff (path : Path) : tableNames path = path.map (·.value) ↔ PlainTable path := by
  match path with
  | [] =>
    have : tableNames [] = [""] := by decide
    simp [this, PlainTable]
  | [name] =>
    rw [List.map_singleton, tableNames_one, pathText_singleton, PlainTable]
    constructor
    · rintro ⟨hsame, hdot⟩
      exact ⟨name.length_text.2 (by rw [hsame]), hdot⟩
    · rintro ⟨hquote, hdot⟩
      exact ⟨Name.text_unquoted hquote, hdot⟩
  | [schema, name] =>
    rw [List.map_cons, List.map_singleton, tableNames_two, pathText_cons, pathText_singleton,
      PlainTable]
    constructor
    · rintro ⟨hsame, hdot⟩
      -- Quotes would make the text longer than the two values and the dot.
      have hlength := congrArg List.length hsame
      simp only [List.length_append, List.length_cons] at hlength
      have hschema := schema.length_text
      have hname := name.length_text
      exact ⟨hschema.2 (by omega), hname.2 (by omega), hdot⟩
    · rintro ⟨hschema, hname, hdot⟩
      rw [Name.text_unquoted hschema, Name.text_unquoted hname]
      exact ⟨rfl, hdot⟩
  | a :: b :: c :: rest =>
    have htwo : (tableNames (a :: b :: c :: rest)).length ≤ 2 := by
      unfold tableNames
      split <;> simp
    refine ⟨fun h => ?_, False.elim⟩
    rw [h, List.length_map] at htwo
    simp at htwo

/-! ## Reading back -/

/-- A name that is written as the policy for a delimiter may write it. -/
def Name.Faithful (quote : Char) (n : Name) : Prop :=
  n.quote = none ∧ Identifier.isPlain n.value = true ∨ n.text = QuoteStyle.delimit quote n.value

theorem Name.Faithful.read {quote : Char} {n : Name} {rest : List Char} (h : n.Faithful quote)
    (hquote : Identifier.isPlainPart quote = false) (hrest : Lexeme.Apart quote rest) :
    Lexeme.read quote (n.text.toList ++ rest) = .name n.value :: Lexeme.read quote rest := by
  rcases h with ⟨hnone, hplain⟩ | htext
  · rw [n.text_unquoted hnone]
    exact Lexeme.read_plain hplain hquote hrest
  · rw [htext]
    exact Lexeme.read_delimit n.value hrest

/-- A path of faithful names reads back in front of an asterisk. -/
theorem path_pathText {quote : Char} {n : Name} {path : Path}
    (hquote : Identifier.isPlainPart quote = false) (hdot : Lexeme.IsSign quote '.')
    (hasterisk : Lexeme.IsSign quote '*') (h : ∀ m ∈ n :: path, m.Faithful quote)
    (rest : List Char) :
    Lexeme.path (Lexeme.read quote ((pathText (n :: path)).toList ++ '.' :: '*' :: rest)) =
      (n :: path).map (·.value) := by
  have hapart (cs : List Char) : Lexeme.Apart quote ('.' :: cs) :=
    Lexeme.apart_cons (by decide) hdot.1 cs
  induction path generalizing n with
  | nil =>
    rw [pathText_singleton, (h n (by simp)).read hquote (hapart _), Lexeme.read_sign hdot,
      Lexeme.read_sign hasterisk]
    rfl
  | cons next path ih =>
    rw [pathText_cons, List.append_assoc, List.cons_append, (h n (by simp)).read hquote (hapart _),
      Lexeme.read_sign hdot, Lexeme.path, ih fun m hm => h m (List.mem_cons_of_mem n hm)]
    rfl

end Sql

end PolyglotSql
