import Mathlib
import PolyglotSql.Proofs.Canonical.Selects
import PolyglotSql.Proofs.Rendering.Conditions

/-!
# PolyglotSql.Proofs.Rendering.Patterns

Pattern matches that ignore case and have an escape character. The dialects that have no operator
for them compare in upper case: `UPPER(a) LIKE UPPER(b) ESCAPE c`. The wildcards and the escape
character are then found in what `UPPER` makes of the pattern, but the escape character is not put in
upper case with it. So both say the same if no character of the pattern is the escape character in
only one of the two patterns (`like_toUpper`), and an escape character that is a letter has patterns
of which they do not (`like_letter`).
-/

namespace PolyglotSql

/-! ## Patterns -/

/-- What a pattern asks for, one after another. -/
inductive PatternItem where
  | char (c : Char)
  /-- Any one character. -/
  | one
  /-- Any text. -/
  | many
deriving DecidableEq

namespace PatternItem

/-- What a character asks for that is not escaped. -/
def ofChar (c : Char) : PatternItem :=
  if c = '%' then many else if c = '_' then one else char c

/-- What may stand behind an escape character: for a strict reader, wildcards and the escape
character itself. -/
def escapable (strict : Bool) (escape c : Char) : Bool :=
  !strict || c == '%' || c == '_' || c == escape

/-- The items of a pattern, unless something is wrong behind one of its escape characters. -/
def read (strict : Bool) (escape : Char) : List Char → Option (List PatternItem)
  | [] => some []
  | [c] => if c = escape then none else some [ofChar c]
  | c :: d :: pattern =>
    if c = escape then
      if escapable strict escape d then (read strict escape pattern).map (char d :: ·) else none
    else (read strict escape (d :: pattern)).map (ofChar c :: ·)

/-- Whether a text is what some items ask for, where `same` compares characters. -/
def accept (same : Char → Char → Bool) : List PatternItem → List Char → Bool
  | [], text => text.isEmpty
  | char _ :: _, [] => false
  | char c :: items, d :: text => same c d && accept same items text
  | one :: _, [] => false
  | one :: items, _ :: text => accept same items text
  | many :: items, text => text.tails.any fun rest => accept same items rest

/-- Whether a text matches a pattern with an escape character; nothing, if the pattern is faulty. -/
def like (same : Char → Char → Bool) (strict : Bool) (escape : Char)
    (subject pattern : List Char) : Option Bool :=
  (read strict escape pattern).map fun items => accept same items subject

/-- Equality up to the case of ASCII letters. -/
def sameLetter (c d : Char) : Bool :=
  c.toLower == d.toLower

def upper : PatternItem → PatternItem
  | char c => char c.toUpper
  | one => one
  | many => many

/-! ### Letters -/

theorem toUpper_beq_toUpper (c d : Char) : (c.toUpper == d.toUpper) = sameLetter c d := by
  rw [sameLetter, Bool.eq_iff_iff, beq_iff_eq, beq_iff_eq]
  constructor
  · intro h
    rw [← Char.toLower_toUpper_eq_toLower, h, Char.toLower_toUpper_eq_toLower]
  · intro h
    rw [← Char.toUpper_toLower_eq_toUpper, h, Char.toUpper_toLower_eq_toUpper]

/-- A character becomes in upper case what is no letter only if it is that character. -/
theorem toUpper_eq_iff {c d : Char} (hd : d.isAlpha = false) : c.toUpper = d ↔ c = d := by
  by_cases hc : c.isLower
  · have hletter : c.isAlpha = true := by simp [Char.isAlpha, hc]
    have hupper : c.toUpper ≠ d := by
      rintro rfl
      rw [Char.isAlpha_toUpper_eq_isAlpha, hletter] at hd
      cases hd
    have hsame : c ≠ d := by
      rintro rfl
      rw [hletter] at hd
      cases hd
    simp only [hupper, hsame]
  · rw [Char.toUpper_eq_of_not_isLower hc]

/-- A character becomes a letter in upper case only if it is that letter, or the same in lower
case. -/
theorem toUpper_eq_iff_of_ne {c d : Char} (h : c ≠ d.toLower) : c.toUpper = d ↔ c = d := by
  constructor
  · rintro rfl
    rw [Char.toLower_toUpper_eq_toLower] at h
    by_cases hc : c.isUpper
    · exact (Char.toUpper_eq_of_not_isLower (Char.not_isLower_of_isUpper hc)).symm
    · exact absurd (Char.toLower_eq_of_not_isUpper hc).symm h
  · rintro rfl
    apply Char.toUpper_eq_of_not_isLower
    intro hlower
    exact h (Char.toLower_eq_of_not_isUpper (Char.not_isUpper_of_isLower hlower)).symm

theorem ofChar_toUpper (c : Char) : ofChar c.toUpper = (ofChar c).upper := by
  have hmany : c.toUpper = '%' ↔ c = '%' := toUpper_eq_iff (by decide)
  have hone : c.toUpper = '_' ↔ c = '_' := toUpper_eq_iff (by decide)
  simp only [ofChar, hmany, hone]
  split
  · rfl
  · split <;> rfl

theorem escapable_toUpper {strict : Bool} {escape c : Char} (h : c.toUpper = escape ↔ c = escape) :
    escapable strict escape c.toUpper = escapable strict escape c := by
  have hmany : c.toUpper = '%' ↔ c = '%' := toUpper_eq_iff (by decide)
  have hone : c.toUpper = '_' ↔ c = '_' := toUpper_eq_iff (by decide)
  rw [Bool.eq_iff_iff]
  simp [escapable, hmany, hone, h]

/-! ### Upper case -/

variable {strict : Bool} {escape : Char} {pattern : List Char}

theorem read_toUpper (h : ∀ c ∈ pattern, c.toUpper = escape ↔ c = escape) :
    read strict escape (pattern.map Char.toUpper) =
      (read strict escape pattern).map (List.map upper) := by
  induction pattern using read.induct strict escape with
  | case1 => rfl
  | case2 =>
    rw [List.forall_mem_singleton] at h
    simp [read, h.2]
  | case3 c hc =>
    rw [List.forall_mem_singleton] at h
    simp [read, hc, mt h.1 hc, ofChar_toUpper]
  | case4 d pattern hd ih =>
    rw [List.forall_mem_cons, List.forall_mem_cons] at h
    obtain ⟨hescape, hnext, hrest⟩ := h
    have hd' : escapable strict escape d.toUpper = true := by rwa [escapable_toUpper hnext]
    simp [read, hescape.2, hd, hd', ih hrest, Function.comp_def, upper]
  | case5 d pattern hd =>
    rw [List.forall_mem_cons, List.forall_mem_cons] at h
    obtain ⟨hescape, hnext, -⟩ := h
    have hd' : ¬ escapable strict escape d.toUpper = true := by rwa [escapable_toUpper hnext]
    simp [read, hescape.2, hd, hd']
  | case6 c d pattern hc ih =>
    rw [List.forall_mem_cons] at h
    obtain ⟨hfirst, hrest⟩ := h
    have hc' : c.toUpper ≠ escape := mt hfirst.1 hc
    have hread := ih hrest
    rw [List.map_cons] at hread
    simp [read, hc, hc', hread, Function.comp_def, ofChar_toUpper]

theorem accept_toUpper (items : List PatternItem) (text : List Char) :
    accept (· == ·) (items.map upper) (text.map Char.toUpper) = accept sameLetter items text := by
  induction items generalizing text with
  | nil => cases text <;> rfl
  | cons item items ih =>
    cases item with
    | char c =>
      cases text with
      | nil => rfl
      | cons d text => simp [accept, upper, ih, toUpper_beq_toUpper]
    | one =>
      cases text with
      | nil => rfl
      | cons d text => simp [accept, upper, ih]
    | many => simp [accept, upper, ih, List.map_tails, List.any_map, Function.comp_def]

/-- Comparing in upper case ignores case, if upper case makes no escape characters and takes none
away. -/
theorem like_toUpper (h : ∀ c ∈ pattern, c.toUpper = escape ↔ c = escape) (subject : List Char) :
    like (· == ·) strict escape (subject.map Char.toUpper) (pattern.map Char.toUpper) =
      like sameLetter strict escape subject pattern := by
  simp only [like, read_toUpper h, Option.map_map, Function.comp_def, accept_toUpper]

/-! ### Letters that escape -/

theorem toLower_eq_iff_toUpper_ne {c : Char} (hc : c.isAlpha = true) :
    c.toLower = c ↔ c.toUpper ≠ c := by
  by_cases hupper : c.isUpper
  · have hlower : c.toLower ≠ c := by
      intro h
      have := Char.isUpper_toLower_eq_false c
      rw [h, hupper] at this
      cases this
    simp [hlower, Char.toUpper_eq_of_not_isLower (Char.not_isLower_of_isUpper hupper)]
  · have hlower : c.isLower = true := by simpa [Char.isAlpha, hupper] using hc
    have hne : c.toUpper ≠ c := by
      intro h
      have := Char.isLower_toUpper_eq_false c
      rw [h, hlower] at this
      cases this
    simp [hne, Char.toLower_eq_of_not_isUpper hupper]

theorem ne_of_isAlpha {c d : Char} (hc : c.isAlpha = true) (hd : d.isAlpha = false) : c ≠ d := by
  rintro rfl
  rw [hc] at hd
  cases hd

/-- A letter and a wildcard take a text that is a wildcard only if the letter escapes it. -/
theorem like_wildcard {same : Char → Char → Bool} {c : Char} (hescape : escape.isAlpha = true)
    (hc : c.isAlpha = true) (hother : same c '%' = false) (hsame : same '%' '%' = true) :
    like same strict escape ['%'] [c, '%'] = some (decide (c = escape)) := by
  by_cases h : c = escape
  · simp [like, read, h, escapable, accept, hsame]
  · have hmany : c ≠ '%' := ne_of_isAlpha hc (by decide)
    have hone : c ≠ '_' := ne_of_isAlpha hc (by decide)
    have hlast : '%' ≠ escape := (ne_of_isAlpha hescape (by decide)).symm
    simp [like, read, h, hlast, ofChar, hmany, hone, accept, hother]

/-- An escape character that is a letter escapes a wildcard either only in upper case or only as it
stands. -/
theorem like_letter (strict : Bool) (hescape : escape.isAlpha = true) :
    like (· == ·) strict escape (['%'].map Char.toUpper)
        ([escape.toLower, '%'].map Char.toUpper) ≠
      like sameLetter strict escape ['%'] [escape.toLower, '%'] := by
  have hlower : escape.toLower.isAlpha = true := by rwa [Char.isAlpha_toLower_eq_isAlpha]
  have hupper : escape.toUpper.isAlpha = true := by rwa [Char.isAlpha_toUpper_eq_isAlpha]
  have hupperNe : (escape.toUpper == '%') = false :=
    beq_false_of_ne (ne_of_isAlpha hupper (by decide))
  have hlowerNe : sameLetter escape.toLower '%' = false := by
    rw [sameLetter, Char.toLower_toLower_eq_toLower]
    exact beq_false_of_ne (ne_of_isAlpha hlower (by decide))
  have hpattern : [escape.toLower, '%'].map Char.toUpper = [escape.toUpper, '%'] := by
    rw [List.map_cons, Char.toUpper_toLower_eq_toUpper]
    rfl
  -- The two patterns begin with the letter in different case, and in one case only it escapes.
  rw [hpattern, show ['%'].map Char.toUpper = ['%'] from rfl,
    like_wildcard hescape hupper hupperNe rfl, like_wildcard hescape hlower hlowerNe rfl]
  simp [toLower_eq_iff_toUpper_ne hescape]

/-- The characters of a pattern that has no letter to be confused with the escape character. -/
theorem toUpper_eq_escape_iff (h : escape.isAlpha = true → escape.toLower ∉ pattern) :
    ∀ c ∈ pattern, c.toUpper = escape ↔ c = escape := by
  intro c hc
  cases hescape : escape.isAlpha with
  | false => exact toUpper_eq_iff hescape
  | true =>
    apply toUpper_eq_iff_of_ne
    rintro rfl
    exact h hescape hc

/-- Comparing in upper case ignores case for all texts and patterns if and only if the escape
character is no letter. -/
theorem like_toUpper_iff : (∀ strict subject pattern,
      like (· == ·) strict escape (subject.map Char.toUpper) (pattern.map Char.toUpper) =
        like sameLetter strict escape subject pattern) ↔ escape.isAlpha = false := by
  constructor
  · intro hsame
    cases hescape : escape.isAlpha with
    | false => rfl
    | true => exact absurd (hsame false ['%'] [escape.toLower, '%']) (like_letter false hescape)
  · intro hescape strict subject pattern
    exact like_toUpper (fun c _ => toUpper_eq_iff hescape) subject

end PatternItem

/-! ## Matches in queries -/

open Term

/-- A pattern match that ignores case and has an escape character. -/
structure EscapedMatch where
  negated : Bool
  escape : Char

namespace EscapedMatch

/-- `subject ILIKE pattern ESCAPE escape` -/
def expr (m : EscapedMatch) (subject pattern : Sql.Expr) : Sql.Expr :=
  .like true m.negated false subject pattern (some (.text .plain (String.singleton m.escape)))

def term (m : EscapedMatch) (subject pattern : Term) : Term :=
  (matching true m.negated subject pattern).withEscape m.escape

/-- Whether the match holds of two texts; nothing, if the pattern is faulty. -/
def holds (m : EscapedMatch) (strict : Bool) (subject pattern : List Char) : Option Bool :=
  (PatternItem.like PatternItem.sameLetter strict m.escape subject pattern).map (m.negated ^^ ·)

/-- Whether the texts in upper case match. -/
def upperHolds (m : EscapedMatch) (strict : Bool) (subject pattern : List Char) : Option Bool :=
  (PatternItem.like (· == ·) strict m.escape (subject.map Char.toUpper)
    (pattern.map Char.toUpper)).map (m.negated ^^ ·)

/-- A call of `UPPER`, in SQL. -/
def upperCall (operand : List Char) : List Char :=
  "UPPER".toList ++ ('(' :: (operand ++ [')']))

/-- The match of the texts in upper case, in SQL. -/
def upperText (m : EscapedMatch) (subject pattern : List Char) : List Char :=
  upperCall subject ++ ((if m.negated then " NOT LIKE " else " LIKE ").toList ++
    (upperCall pattern ++ (" ESCAPE ".toList ++
      (Value.text (String.singleton m.escape)).literal.toList)))

variable {m : EscapedMatch} {tr : Translator}

theorem exprTerm_expr {scope : Scope} {subject pattern : Sql.Expr} {s p : Term}
    (hs : Canonical.exprTerm scope subject = .ok s) (hp : Canonical.exprTerm scope pattern = .ok p) :
    Canonical.exprTerm scope (m.expr subject pattern) = .ok (m.term s p) := by
  rw [expr, Canonical.exprTerm, hs, hp]
  simp [Canonical.withEscape, Sql.Literal.escapeChar, term]
  rfl

theorem escapeText_eq (c : Char) :
    Node.escapeText c = (Value.text (String.singleton c)).literal := by
  by_cases h : c = '\'' <;> simp [Node.escapeText, Value.literal, Text.replaceChar, h]

/-- A call of a function that the dialect keeps is written as such. -/
theorem call_written {name : String} {t : Term} {text : List Char}
    (hrule : tr.dialect.functionRule name = .keep)
    (h : (of (.call name) [t]).WrittenAs tr text) :
    ∃ own, t.WrittenAs tr own ∧ text = name.toList ++ ('(' :: (own ++ [')'])) := by
  obtain ⟨above, around, ps, hnone, hps, rfl⟩ := h
  have hsame (ts : List Term) (u : Term)
      (hu : rewriteTop tr.dialect above (.mk (.call name) none ts) = .ok u) :
      u = .mk (.call name) none ts := by
    change rewriteCall tr.dialect name true none ts = .ok u at hu
    rw [rewriteCall, hrule] at hu
    split at hu
    · cases hu
    · cases hu
      rfl
  have hselect : Node.call name ≠ .select := by simp [Node.call]
  obtain ⟨hterm, hchildren⟩ := adaptedBelow_same (fun _ he => absurd he hselect) hsame hnone
  rw [of, hterm] at hps
  obtain ⟨around', own, hown, rfl⟩ := only_pieces (fun _ => rfl) hps
  exact ⟨_, ⟨_, around', own, hchildren t (.head _), hown, rfl⟩, by simp [Piece.chars]⟩

theorem term_eq (m : EscapedMatch) (s p : Term) :
    m.term s p = of (.like .like true m.negated (some m.escape))
      [of (.call "UPPER") [s], of (.call "UPPER") [p.inherit s]] := by
  have hname : Text.upper "UPPER" = "UPPER" := by decide
  simp only [term, matching, call, hname, if_true]
  rfl

/-- A match that ignores case is written in upper case where the dialect has no operator for it. -/
theorem term_written {s p : Term} {text : List Char} (hops : tr.dialect.likeOperators? = none)
    (hrule : tr.dialect.functionRule "UPPER" = .keep) (h : (m.term s p).WrittenAs tr text) :
    ∃ own own', s.WrittenAs tr own ∧ (p.inherit s).WrittenAs tr own' ∧
      text = m.upperText own own' := by
  obtain ⟨above, around, ps, hnone, hps, rfl⟩ := h
  have hkept (ts : List Term) : rewriteTop tr.dialect above
      (of (.like .like true m.negated (some m.escape)) ts) =
        .ok (of (.like .like true m.negated (some m.escape)) ts) := by
    simp only [of, rewriteTop, rewriteLike, hops]
  rw [term_eq] at hnone hps
  obtain ⟨hterm, hchildren⟩ := adaptedBelow_kept (by simp) hkept hnone
  rw [hterm, of, pieces_mk] at hps
  obtain ⟨ps', hps', rfl⟩ := Option.map_eq_some_iff.1 hps
  obtain ⟨subject, hsubject, hps'⟩ := Option.bind_eq_some_iff.1 hps'
  obtain ⟨pattern, hpattern, hps'⟩ := Option.bind_eq_some_iff.1 hps'
  cases hps'
  obtain ⟨own, hown, hs⟩ := call_written hrule ⟨_, _, subject, hchildren _ (.head _), hsubject, rfl⟩
  obtain ⟨own', hown', hp⟩ :=
    call_written hrule ⟨_, _, pattern, hchildren _ (.tail _ (.head _)), hpattern, rfl⟩
  refine ⟨own, own', hown, hown', ?_⟩
  have hoperator : (if m.negated then " NOT " else " ").toList ++ ("LIKE".toList ++ " ".toList) =
      (if m.negated then " NOT LIKE " else " LIKE ").toList := by
    cases m.negated <;> decide
  rw [upperText, ← hoperator]
  simp only [Node.escapePieces, Node.aliasPieces, Piece.written_append, Piece.written_cons,
    Piece.written_nil, Piece.chars, hs, hp, upperCall, escapeText_eq, LikeOperator.keyword,
    List.append_assoc, List.append_nil]

/-- In every dialect without an operator of its own for matches that ignore case, such a match with
an escape character is written in upper case, wherever it stands in a query. What is written says
the same of all texts and patterns if and only if the escape character is no letter. If it is one, it
still says the same of the patterns that do not have the letter in lower case. -/
theorem translateTree_escapedMatch (m : EscapedMatch) (tr : Translator)
    (hpostgres : tr.dialect ≠ .postgresql) (hmysql : tr.dialect ≠ .mysql) :
    (∀ (scope : Scope) (subject pattern : Sql.Expr) (s p : Term),
      Canonical.exprTerm scope subject = .ok s → Canonical.exprTerm scope pattern = .ok p →
      Canonical.exprTerm scope (m.expr subject pattern) = .ok (m.term s p)) ∧
    (∀ (t : Tree) (layers : List Layer) (s p : Term) (rendered : RenderedSql),
      t.WellFormed → t.term t.root = .ok (within layers (m.term s p)) → Written layers →
      (∃ t', Yields tr.translateTree t (.ok rendered) t') →
      ∃ earlier own own' later,
        rendered.sql.toList = earlier ++ (m.upperText own own' ++ later) ∧
          s.WrittenAs tr own ∧ (p.inherit s).WrittenAs tr own') ∧
    ((∀ strict subject pattern, m.upperHolds strict subject pattern =
      m.holds strict subject pattern) ↔ m.escape.isAlpha = false) ∧
    ∀ strict subject pattern, (m.escape.isAlpha = true → m.escape.toLower ∉ pattern) →
      m.upperHolds strict subject pattern = m.holds strict subject pattern := by
  have hops : tr.dialect.likeOperators? = none := by
    unfold Dialect.likeOperators?
    split <;> first | rfl | contradiction
  have hrule : tr.dialect.functionRule "UPPER" = .keep := by
    cases tr.dialect <;> rfl
  refine ⟨fun _ _ _ _ _ hs hp => exprTerm_expr hs hp, ?_, ?_, ?_⟩
  · intro t layers s p rendered ht hquery hlayers htr
    have hsql := (Translator.translateTree_iff tr ht hquery).1 htr
    have hfirm : (m.term s p).node.Firm := ⟨nofun, rfl, rfl, nofun⟩
    obtain ⟨earlier, text, later, hrendered, htext⟩ := translated_written hlayers hfirm hsql
    obtain ⟨own, own', hs, hp, rfl⟩ := term_written hops hrule htext
    exact ⟨earlier, own, own', later, hrendered, hs, hp⟩
  · have hinjective : Function.Injective (Option.map (m.negated ^^ ·)) :=
      Option.map_injective fun a b hab => by simpa using hab
    simp only [upperHolds, holds, hinjective.eq_iff, PatternItem.like_toUpper_iff]
  · intro strict subject pattern hpattern
    rw [upperHolds, holds, PatternItem.like_toUpper (PatternItem.toUpper_eq_escape_iff hpattern)]

/-- `SELECT … FROM t` -/
def soleResult : List Layer :=
  [⟨.select, none, [], [.of .fromClause [.leaf (.table "t" none none)], .leaf (.limitOffset 0 0)]⟩,
    ⟨.result, none, [], []⟩]

theorem translateTree_escapedMatch_exclamation :
    let m : EscapedMatch := ⟨true, '!'⟩
    let a : Term := .leaf (.column ⟨none, "a", none⟩)
    let b : Term := .leaf (.column ⟨none, "b", none⟩)
    Dialect.derby ≠ .postgresql ∧ Dialect.derby ≠ .mysql ∧
      Canonical.exprTerm ⟨.empty, []⟩
        (m.expr (.identifier (.bare "a")) (.identifier (.bare "b"))) = .ok (m.term a b) ∧
      (∃ t rendered t', t.WellFormed ∧ t.term t.root = .ok (within soleResult (m.term a b)) ∧
        Written soleResult ∧
        Yields (Translator.translateTree ⟨.derby, .whenNeeded⟩) t (.ok rendered) t' ∧
        rendered.sql = "SELECT UPPER(a) NOT LIKE UPPER(b) ESCAPE '!' FROM t" ∧
        ∃ earlier own own' later,
          rendered.sql.toList = earlier ++ (m.upperText own own' ++ later) ∧
            a.WrittenAs ⟨.derby, .whenNeeded⟩ own ∧
            (b.inherit a).WrittenAs ⟨.derby, .whenNeeded⟩ own') ∧
      (∀ strict subject pattern, m.upperHolds strict subject pattern =
        m.holds strict subject pattern) ∧
      (m.escape.isAlpha = true → m.escape.toLower ∉ "%!!".toList) ∧
      m.upperHolds false "wow!".toList "%!!".toList = m.holds false "wow!".toList "%!!".toList := by
  intro m a b
  have hderby : Dialect.derby ≠ .postgresql ∧ Dialect.derby ≠ .mysql := by decide
  obtain ⟨hexpr, hwritten, hagrees, hpatterns⟩ :=
    translateTree_escapedMatch m ⟨.derby, .whenNeeded⟩ hderby.1 hderby.2
  have hsql : (within soleResult (m.term a b)).translated ⟨.derby, .whenNeeded⟩ =
      some ⟨"SELECT UPPER(a) NOT LIKE UPPER(b) ESCAPE '!' FROM t", []⟩ := by
    rw [Term.translated, Term.adapted_within]
    decide +kernel
  have ht := Term.build_wellFormed (within soleResult (m.term a b))
  have hterm := Term.build_term (within soleResult (m.term a b))
  obtain ⟨t', htr⟩ := (Translator.translateTree_iff ⟨.derby, .whenNeeded⟩ ht hterm).2 hsql
  have hlayers : Written soleResult := by decide
  exact ⟨hderby.1, hderby.2, hexpr _ _ _ _ _ rfl rfl,
    ⟨_, _, t', ht, hterm, hlayers, htr, rfl, hwritten _ _ _ _ _ ht hterm hlayers ⟨t', htr⟩⟩,
    hagrees.2 (by decide), by decide, hpatterns false _ _ (by decide)⟩

/-- `a ILIKE 'ax%' ESCAPE 'x'` takes the text `a%`, and what it is translated to does not. -/
theorem escapedMatch_letter_lost :
    let m : EscapedMatch := ⟨false, 'x'⟩
    let pattern : Sql.Expr := .literal (.text .plain "ax%") .empty
    ∃ t rendered t',
      Canonical.tree .empty (.query (.selecting
        [.expr (m.expr (.identifier (.bare "a")) pattern)] [⟨.named [.bare "t"], []⟩])) = .ok t ∧
      Yields (Translator.translateTree ⟨.derby, .whenNeeded⟩) t (.ok rendered) t' ∧
      rendered.sql.toList =
        "SELECT ".toList ++ (m.upperText "a".toList "?".toList ++ " FROM t".toList) ∧
      rendered.bindings.map (·.value) = [.text "ax%"] ∧
      (∀ strict, m.holds strict "a%".toList "ax%".toList = some true) ∧
      ∀ strict, m.upperHolds strict "a%".toList "ax%".toList = some false := by
  intro m pattern
  let query : Term := within soleResult
    (m.term (.leaf (.column ⟨none, "a", none⟩)) (.value (.text "ax%")))
  have htree : Canonical.tree .empty (.query (.selecting
      [.expr (m.expr (.identifier (.bare "a")) pattern)] [⟨.named [.bare "t"], []⟩])) =
        .ok query.build := by
    have hescape : String.singleton m.escape = "x" := by decide +kernel
    rw [expr, hescape]
    rfl
  have hsql : query.translated ⟨.derby, .whenNeeded⟩ =
      some ⟨"SELECT UPPER(a) LIKE UPPER(?) ESCAPE 'x' FROM t", [⟨1, .text "ax%", none⟩]⟩ := by
    rw [Term.translated, Term.adapted_within]
    decide +kernel
  obtain ⟨t', htr⟩ := (Translator.translateTree_iff ⟨.derby, .whenNeeded⟩
    query.build_wellFormed query.build_term).2 hsql
  refine ⟨_, _, t', htree, htr, ?_, rfl, by decide, by decide⟩
  rw [upperText, ← escapeText_eq]
  decide +kernel

end EscapedMatch
end PolyglotSql
