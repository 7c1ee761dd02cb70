import PolyglotSql.Proofs.Rendering.Verbatim

/-!
# PolyglotSql.Proofs.Rendering.Seams

Where pieces meet. Pieces that are each written with their identifiers apart stay so side by side if
there is no identifier at the seam, or a character beside it that no name goes on with
(`Piece.Tidy.append`); a separator between them sees to that (`Piece.Tidy.separate`). Parts that are
written one after another are tidy if this holds wherever two of them meet (`Part.separated_tidy`).
-/

namespace PolyglotSql

open Placeholder Lexeme

/-! ## Seams between pieces -/

namespace Piece

/-- Pieces that go on with no name in front of them. -/
def Opens (quote : Char) (ps : List Piece) : Prop :=
  ∀ g ∈ (ps.flatMap glyphs).head?, Severed quote g

/-- Pieces with which no name behind them goes on. -/
def Closes (quote : Char) (ps : List Piece) : Prop :=
  ∀ g ∈ (ps.flatMap glyphs).getLast?, Severed quote g

/-- The same of pieces that write something. -/
def Shuts (quote : Char) (ps : List Piece) : Prop :=
  ∃ g ∈ (ps.flatMap glyphs).getLast?, Severed quote g

/-- Pieces that may stand side by side. -/
def Abuts (quote : Char) (ps qs : List Piece) : Prop :=
  ∀ g ∈ (ps.flatMap glyphs).getLast?, ∀ g' ∈ (qs.flatMap glyphs).head?, Meets quote g g'

/-- Pieces that may, whatever stands in front of them. -/
def Follows (quote : Char) (ps qs : List Piece) : Prop :=
  ∀ front, Abuts quote (front ++ ps) qs

/-- Pieces that read the same under all modes of quoting. -/
structure Tidy (quote : Char) (ps : List Piece) : Prop where
  closed : AllClosed quote ps
  parted : Parted quote ps

variable {quote : Char} {ps qs : List Piece}

theorem opens_nil : Opens quote [] :=
  fun _ h => absurd h (by simp)

theorem closes_nil : Closes quote [] :=
  fun _ h => absurd h (by simp)

theorem Opens.append (h : Opens quote ps) (h' : Opens quote qs) : Opens quote (ps ++ qs) := by
  intro g hg
  rw [List.flatMap_append, List.head?_append] at hg
  cases hhead : (ps.flatMap glyphs).head? with
  | none =>
    rw [hhead, Option.none_or] at hg
    exact h' g hg
  | some g' =>
    rw [hhead, Option.some_or] at hg
    exact h g (by rwa [hhead])

theorem Shuts.closes (h : Shuts quote ps) : Closes quote ps := by
  obtain ⟨g, hg, hsevered⟩ := h
  intro g' hg'
  obtain rfl : g = g' := Option.mem_unique hg hg'
  exact hsevered

/-- What ends pieces ends those in front of it as well. -/
theorem Shuts.after (h : Shuts quote qs) (ps : List Piece) : Shuts quote (ps ++ qs) := by
  obtain ⟨g, hg, hsevered⟩ := h
  refine ⟨g, ?_, hsevered⟩
  rw [List.flatMap_append, List.getLast?_append, Option.mem_def.1 hg]
  rfl

theorem Closes.abuts (h : Closes quote ps) (qs : List Piece) : Abuts quote ps qs :=
  fun g hg _ _ => .inr (.inl (h g hg))

theorem Opens.abuts (h : Opens quote qs) (ps : List Piece) : Abuts quote ps qs :=
  fun _ _ g' hg' => .inr (.inr (h g' hg'))

theorem Opens.follows (h : Opens quote qs) (ps : List Piece) : Follows quote ps qs :=
  fun _ => h.abuts _

theorem Shuts.follows (h : Shuts quote ps) (qs : List Piece) : Follows quote ps qs :=
  fun front => (h.after front).closes.abuts qs

theorem tidy_nil : Tidy quote [] :=
  ⟨fun _ h => absurd h List.not_mem_nil, .nil⟩

theorem Tidy.append (h : Tidy quote ps) (h' : Tidy quote qs) (hseam : Abuts quote ps qs) :
    Tidy quote (ps ++ qs) where
  closed s hs := (List.mem_append.1 hs).elim (h.closed s) (h'.closed s)
  parted := by
    rw [Parted, List.flatMap_append, List.isChain_append]
    exact ⟨h.parted, h'.parted, hseam⟩

/-- Pieces without identifiers. -/
def Plain (quote : Char) : Piece → Prop
  | .raw s => Balanced quote s
  | .bound _ _ => True
  | .name _ | .alias_ _ => False

theorem Plain.isSome_glyphs {p : Piece} (h : Plain quote p) : ∀ g ∈ p.glyphs, g.isSome = true := by
  intro g hg
  cases p with
  | raw s =>
    obtain ⟨c, -, rfl⟩ := List.mem_map.1 hg
    rfl
  | bound value column =>
    rw [List.mem_singleton.1 hg]
    rfl
  | name s => exact h.elim
  | alias_ s => exact h.elim

theorem tidy_plain (h : ∀ p ∈ ps, Plain quote p) : Tidy quote ps where
  closed s hs := h _ hs
  parted := by
    have hchars : ∀ g ∈ ps.flatMap glyphs, g.isSome = true := by
      intro g hg
      obtain ⟨p, hp, hg⟩ := List.mem_flatMap.1 hg
      exact (h p hp).isSome_glyphs g hg
    refine List.Pairwise.isChain (List.pairwise_of_forall_mem_list fun g hg g' hg' => ?_)
    exact .inl ⟨hchars g hg, hchars g' hg'⟩

theorem tidy_raw {s : String} (h : Balanced quote s) : Tidy quote [raw s] :=
  tidy_plain (by simpa [Plain] using h)

theorem tidy_name (s : String) : Tidy quote [name s] :=
  ⟨by simp [AllClosed], by simp [Parted, glyphs]⟩

theorem tidy_alias (s : String) : Tidy quote [alias_ s] :=
  ⟨by simp [AllClosed], by simp [Parted, glyphs]⟩

/-! ## Words -/

/-- Whether a character ends names in every dialect. -/
def isSevering (c : Char) : Bool :=
  !Identifier.isPlainPart c && c != '"' && c != '`'

/-- Whether a text begins with such a character. -/
def startsApart (s : String) : Bool :=
  s.toList.head?.any isSevering

/-- Whether a text ends in such a character. -/
def stopsApart (s : String) : Bool :=
  s.toList.getLast?.any isSevering

section

variable (hquote : IsDelimiter quote) {s : String}
include hquote

theorem severed_char {c : Char} (h : isSevering c = true) : Severed quote (some c) := by
  simp only [isSevering, Bool.and_eq_true, Bool.not_eq_true', bne_iff_ne] at h
  obtain ⟨⟨hpart, hdouble⟩, hback⟩ := h
  refine ⟨c, rfl, hpart, ?_⟩
  rcases hquote with rfl | rfl
  · exact hdouble
  · exact hback

theorem tidy_word (h : isInert s = true) : Tidy quote [raw s] :=
  tidy_raw (neutral_of_inert hquote h).balanced

theorem opens_word (h : startsApart s = true) (ps : List Piece) : Opens quote (raw s :: ps) := by
  obtain ⟨c, hc, hsevering⟩ := (Option.any_eq_true ..).1 h
  intro g hg
  obtain rfl : some c = g := by
    rw [List.flatMap_cons, glyphs, List.head?_append, List.head?_map, hc] at hg
    simpa using hg
  exact severed_char hquote hsevering

theorem shuts_word (h : stopsApart s = true) : Shuts quote [raw s] := by
  obtain ⟨c, hc, hsevering⟩ := (Option.any_eq_true ..).1 h
  refine ⟨some c, ?_, severed_char hquote hsevering⟩
  simp [glyphs, List.getLast?_map, hc]

end

/-- A text that keeps what is on either side of it apart. -/
structure Separates (quote : Char) (s : String) : Prop where
  balanced : Balanced quote s
  opens : Opens quote [raw s]
  shuts : Shuts quote [raw s]

/-- Whether a text does so in every dialect. -/
def isSeparator (s : String) : Bool :=
  isInert s && (startsApart s && stopsApart s)

theorem separates_word (hquote : IsDelimiter quote) {s : String} (h : isSeparator s = true) :
    Separates quote s := by
  simp only [isSeparator, Bool.and_eq_true] at h
  obtain ⟨hinert, hstarts, hstops⟩ := h
  exact ⟨(neutral_of_inert hquote hinert).balanced, opens_word hquote hstarts [],
    shuts_word hquote hstops⟩

/-- Any text between blanks. -/
theorem separates_blanks (hquote : IsDelimiter quote) {s : String} (h : Balanced quote s) :
    Separates quote (" " ++ s ++ " ") := by
  have hblank : Balanced quote " " := (neutral_of_inert hquote (by decide)).balanced
  have hsevered : Severed quote (some ' ') := severed_char hquote (by decide)
  refine ⟨(hblank.append h).append hblank, fun g hg => ?_, some ' ', ?_, hsevered⟩
  · obtain rfl : some ' ' = g := by simpa [glyphs] using hg
    exact hsevered
  · simp only [List.flatMap_singleton, glyphs, String.toList_append, List.map_append,
      List.getLast?_append]
    rfl

theorem Tidy.separate {s : String} (h : Tidy quote ps) (hs : Separates quote s)
    (h' : Tidy quote qs) : Tidy quote (ps ++ raw s :: qs) := by
  have hfront := h.append (tidy_raw hs.balanced) (hs.opens.abuts ps)
  have := hfront.append h' (hs.shuts.follows qs ps)
  rwa [List.append_assoc] at this

end Piece

/-! ## Edges -/

/-- What pieces begin or end with, as far as it matters beside an identifier. -/
inductive Edge where
  /-- An identifier, or nothing that is certain. -/
  | name
  /-- A character. -/
  | letter
  /-- A character that no name goes on with. -/
  | sign
deriving DecidableEq

namespace Edge

/-- Edges that may stand side by side. -/
def Meets (e e' : Edge) : Prop :=
  e = .sign ∨ e' = .sign ∨ (e ≠ .name ∧ e' ≠ .name)

/-- An edge beside which whatever may stand beside another may stand. -/
def Le (e e' : Edge) : Prop :=
  e = .name ∨ e' = .sign ∨ e = e'

theorem Le.refl (e : Edge) : e.Le e :=
  .inr (.inr rfl)

theorem Le.trans {e e' e'' : Edge} (h : e.Le e') (h' : e'.Le e'') : e.Le e'' := by
  cases e <;> cases e' <;> cases e'' <;> simp_all [Le]

theorem Le.ne_name {e e' : Edge} (h : e.Le e') (hname : e ≠ .name) : e' ≠ .name := by
  cases e <;> cases e' <;> simp_all [Le]

theorem Meets.mono {e e' f f' : Edge} (h : e.Meets e') (he : e.Le f) (he' : e'.Le f') :
    f.Meets f' := by
  cases e <;> cases e' <;> cases f <;> cases f' <;> simp_all [Le, Meets]

end Edge

namespace Piece

variable {quote : Char} {ps qs : List Piece}

/-- Pieces that begin with an edge, or write nothing. -/
def Begins (quote : Char) (ps : List Piece) : Edge → Prop
  | .name => True
  | .letter => ∀ g ∈ (ps.flatMap glyphs).head?, g.isSome = true
  | .sign => Opens quote ps

/-- Pieces that end with an edge. -/
def Ends (quote : Char) (ps : List Piece) : Edge → Prop
  | .name => True
  | .letter => ∃ g ∈ (ps.flatMap glyphs).getLast?, g.isSome = true
  | .sign => Shuts quote ps

theorem Severed.isSome {g : Option Char} (h : Severed quote g) : g.isSome = true := by
  obtain ⟨c, rfl, -⟩ := h
  rfl

theorem Opens.begins (h : Opens quote ps) (e : Edge) : Begins quote ps e := by
  cases e with
  | name => trivial
  | letter => exact fun g hg => (h g hg).isSome
  | sign => exact h

theorem Shuts.ends (h : Shuts quote ps) (e : Edge) : Ends quote ps e := by
  cases e with
  | name => trivial
  | letter =>
    obtain ⟨g, hg, hsevered⟩ := h
    exact ⟨g, hg, hsevered.isSome⟩
  | sign => exact h

theorem begins_word {s : String} (h : s ≠ "") (rest : List Piece) :
    Begins quote (raw s :: rest) .letter := by
  obtain ⟨c, cs, hs⟩ := List.exists_cons_of_ne_nil (mt String.toList_eq_nil_iff.1 h)
  simp [Begins, glyphs, hs]

/-- Characters in front of what begins with one. -/
theorem begins_behind (s : String) (h : Begins quote ps .letter) :
    Begins quote (raw s :: ps) .letter := by
  by_cases hs : s = ""
  · subst hs
    simpa [Begins, glyphs] using h
  · exact begins_word hs ps

theorem begins_plain (h : ∀ p ∈ ps, Plain quote p) : Begins quote ps .letter := by
  intro g hg
  obtain ⟨p, hp, hg⟩ := List.mem_flatMap.1 (List.mem_of_mem_head? hg)
  exact (h p hp).isSome_glyphs g hg

theorem ends_word {s : String} (h : s ≠ "") : Ends quote [raw s] .letter := by
  have hne := mt String.toList_eq_nil_iff.1 h
  refine ⟨some (s.toList.getLast hne), ?_, rfl⟩
  rw [List.flatMap_singleton, glyphs, List.getLast?_map, List.getLast?_eq_some_getLast hne]
  rfl

/-- Pieces with such edges may stand side by side. -/
theorem follows_of_edges {e e' : Edge} (he : Ends quote ps e) (he' : Begins quote qs e')
    (hmeets : e.Meets e') : Follows quote ps qs := by
  rcases hmeets with rfl | rfl | ⟨hname, hname'⟩
  · exact Shuts.follows he qs
  · exact Opens.follows he' ps
  · have hend : ∃ g ∈ (ps.flatMap glyphs).getLast?, g.isSome = true := by
      cases e with
      | name => exact absurd rfl hname
      | letter => exact he
      | sign => exact Shuts.ends he .letter
    have hbegin : ∀ g ∈ (qs.flatMap glyphs).head?, g.isSome = true := by
      cases e' with
      | name => exact absurd rfl hname'
      | letter => exact he'
      | sign => exact Opens.begins he' .letter
    obtain ⟨last, hlast, hchar⟩ := hend
    intro front g hg g' hg'
    rw [List.flatMap_append, List.getLast?_append, Option.mem_def.1 hlast] at hg
    cases hg
    exact .inl ⟨hchar, hbegin g' hg'⟩

end Piece

open Piece

/-! ## Parts -/

namespace Part

variable {quote : Char} {between : Nat → Term → Term → String}

/-- Parts that are written tidily. -/
def AllTidy (quote : Char) (parts : List Part) : Prop :=
  ∀ part ∈ parts, ∀ ps, part.pieces = some ps → Tidy quote ps

/-- What is written between two parts keeps them apart; or nothing is, and they may stand side by
side. -/
def Joined (quote : Char) (between : Nat → Term → Term → String) (a b : Part) : Prop :=
  ∀ i, Separates quote (between i a.term b.term) ∨
    between i a.term b.term = "" ∧
      ∀ ps qs, a.pieces = some ps → b.pieces = some qs → Follows quote ps qs

/-- Parts behind another, and whatever is in front of that. -/
theorem separated_tidy_behind {parts : List Part} {a : Part} {front qs ps : List Piece}
    {index : Nat} (hparts : AllTidy quote parts)
    (hjoined : (a :: parts).IsChain (Joined quote between)) (ha : a.pieces = some qs)
    (hfront : Tidy quote (front ++ qs))
    (h : separated between index (some a.term) parts = some ps) :
    Tidy quote (front ++ qs ++ ps) := by
  -- What has been written stays tidy and ends with the pieces of the part before. Those alone may
  -- be nothing, so what stands in front of them is carried along.
  induction parts generalizing a front qs index ps with
  | nil =>
    cases h
    rwa [List.append_nil]
  | cons b parts ih =>
    obtain ⟨rs, us, hrs, hus, rfl⟩ := separated_cons.1 h
    obtain ⟨hseam, hrest⟩ := List.isChain_cons_cons.1 hjoined
    have hb := hparts b (by simp) rs hrs
    have htidy :
        Tidy quote ((front ++ qs ++ [raw (between index a.term b.term)]) ++ rs) := by
      rcases hseam index with hsep | ⟨hempty, hfollows⟩
      · simpa using hfront.separate hsep hb
      · have hnothing : Tidy quote [raw ""] := tidy_raw ⟨0, counts_nil⟩
        have habut : Abuts quote (front ++ qs ++ [raw ""]) rs := by
          simpa [Abuts, glyphs] using hfollows qs rs ha hrs front
        rw [hempty]
        exact (hfront.append hnothing (by simp [Abuts, glyphs])).append hb habut
    have := ih (fun p hp => hparts p (by simp [hp])) hrest hrs htidy hus
    simpa [lead] using this

/-- Parts behind pieces that may stand beside the first of them. -/
theorem separated_tidy {parts : List Part} {front ps : List Piece}
    (hparts : AllTidy quote parts) (hjoined : parts.IsChain (Joined quote between))
    (hfront : Tidy quote front)
    (hfirst : ∀ a ∈ parts.head?, ∀ qs, a.pieces = some qs → Abuts quote front qs)
    (h : separated between 0 none parts = some ps) : Tidy quote (front ++ ps) := by
  cases parts with
  | nil =>
    cases h
    rwa [List.append_nil]
  | cons a parts =>
    obtain ⟨qs, rs, hqs, hrs, rfl⟩ := separated_cons.1 h
    have ha := hparts a (by simp) qs hqs
    have htidy : Tidy quote (front ++ qs) := hfront.append ha (hfirst a (by simp) qs hqs)
    have := separated_tidy_behind (fun p hp => hparts p (by simp [hp])) hjoined hqs htidy hrs
    simpa [lead] using this

end Part

end PolyglotSql
