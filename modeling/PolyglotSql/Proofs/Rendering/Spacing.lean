import PolyglotSql.Proofs.Rendering.Names
import PolyglotSql.Proofs.Rendering.Seams

/-!
# PolyglotSql.Proofs.Rendering.Spacing

Which queries are written with every identifier apart. Nearly every node brings the texts that keep
the terms below it apart from each other and from itself. A select and an empty node do not: they
write the terms below them side by side, so these have to do so by what they begin and end with
(`Term.Seamed`). The pieces of a term that does so throughout are tidy (`Term.pieces_tidy`).
-/

namespace PolyglotSql

open Placeholder Piece

namespace Node

/-- What is written first of a node below a select or an empty node, as far as that is certain in
every dialect; `bare` if nothing is below it. A node that writes nothing counts as beginning with a
sign. -/
def front (above : NodeKind) (bare : Bool) : Node → Edge
  | .text s => if s.isEmpty || startsApart s then .sign else .letter
  | .empty => if bare then .sign else .name
  | .select => if above = .select then .sign else .letter
  | .distinct | .result | .fromClause | .join _ | .whereClause | .groupBy | .having | .orderBy
  | .limitOffset _ _ | .page _ _ _ | .group => .sign
  | .value _ _ | .castValue _ _ _ _ | .trimmedColumn _ _ | .keywordCall _ _ | .not
  | .exists_ _ => .letter
  | _ => .name

/-- What is written last of it there. -/
def back (above : NodeKind) : Node → Edge
  | .text s => if stopsApart s then .sign else if s.isEmpty then .name else .letter
  | .value v _ => if v.isNull then .letter else .sign
  | .select => if above = .select then .sign else .name
  | .castValue _ _ _ _ | .trimmedColumn _ _ | .keywordCall _ _ | .group | .not => .sign
  | .distinct => .letter
  | _ => .name

theorem front_text (above : NodeKind) (bare : Bool) (s : String) :
    front above bare (.text s) = if s.isEmpty || startsApart s then .sign else .letter := rfl

theorem back_text (above : NodeKind) (s : String) : back above (.text s) =
    if stopsApart s then .sign else if s.isEmpty then .name else .letter := rfl

end Node

namespace Term

def front (above : NodeKind) (t : Term) : Edge :=
  t.node.front above t.children.isEmpty

def back (above : NodeKind) (t : Term) : Edge :=
  t.node.back above

/-- Neighbours that are kept apart. -/
def Seam (above : NodeKind) (a b : Term) : Prop :=
  (a.back above).Meets (b.front above)

/-- The terms below a select or an empty node are kept apart, from the word `SELECT` as well; those
below other nodes need not. -/
def Seamed : Node → List Term → Prop
  | .select, ts => (∀ t ∈ ts.head?, t.front .select ≠ .name) ∧ ts.IsChain (Seam .select)
  | .empty, ts => ts.IsChain (Seam .empty)
  | _, _ => True

/-- Every select and every empty node of a term keeps what is below it apart. -/
abbrev Spaced : Term → Prop :=
  Every Seamed

end Term

namespace Node

/-- The texts of a node that are written as they are leave no delimiter open. -/
def Closed (quote : Char) (node : Node) : Prop :=
  ∀ s ∈ node.fragments, Balanced quote s

/-- What a node writes in front of the terms below it and between them keeps these apart. -/
structure KeepsApart (quote : Char) (node : Node) (before : List Piece)
    (separator : Nat → Term → Term → String) : Prop where
  closes : Closes quote before
  separates : ∀ i a b, Separates quote (separator i a b) ∨ separator i a b = "" ∧
    (node.kind = .function ∧ a.node.kind = .distinct ∨ b.node.kind = .join)

/-- What a node writes itself is tidy. -/
def FormTidy (quote : Char) (node : Node) : Node.Form → Prop
  | .alone ps => Tidy quote ps
  | .listed before separator after =>
    Tidy quote before ∧ Tidy quote after ∧ Opens quote after ∧
      (node ≠ .select → node ≠ .empty → KeepsApart quote node before separator)
  | .placed => True

end Node

section

variable {quote : Char} (hquote : IsDelimiter quote)
include hquote

mutual

theorem valuePieces_plain (column : Option Attribute) (value : Value) :
    ∀ p ∈ value.pieces column, Plain quote p := by
  cases value with
  | null => simpa [Value.pieces, Plain] using (neutral_of_inert hquote (by decide)).balanced
  | list items =>
    have hitems := itemPieces_plain column true items
    have hopen : Balanced quote "(" := (neutral_of_inert hquote (by decide)).balanced
    have hclose : Balanced quote ")" := (neutral_of_inert hquote (by decide)).balanced
    rw [Value.pieces, List.forall_mem_cons, List.forall_mem_append]
    exact ⟨hopen, hitems, by simpa [Plain] using hclose⟩
  | _ => simp [Value.pieces, Plain]

theorem itemPieces_plain (column : Option Attribute) (first : Bool) (items : List Value) :
    ∀ p ∈ Value.itemPieces column first items, Plain quote p := by
  cases items with
  | nil =>
    rw [Value.itemPieces]
    simp
  | cons item items =>
    have hitem := valuePieces_plain column item
    have hitems := itemPieces_plain column false items
    have hcomma : Balanced quote ", " := (neutral_of_inert hquote (by decide)).balanced
    rw [Value.itemPieces, List.forall_mem_append, List.forall_mem_append]
    refine ⟨⟨?_, hitem⟩, hitems⟩
    cases first <;> simp [Plain, hcomma]

end

theorem columnPieces_tidy (around : Around) (ref : ColumnRef) :
    Tidy quote (Node.columnPieces around ref) := by
  unfold Node.columnPieces
  split
  · rename_i qualifier _
    have hqualifier :
        Tidy quote [if around.aliases qualifier then .alias_ qualifier else .name qualifier] := by
      split
      · exact tidy_alias qualifier
      · exact tidy_name qualifier
    exact hqualifier.separate (separates_word hquote (by decide)) (tidy_name ref.name)
  · exact tidy_name ref.name

theorem tablePieces_tidy (name : String) (schema alias_ : Option String) :
    Tidy quote (Node.tablePieces name schema alias_) := by
  have hname : Tidy quote (Node.tablePieces name none alias_) := by
    cases alias_ with
    | none => exact tidy_name name
    | some a => exact (tidy_name name).separate (separates_word hquote (by decide)) (tidy_alias a)
  cases schema with
  | none => exact hname
  | some schema => exact (tidy_name schema).separate (separates_word hquote (by decide)) hname

theorem bracket_tidy (wanted : Bool) {s : String} (h : isInert s = true) :
    Tidy quote (Node.bracket wanted s) := by
  unfold Node.bracket
  split
  · exact tidy_word hquote h
  · exact tidy_nil

theorem bracket_closes (wanted : Bool) {s : String} (h : stopsApart s = true) :
    Closes quote (Node.bracket wanted s) := by
  unfold Node.bracket
  split
  · exact (shuts_word hquote h).closes
  · exact closes_nil

theorem bracket_opens (wanted : Bool) {s : String} (h : startsApart s = true) :
    Opens quote (Node.bracket wanted s) := by
  unfold Node.bracket
  split
  · exact opens_word hquote h []
  · exact opens_nil

theorem form_tidy {node : Node} (hnode : node.Closed quote) (around : Around) :
    Node.FormTidy quote node (node.form around) := by
  have hinert {s : String} (h : isInert s = true) : Balanced quote s :=
    (neutral_of_inert hquote h).balanced
  have hword {s : String} (h : isInert s = true) : Tidy quote [raw s] := tidy_word hquote h
  have hshut {s : String} (h : stopsApart s = true) : Shuts quote [raw s] :=
    shuts_word hquote h
  have hopen {s : String} (h : startsApart s = true) : Opens quote [raw s] :=
    opens_word hquote h []
  have hsep {s : String} (h : isSeparator s = true) : Separates quote s := separates_word hquote h
  have hsame {node : Node} {before : List Piece} {s : String} (hs : isSeparator s = true)
      (hbefore : Closes quote before) : Node.KeepsApart quote node before (Node.sameText s) :=
    ⟨hbefore, fun _ _ _ => .inl (hsep hs)⟩
  cases node with
  | select =>
    exact ⟨(bracket_tidy hquote _ (by decide)).append (hword (by decide))
      ((bracket_closes hquote _ (by decide)).abuts _), bracket_tidy hquote _ (by decide),
      bracket_opens hquote _ (by decide), fun h => absurd rfl h⟩
  | distinct =>
    show Tidy quote [_]
    split
    · exact hword (by decide)
    · exact hword (by decide)
  | result | whereClause | groupBy | having | orderBy =>
    exact ⟨hword (by decide), tidy_nil, opens_nil,
      fun _ _ => hsame (by decide) (hshut (by decide)).closes⟩
  | fromClause =>
    refine ⟨hword (by decide), tidy_nil, opens_nil,
      fun _ _ => ⟨(hshut (by decide)).closes, fun i a b => ?_⟩⟩
    unfold Node.sourceText
    split
    · exact .inr ⟨rfl, .inr ‹_›⟩
    · exact .inl (hsep (by decide))
  | table name schema alias_ => exact tablePieces_tidy hquote name schema alias_
  | ordering direction =>
    have hafter : Tidy quote (if direction = .descending then [.raw " DESC"] else []) ∧
        Opens quote (if direction = .descending then [.raw " DESC"] else []) := by
      split
      · exact ⟨hword (by decide), hopen (by decide)⟩
      · exact ⟨tidy_nil, opens_nil⟩
    exact ⟨tidy_nil, hafter.1, hafter.2, fun _ _ => hsame (by decide) closes_nil⟩
  | limitOffset limit offset =>
    exact tidy_raw (neutral_canonicalPage hquote limit offset).balanced
  | page clause limit offset => exact tidy_raw (neutral_page hquote clause limit offset).balanced
  | column ref => exact columnPieces_tidy hquote around ref
  | trimmedColumn ref strip =>
    have hname : Tidy quote [raw strip.function] := by
      cases strip <;> exact hword (by decide)
    have hcall := hname.separate (hsep (s := "(") (by decide)) (columnPieces_tidy hquote around ref)
    exact hcall.append (hword (by decide)) ((hopen (by decide)).abuts _)
  | value value column => exact tidy_plain (valuePieces_plain hquote column value)
  | castValue value column target length =>
    have htarget := hnode target (by simp [Node.fragments])
    have hlength := (neutral_toString hquote length).balanced
    have hvalue := valuePieces_plain hquote column value
    refine tidy_plain ?_
    rw [List.forall_mem_cons, List.forall_mem_append]
    refine ⟨hinert (by decide), hvalue, ?_⟩
    simp only [List.forall_mem_cons]
    exact ⟨hinert (by decide), htarget, hinert (by decide), hlength, hinert (by decide), by simp⟩
  | function name parentheses origin =>
    have hname := hnode name (by simp [Node.fragments])
    cases parentheses with
    | false => exact tidy_raw hname
    | true =>
      refine ⟨(tidy_raw hname).append (hword (by decide)) ((hopen (by decide)).abuts _),
        hword (by decide), hopen (by decide),
        fun _ _ => ⟨((hshut (by decide)).after [.raw name]).closes, fun i a b => ?_⟩⟩
      unfold Node.argumentText
      split
      · exact .inr ⟨rfl, .inl ⟨rfl, ‹_›⟩⟩
      · exact .inl (hsep (by decide))
  | keywordCall name keywords =>
    have hname := hnode name (by simp [Node.fragments])
    refine ⟨(tidy_raw hname).append (hword (by decide)) ((hopen (by decide)).abuts _),
      hword (by decide), hopen (by decide),
      fun _ _ => ⟨((hshut (by decide)).after [.raw name]).closes, fun i a b => .inl ?_⟩⟩
    unfold Node.keywordText
    split
    · rename_i keyword hkeyword
      have hmem := List.mem_of_getElem? hkeyword
      exact separates_blanks hquote (hnode keyword (by simp [Node.fragments, hmem]))
    · exact hsep (by decide)
  | operation operator =>
    have hoperator := hnode operator (by simp [Node.fragments])
    exact ⟨tidy_nil, tidy_nil, opens_nil,
      fun _ _ => ⟨closes_nil, fun _ _ _ => .inl (separates_blanks hquote hoperator)⟩⟩
  | group | not =>
    exact ⟨hword (by decide), hword (by decide), hopen (by decide),
      fun _ _ => hsame (by decide) (hshut (by decide)).closes⟩
  | boolean op =>
    refine ⟨bracket_tidy hquote _ (by decide), bracket_tidy hquote _ (by decide),
      bracket_opens hquote _ (by decide), fun _ _ => ?_⟩
    cases op <;> exact hsame (by decide) (bracket_closes hquote _ (by decide))
  | exists_ negated =>
    cases negated <;> exact ⟨hword (by decide), tidy_nil, opens_nil,
      fun _ _ => hsame (by decide) (hshut (by decide)).closes⟩
  | text s => exact tidy_raw (hnode s (by simp [Node.fragments]))
  | empty => exact ⟨tidy_nil, tidy_nil, opens_nil, fun _ h => absurd rfl h⟩
  | _ => trivial

theorem escapePieces_plain (escape : Option Char) :
    ∀ p ∈ Node.escapePieces escape, Plain quote p := by
  cases escape with
  | none => simp [Node.escapePieces]
  | some c =>
    have hword : Balanced quote " ESCAPE " := (neutral_of_inert hquote (by decide)).balanced
    have hliteral : Balanced quote (Node.escapeText c) := (neutral_escapeText c).balanced
    simp [Node.escapePieces, Plain, hword, hliteral]

theorem escapePieces_opens (escape : Option Char) : Opens quote (Node.escapePieces escape) := by
  cases escape with
  | none => exact opens_nil
  | some c => exact opens_word hquote (by decide) _

/-- The same of the nodes whose parts have places of their own. -/
theorem place_tidy {node : Node} {parts : List Part} {ps : List Piece}
    (hparts : Part.AllTidy quote parts) (h : node.place parts = some ps) : Tidy quote ps := by
  have hsep {s : String} (h : isSeparator s = true) : Separates quote s := separates_word hquote h
  have hsep_ite {c : Prop} [Decidable c] {s s' : String} (h : isSeparator s = true)
      (h' : isSeparator s' = true) : Separates quote (if c then s else s') := by
    split
    · exact hsep h
    · exact hsep h'
  unfold Node.place at h
  split at h
  case h_1 kind =>
    cases h
    cases kind <;> exact tidy_word hquote (by decide)
  case h_2 kind only =>
    obtain ⟨qs, hqs, rfl⟩ := Option.map_eq_some_iff.1 h
    have hjoin : Separates quote (Tree.joinKeyword kind) := by
      cases kind <;> exact hsep (by decide)
    exact tidy_nil.separate hjoin (hparts only (by simp) qs hqs)
  case h_3 kind first second rest =>
    simp only [Option.bind_eq_bind, Option.bind_eq_some_iff, Option.some.injEq] at h
    obtain ⟨qs, hqs, rs, hrs, rfl⟩ := h
    have hjoin : Separates quote (Tree.joinKeyword kind) := by
      cases kind <;> exact hsep (by decide)
    have hsource := hparts first (by simp) qs hqs
    have hcondition := hparts second (by simp) rs hrs
    exact tidy_nil.separate hjoin (hsource.separate (hsep (by decide)) hcondition)
  case h_4 op left right =>
    simp only [Option.bind_eq_bind, Option.bind_eq_some_iff] at h
    obtain ⟨qs, hqs, h⟩ := h
    have hleft := hparts left (by simp) qs hqs
    split at h
    · cases h
      refine hleft.append ?_ (Opens.abuts ?_ qs)
      · split <;> exact tidy_word hquote (by decide)
      · split <;> exact opens_word hquote (by decide) _
    · obtain ⟨rs, hrs, h⟩ := Option.bind_eq_some_iff.1 h
      cases h
      have hsymbol : Tidy quote [raw op.symbol] := by
        cases op <;> exact tidy_word hquote (by decide)
      have hright := hsymbol.separate (hsep (s := " ") (by decide)) (hparts right (by simp) rs hrs)
      exact hleft.separate (hsep (by decide)) hright
  case h_5 operator ignoreCase negated escape left right =>
    simp only [Option.bind_eq_bind, Option.bind_eq_some_iff, Option.some.injEq] at h
    obtain ⟨qs, hqs, rs, hrs, rfl⟩ := h
    have hkeyword : Tidy quote [raw operator.keyword] := by
      cases operator <;> exact tidy_word hquote (by decide)
    have hpattern := (hparts right (by simp) rs hrs).append
      (tidy_plain (escapePieces_plain hquote escape)) ((escapePieces_opens hquote escape).abuts rs)
    exact (hparts left (by simp) qs hqs).separate (hsep_ite (by decide) (by decide))
      (hkeyword.separate (hsep (s := " ") (by decide)) hpattern)
  case h_6 negated left right =>
    simp only [Option.bind_eq_bind, Option.bind_eq_some_iff, Option.some.injEq] at h
    obtain ⟨qs, hqs, rs, hrs, rfl⟩ := h
    exact (hparts left (by simp) qs hqs).separate (hsep_ite (by decide) (by decide))
      (hparts right (by simp) rs hrs)
  case h_7 negated first second third =>
    simp only [Option.bind_eq_bind, Option.bind_eq_some_iff, Option.some.injEq] at h
    obtain ⟨qs, hqs, rs, hrs, us, hus, rfl⟩ := h
    exact (hparts first (by simp) qs hqs).separate (hsep_ite (by decide) (by decide))
      ((hparts second (by simp) rs hrs).separate (hsep (by decide)) (hparts third (by simp) us hus))
  case h_8 => cases h

end

/-! ## Edges -/

section

variable {quote : Char} (hquote : IsDelimiter quote)
include hquote

theorem opens_leading {s : String} (h : startsApart s = true) (s' : String) :
    Opens quote [raw (s ++ s')] := by
  have hword := opens_word hquote h [.raw s']
  simpa [Opens, glyphs] using hword

omit hquote in
theorem opens_both {s s' : String} (h : Opens quote [raw s]) (h' : Opens quote [raw s']) :
    Opens quote [raw (s ++ s')] := by
  have hboth := h.append h'
  simpa [Opens, glyphs] using hboth

omit hquote in
theorem opens_unlessZero {n : UInt64} {s : String} (h : Opens quote [raw s]) :
    Opens quote [raw (unlessZero n s)] := by
  unfold unlessZero
  split
  · exact h
  · simp [Opens, glyphs]

theorem opens_canonicalPage (limit offset : UInt64) :
    Opens quote [raw (PageClause.canonical limit offset)] :=
  opens_both (opens_unlessZero (opens_leading hquote (by decide) _))
    (opens_unlessZero (opens_leading hquote (by decide) _))

theorem opens_page (clause : PageClause) (limit offset : UInt64) :
    Opens quote [raw (clause.sql limit offset)] := by
  have hpart (n : UInt64) {before : String} (h : startsApart before = true)
      (digits after : String) : Opens quote [raw (unlessZero n (before ++ digits ++ after))] := by
    rw [String.append_assoc]
    exact opens_unlessZero (opens_leading hquote h _)
  have hunbounded (unbounded : String) :
      Opens quote [raw (PageClause.withUnbounded unbounded limit offset)] := by
    refine opens_both ?_ (opens_unlessZero (opens_leading hquote (by decide) _))
    split
    · exact opens_leading hquote (by decide) _
    · exact opens_unlessZero (opens_leading hquote (by decide) _)
  cases clause with
  | offsetFetchNext => exact opens_both (hpart offset (by decide) _ _) (hpart limit (by decide) _ _)
  | offsetRowsFetchFirst =>
    exact opens_both (hpart offset (by decide) _ _) (hpart limit (by decide) _ _)
  | offsetFetchFirst =>
    exact opens_both (opens_unlessZero (opens_leading hquote (by decide) _))
      (hpart limit (by decide) _ _)
  | rowsTo =>
    unfold PageClause.sql
    dsimp only
    split
    · simp [Opens, glyphs]
    · rw [String.append_assoc, String.append_assoc]
      exact opens_leading hquote (by decide) _
  | limitMaxRows | limitNegativeOne | limitZero => exact hunbounded _

end

section

variable {quote : Char} {around : Around} {t : Term} {ps : List Piece}

/-- Only results are written with their aliases. -/
theorem pieces_unaliased {node : Node} {alias_ : Option String} {children : List Term}
    (habove : around.above ≠ some .result) :
    (Term.mk node alias_ children).pieces around =
      node.shape around (children.map fun t => ⟨t, t.pieces (around.below node children)⟩) := by
  have halias : Node.aliasPieces around alias_ = [] := by
    unfold Node.aliasPieces
    split
    · rfl
    · rw [if_neg habove]
  rw [Term.pieces_mk, halias]
  simp

variable (hquote : IsDelimiter quote)
include hquote

theorem opens_join (kind : JoinKind) (rest : List Piece) :
    Opens quote (raw (Tree.joinKeyword kind) :: rest) := by
  cases kind <;> exact opens_word hquote (by decide) rest

/-- A term is written with the beginning that is certain of it. -/
theorem pieces_begins {kind : NodeKind} (hkind : kind = .select ∨ kind = .empty)
    (habove : around.above = some kind) (h : t.pieces around = some ps) :
    Begins quote ps (t.front kind) := by
  obtain ⟨node, alias_, children⟩ := t
  have hresult : around.above ≠ some .result := by
    rw [habove]
    rcases hkind with rfl | rfl <;> nofun
  rw [pieces_unaliased hresult] at h
  unfold Term.front
  cases node with
  | text s =>
    cases h
    rw [Term.node, Node.front_text]
    split
    · rename_i happart
      rcases Bool.or_eq_true_iff.1 happart with hs | hs
      · obtain rfl : s = "" := by simpa using hs
        simp [Begins, Opens, glyphs]
      · exact opens_word hquote hs []
    · rename_i happart
      exact begins_word (by rintro rfl; exact happart rfl) []
  | empty =>
    cases children with
    | nil =>
      cases h
      exact opens_nil
    | cons t ts => trivial
  | select =>
    obtain ⟨inner, -, rfl⟩ := Option.map_eq_some_iff.1 h
    rw [habove]
    rcases hkind with rfl | rfl
    · exact opens_word hquote (by decide) _
    · exact begins_word (by decide) _
  | distinct =>
    cases h
    rcases hkind with rfl | rfl <;> rw [habove] <;> exact opens_word hquote (by decide) _
  | limitOffset limit offset =>
    cases h
    exact opens_canonicalPage hquote limit offset
  | page clause limit offset =>
    cases h
    exact opens_page hquote clause limit offset
  | join kind =>
    obtain ⟨rest, rfl, -⟩ := place_join ⟨.always, quote⟩ h
    exact opens_join hquote kind rest
  | result | fromClause | whereClause | groupBy | having | orderBy | group =>
    obtain ⟨inner, -, rfl⟩ := Option.map_eq_some_iff.1 h
    exact opens_word hquote (by decide) _
  | value value column =>
    cases h
    exact begins_plain (valuePieces_plain hquote column value)
  | castValue value column target length =>
    cases h
    exact begins_word (by decide) _
  | trimmedColumn ref strip =>
    cases h
    exact begins_behind strip.function (begins_word (by decide) _)
  | keywordCall name keywords =>
    obtain ⟨inner, -, rfl⟩ := Option.map_eq_some_iff.1 h
    exact begins_behind name (begins_word (by decide) _)
  | not =>
    obtain ⟨inner, -, rfl⟩ := Option.map_eq_some_iff.1 h
    exact begins_word (by decide) _
  | exists_ negated =>
    obtain ⟨inner, -, rfl⟩ := Option.map_eq_some_iff.1 h
    cases negated <;> exact begins_word (by decide) _
  | _ => trivial

/-- A term is written with the end that is certain of it. -/
theorem pieces_ends {kind : NodeKind} (hkind : kind = .select ∨ kind = .empty)
    (habove : around.above = some kind) (h : t.pieces around = some ps) :
    Ends quote ps (t.back kind) := by
  obtain ⟨node, alias_, children⟩ := t
  have hresult : around.above ≠ some .result := by
    rw [habove]
    rcases hkind with rfl | rfl <;> nofun
  rw [pieces_unaliased hresult] at h
  have hbracket (ps : List Piece) : Shuts quote (ps ++ [raw ")"]) :=
    (shuts_word hquote (by decide)).after ps
  unfold Term.back
  cases node with
  | text s =>
    cases h
    rw [Term.node, Node.back_text]
    split
    · exact shuts_word hquote ‹_›
    · split
      · trivial
      · rename_i hs
        exact ends_word (by rintro rfl; exact hs rfl)
  | select =>
    obtain ⟨inner, -, rfl⟩ := Option.map_eq_some_iff.1 h
    rw [habove]
    rcases hkind with rfl | rfl
    · exact hbracket _
    · trivial
  | distinct =>
    cases h
    rcases hkind with rfl | rfl <;> rw [habove] <;> exact ends_word (by decide)
  | value value column =>
    cases h
    cases value with
    | null => exact ends_word (by decide)
    | list items =>
      rw [Value.pieces]
      exact hbracket (raw "(" :: Value.itemPieces column true items)
    | _ => exact ⟨some '?', rfl, severed_char hquote (by decide)⟩
  | castValue value column target length =>
    cases h
    have hcast := (shuts_word hquote (s := "))") (by decide)).after
      (raw "CAST(" :: (value.pieces column ++
        [raw " AS ", raw target, raw "(", raw (toString length)]))
    show Shuts quote _
    simpa using hcast
  | trimmedColumn ref strip =>
    cases h
    exact hbracket (raw strip.function :: raw "(" :: Node.columnPieces around ref)
  | keywordCall name keywords =>
    obtain ⟨inner, -, rfl⟩ := Option.map_eq_some_iff.1 h
    exact hbracket _
  | group | not =>
    obtain ⟨inner, -, rfl⟩ := Option.map_eq_some_iff.1 h
    exact hbracket _
  | _ => trivial

/-- The marker of distinct values ends in a blank in front of an argument. -/
theorem distinct_shuts (habove : around.above = some .function) (ht : t.node.kind = .distinct)
    (h : t.pieces around = some ps) : Shuts quote ps := by
  obtain ⟨node, alias_, children⟩ := t
  rw [pieces_unaliased (by rw [habove]; nofun)] at h
  cases node with
  | distinct =>
    cases h
    rw [habove]
    exact shuts_word hquote (by decide)
  | boolean op => cases op <;> cases ht
  | _ => cases ht

theorem join_opens (ht : t.node.kind = .join) (h : t.pieces around = some ps) :
    Opens quote ps := by
  obtain ⟨node, alias_, children⟩ := t
  rw [Term.pieces_mk] at h
  obtain ⟨qs, hqs, rfl⟩ := Option.map_eq_some_iff.1 h
  cases node with
  | join kind =>
    obtain ⟨rest, rfl, -⟩ := place_join ⟨.always, quote⟩ hqs
    exact opens_join hquote kind _
  | boolean op => cases op <;> cases ht
  | _ => cases ht

end

/-! ## Whole terms -/

section

variable {quote : Char} (hquote : IsDelimiter quote)
include hquote

/-- What a node writes around tidy parts. -/
theorem shape_tidy {around : Around} {node : Node} {children : List Term} {ps : List Piece}
    (hnode : node.Closed quote) (hseamed : Term.Seamed node children)
    (hparts : Part.AllTidy quote
      (children.map fun t => ⟨t, t.pieces (around.below node children)⟩))
    (h : node.shape around
      (children.map fun t => ⟨t, t.pieces (around.below node children)⟩) = some ps) :
    Tidy quote ps := by
  have hform := form_tidy hquote hnode around
  unfold Node.shape at h
  cases hf : node.form around with
  | alone qs =>
    rw [hf] at h hform
    cases h
    exact hform
  | placed =>
    rw [hf] at h
    exact place_tidy hquote hparts h
  | listed before separator after =>
    rw [hf] at h hform
    obtain ⟨hbefore, hafter, hopens, hkeeps⟩ := hform
    obtain ⟨qs, hqs, rfl⟩ := Option.map_eq_some_iff.1 h
    refine Tidy.append ?_ hafter (hopens.abuts _)
    -- Where nothing is written between the terms, these were asked to keep themselves apart.
    have hbare {kind : NodeKind} (hkind : kind = .select ∨ kind = .empty)
        (habove : (around.below node children).above = some kind)
        (hchain : children.IsChain (Term.Seam kind)) : (children.map fun t =>
          (⟨t, t.pieces (around.below node children)⟩ : Part)).IsChain
            (Part.Joined quote (Node.sameText "")) := by
      rw [List.isChain_map]
      refine hchain.imp fun a b hab i => .inr ⟨rfl, fun rs us hrs hus => ?_⟩
      exact follows_of_edges (pieces_ends hquote hkind habove hrs)
        (pieces_begins hquote hkind habove hus) hab
    by_cases hselect : node = .select
    · subst hselect
      cases hf
      obtain ⟨hfirst, hchain⟩ := hseamed
      refine Part.separated_tidy hparts (hbare (.inl rfl) rfl hchain) hbefore ?_ hqs
      intro a ha rs hrs
      rw [List.head?_map] at ha
      obtain ⟨t, ht, rfl⟩ := Option.map_eq_some_iff.1 ha
      have hbegins := pieces_begins hquote (.inl rfl) rfl hrs
      have hword : Ends quote [raw "SELECT"] .letter := ends_word (by decide)
      exact follows_of_edges hword hbegins (.inr (.inr ⟨nofun, hfirst t ht⟩)) _
    by_cases hempty : node = .empty
    · subst hempty
      cases hf
      exact Part.separated_tidy hparts (hbare (.inr rfl) rfl hseamed) hbefore
        (fun _ _ rs _ => closes_nil.abuts rs) hqs
    obtain ⟨hcloses, hseparates⟩ := hkeeps hselect hempty
    refine Part.separated_tidy hparts ?_ hbefore (fun _ _ rs _ => hcloses.abuts rs) hqs
    rw [List.isChain_map]
    refine List.Pairwise.isChain (List.pairwise_of_forall fun a b i => ?_)
    refine (hseparates i a b).imp_right fun ⟨hnothing, hedge⟩ => ⟨hnothing, fun rs us hrs hus => ?_⟩
    rcases hedge with ⟨hfunction, ha⟩ | hb
    · exact (distinct_shuts hquote (by rw [← hfunction]; rfl) ha hrs).follows us
    · exact (join_opens hquote hb hus).follows rs

/-- The pieces of a term of closed nodes that keeps what is below it apart. -/
theorem Term.pieces_tidy {around : Around} {t : Term} {ps : List Piece}
    (hclosed : t.EveryNode (Node.Closed quote)) (hspaced : t.Spaced)
    (h : t.pieces around = some ps) : Tidy quote ps := by
  -- What is around a term decides about brackets and aliases, so the induction is for all of it.
  induction t using Term.induct generalizing around ps with
  | mk node alias_ children ih =>
    obtain ⟨hnode, hbelow⟩ := Term.every_mk.1 hclosed
    obtain ⟨hseamed, hspaced⟩ := Term.every_mk.1 hspaced
    rw [Term.pieces_mk] at h
    obtain ⟨qs, hqs, rfl⟩ := Option.map_eq_some_iff.1 h
    have hshape := shape_tidy hquote hnode hseamed (fun part hpart rs hrs => by
      obtain ⟨c, hc, rfl⟩ := List.mem_map.1 hpart
      exact ih c hc (hbelow c hc) (hspaced c hc) hrs) hqs
    unfold Node.aliasPieces
    split
    · rwa [List.append_nil]
    · split
      · exact hshape.separate (separates_word hquote (by decide)) (tidy_name _)
      · rwa [List.append_nil]

end
end PolyglotSql
