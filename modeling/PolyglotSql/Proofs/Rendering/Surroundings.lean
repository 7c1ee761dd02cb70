import PolyglotSql.Proofs.Dialect.Layers
import PolyglotSql.Proofs.Rendering.Writing
import PolyglotSql.Proofs.Translation

/-!
# PolyglotSql.Proofs.Rendering.Surroundings

A term in its surroundings, as text. What is written of a term in layers that are written is what is
written of the term by itself, between what the layers write (`pieces_within`); so it is, too, of a
translated query (`translated_within`).
-/

namespace PolyglotSql

/-! ## Parts -/

namespace Part

/-- What `write` makes of a part is what is written of the part, between the same pieces for all
parts that are alike. -/
def Frames (alike : Part → Prop) (write : Part → Option (List Piece)) : Prop :=
  ∃ front back, ∀ p, alike p → write p = p.pieces.map fun own => front ++ (own ++ back)

/-- Parts whose terms have the same top. -/
def SameTop (p q : Part) : Prop :=
  q.term.node = p.term.node

/-- Parts that have the same texts before and behind them. -/
def SameTexts (between : Nat → Term → Term → String) (p q : Part) : Prop :=
  ∀ i t, between i t q.term = between i t p.term ∧ between i q.term t = between i p.term t

variable {between : Nat → Term → Term → String} {alike : Part → Prop} {before after : List Part}
  {p : Part} {ps : List Piece}

/-- Around a part stand the parts before it and those behind it, and the text in front of it. -/
theorem separated_around (h : ∀ q, alike q → SameTexts between p q) {index : Nat}
    {last : Option Term} (hps : separated between index last (before ++ p :: after) = some ps) :
    ∃ front i t j back, separated between index last before = some front ∧
      separated between j (some p.term) after = some back ∧
      ∀ q, alike q → separated between index last (before ++ q :: after) =
        q.pieces.map fun own => front ++ lead between i t p.term ++ (own ++ back) := by
  induction before generalizing index last ps with
  | nil =>
    obtain ⟨own, rest, -, hrest, -⟩ := separated_cons.1 hps
    refine ⟨[], index, last, index + 1, rest, rfl, hrest, fun q hq => ?_⟩
    have hlead : lead between index last q.term = lead between index last p.term := by
      cases last with
      | none => rfl
      | some b => simp only [lead, (h q hq index b).1]
    have hlast : separated between (index + 1) (some q.term) after = some rest := by
      rw [← hrest]
      cases after with
      | nil => rfl
      | cons r after => simp only [separated, (h q hq (index + 1) r.term).2]
    rw [← hlead]
    cases last <;> cases hq : q.pieces <;> simp [separated, lead, hlast, hq]
  | cons r before ih =>
    obtain ⟨first, others, hfirst, hothers, -⟩ := separated_cons.1 hps
    obtain ⟨front, i, t, j, back, hfront, hback, hframe⟩ := ih hothers
    refine ⟨lead between index last r.term ++ (first ++ front), i, t, j, back,
      separated_cons.2 ⟨first, front, hfirst, hfront, rfl⟩, hback, fun q hq => ?_⟩
    have hrest := hframe q hq
    cases last <;> cases hq : q.pieces <;> simp_all [separated, lead]

theorem separated_frames (h : ∀ q, alike q → SameTexts between p q) {index : Nat}
    {last : Option Term} (hps : separated between index last (before ++ p :: after) = some ps) :
    Frames alike fun q => separated between index last (before ++ q :: after) := by
  obtain ⟨front, i, t, -, back, -, -, hframe⟩ := separated_around h hps
  exact ⟨front ++ lead between i t p.term, back, hframe⟩

end Part

namespace Node

variable {around : Around} {before after : List Part} {p : Part} {ps : List Piece} {node : Node}

theorem form_sameTexts {opening closing : List Piece} {between : Nat → Term → Term → String}
    (h : node.form around = .listed opening between closing) {q : Part} (hq : p.SameTop q) :
    p.SameTexts between q := by
  have hsource : p.SameTexts sourceText q := by
    intro i t
    simp only [sourceText, show q.term.node = p.term.node from hq, and_self]
  have hargument : p.SameTexts argumentText q := by
    intro i t
    simp only [argumentText, show q.term.node = p.term.node from hq, and_self]
  unfold form at h
  split at h <;> cases h <;> first
    | exact hsource
    | exact hargument
    | exact fun _ _ => ⟨rfl, rfl⟩

/-- Two parts that are both written, with something before, between and behind them. -/
theorem pair_frames (opening middle closing : List Piece) (write : Part → Part → Option (List Piece))
    {p q : Part} (hps : write p q = some ps)
    (hwrite : ∀ p' q' : Part, p'.term.node = p.term.node → q'.term.node = q.term.node →
      write p' q' = do
        let own ← p'.pieces
        let other ← q'.pieces
        some (opening ++ (own ++ (middle ++ (other ++ closing))))) :
    Part.Frames p.SameTop (write · q) ∧ Part.Frames q.SameTop (write p) := by
  rw [hwrite p q rfl rfl] at hps
  obtain ⟨own, hown, hps⟩ := Option.bind_eq_some_iff.1 hps
  obtain ⟨other, hother, -⟩ := Option.bind_eq_some_iff.1 hps
  refine ⟨⟨opening, middle ++ (other ++ closing), fun r hr => ?_⟩,
    ⟨opening ++ (own ++ middle), closing, fun r hr => ?_⟩⟩
  · refine (hwrite r q hr rfl).trans ?_
    cases r.pieces <;> simp [hother]
  · refine (hwrite p r rfl hr).trans ?_
    cases r.pieces <;> simp [hown]

theorem between_frames {negated : Bool}
    (hps : place (.between negated) (before ++ p :: after) = some ps) :
    Part.Frames p.SameTop fun q => place (.between negated) (before ++ q :: after) := by
  have hparts {a b c : Part} (h : place (.between negated) [a, b, c] = some ps) :
      ∃ subject low high, a.pieces = some subject ∧ b.pieces = some low ∧
        c.pieces = some high := by
    obtain ⟨subject, hsubject, h⟩ := Option.bind_eq_some_iff.1 h
    obtain ⟨low, hlow, h⟩ := Option.bind_eq_some_iff.1 h
    obtain ⟨high, hhigh, -⟩ := Option.bind_eq_some_iff.1 h
    exact ⟨subject, low, high, hsubject, hlow, hhigh⟩
  let word : Piece := .raw (if negated then " NOT BETWEEN " else " BETWEEN ")
  match before, after with
  | [], [b, c] =>
    obtain ⟨-, low, high, -, hlow, hhigh⟩ := hparts hps
    refine ⟨[], word :: (low ++ .raw " AND " :: high), fun q _ => ?_⟩
    cases hq : q.pieces <;> simp [place, hlow, hhigh, hq, word]
  | [a], [c] =>
    obtain ⟨subject, -, high, hsubject, -, hhigh⟩ := hparts hps
    refine ⟨subject ++ [word], .raw " AND " :: high, fun q _ => ?_⟩
    cases hq : q.pieces <;> simp [place, hsubject, hhigh, hq, word]
  | [a, b], [] =>
    obtain ⟨subject, low, -, hsubject, hlow, -⟩ := hparts hps
    refine ⟨subject ++ word :: (low ++ [.raw " AND "]), [], fun q _ => ?_⟩
    cases hq : q.pieces <;> simp [place, hsubject, hlow, hq, word]
  | [], [] | [], [_] | [], _ :: _ :: _ :: _ | [_], [] | [_], _ :: _ :: _ | [_, _], _ :: _
  | _ :: _ :: _ :: _, _ => simp [place] at hps

theorem one_beside {write : List Part → Option (List Piece)}
    (hnone : ∀ parts, parts.length ≠ 2 → write parts = none)
    (hps : write (before ++ p :: after) = some ps) :
    (before = [] ∧ ∃ q, after = [q]) ∨ after = [] ∧ ∃ q, before = [q] := by
  have hlength : (before ++ p :: after).length = 2 := by
    by_contra h
    rw [hnone _ h] at hps
    cases hps
  rw [List.length_append, List.length_cons] at hlength
  cases before with
  | nil => exact .inl ⟨rfl, List.length_eq_one_iff.1 (by simpa using hlength)⟩
  | cons q before =>
    rw [List.length_cons] at hlength
    exact .inr ⟨List.length_eq_zero_iff.1 (by omega), q,
      by rw [List.length_eq_zero_iff.1 (show before.length = 0 by omega)]⟩

theorem place_two (op : Comparison) (operator : LikeOperator) (ignoreCase negated : Bool)
    (escape : Option Char) (parts : List Part) (h : parts.length ≠ 2) :
    place (.equality op) parts = none ∧
      place (.like operator ignoreCase negated escape) parts = none ∧
      place (.in_ negated) parts = none := by
  rcases parts with _ | ⟨p, _ | ⟨q, _ | ⟨r, parts⟩⟩⟩
  · exact ⟨rfl, rfl, rfl⟩
  · exact ⟨rfl, rfl, rfl⟩
  · exact absurd rfl h
  · exact ⟨rfl, rfl, rfl⟩

theorem place_frames (hshows : node.shows before.length = true)
    (hnull : p.term.node.isNullValue = false)
    (hps : node.place (before ++ p :: after) = some ps) :
    Part.Frames p.SameTop fun q => node.place (before ++ q :: after) := by
  cases node with
  | join kind =>
    have hpair {a b : Part} {rest : List Part} (h : place (.join kind) (a :: b :: rest) = some ps) :=
      pair_frames [.raw (Tree.joinKeyword kind)] [.raw " ON "] []
        (fun a b => place (.join kind) (a :: b :: rest)) h fun a b _ _ => by simp [place]
    rcases before with _ | ⟨a, _ | ⟨b, before⟩⟩
    · cases after with
      | nil => exact ⟨[.raw (Tree.joinKeyword kind)], [], fun q _ => by simp [place]⟩
      | cons _ _ => exact (hpair hps).1
    · exact (hpair hps).2
    · simp only [shows, List.length_cons, decide_eq_true_eq] at hshows
      omega
  | equality op =>
    obtain ⟨rfl, right, rfl⟩ | ⟨rfl, left, rfl⟩ :=
      one_beside (fun parts h => (place_two op .like false false none parts h).1) hps
    · by_cases hright : right.term.node.isNullValue = true
      · refine ⟨[], [.raw (if op = .ne then " IS NOT NULL" else " IS NULL")], fun q _ => ?_⟩
        cases hq : q.pieces <;> simp [place, hright, hq]
      · refine (pair_frames [] [.raw " ", .raw op.symbol, .raw " "] []
          (fun a b => place (.equality op) [a, b]) hps fun a b _ hb => ?_).1
        simp [place, hb, hright]
    · refine (pair_frames [] [.raw " ", .raw op.symbol, .raw " "] []
        (fun a b => place (.equality op) [a, b]) hps fun a b _ hb => ?_).2
      simp [place, hb, hnull]
  | like operator ignoreCase negated escape =>
    have hpair {a b : Part}
        (h : place (.like operator ignoreCase negated escape) [a, b] = some ps) :=
      pair_frames []
        [.raw (if negated then " NOT " else " "), .raw operator.keyword, .raw " "]
        (escapePieces escape)
        (fun a b => place (.like operator ignoreCase negated escape) [a, b]) h
        fun a b _ _ => by simp [place]
    obtain ⟨rfl, q, rfl⟩ | ⟨rfl, q, rfl⟩ :=
      one_beside (fun parts h => (place_two .eq operator ignoreCase negated escape parts h).2.1) hps
    · exact (hpair hps).1
    · exact (hpair hps).2
  | in_ negated =>
    have hpair {a b : Part} (h : place (.in_ negated) [a, b] = some ps) :=
      pair_frames [] [.raw (if negated then " NOT IN " else " IN ")] []
        (fun a b => place (.in_ negated) [a, b]) h fun a b _ _ => by simp [place]
    obtain ⟨rfl, q, rfl⟩ | ⟨rfl, q, rfl⟩ :=
      one_beside (fun parts h => (place_two .eq .like false negated none parts h).2.2) hps
    · exact (hpair hps).1
    · exact (hpair hps).2
  | between negated => exact between_frames hps
  | _ => simp [place] at hps

/-- A node writes its own between what it writes of the others, if it writes it at all. -/
theorem shape_frames (hshows : node.shows before.length = true)
    (hnull : p.term.node.isNullValue = false)
    (hps : node.shape around (before ++ p :: after) = some ps) :
    Part.Frames p.SameTop fun q => node.shape around (before ++ q :: after) := by
  unfold shape at hps ⊢
  cases hform : node.form around with
  | alone own =>
    cases node with
    | function name parentheses origin =>
      cases parentheses with
      | false => cases hshows
      | true => cases hform
    | distinct | table | limitOffset | page | column | trimmedColumn | value | castValue | text =>
      cases hshows
    | _ => cases hform
  | listed opening between closing =>
    rw [hform] at hps
    obtain ⟨inner, hinner, -⟩ := Option.map_eq_some_iff.1 hps
    obtain ⟨front, back, hframe⟩ := Part.separated_frames (fun q hq => form_sameTexts hform hq) hinner
    refine ⟨opening ++ front, back ++ closing, fun q hq => ?_⟩
    have hown := hframe q hq
    dsimp only at hown ⊢
    rw [hown]
    cases q.pieces <;> simp
  | placed =>
    rw [hform] at hps
    exact place_frames hshows hnull hps

end Node

namespace Term

variable {layers : List Layer} {around : Around} {u : Term}

theorem within_declares {w : Term} (h : ∀ q, w.declares q = u.declares q) (qualifier : String) :
    (within layers w).declares qualifier = (within layers u).declares qualifier := by
  induction layers with
  | nil => exact h qualifier
  | cons l layers ih =>
    obtain ⟨node, alias_, before, after⟩ := l
    cases node with
    | table name schema alias_ => cases alias_ <;> simp [Layer.fill, declares, ih]
    | _ => simp [Layer.fill, declares, ih]

theorem within_node {w : Term} (h : w.node = u.node) :
    (within layers w).node = (within layers u).node := by
  cases layers with
  | nil => exact h
  | cons l layers => rfl

/-- A term that is written in some layers is written between the same pieces as any with the same
top that declares the same. -/
theorem pieces_within (hlayers : Written layers) (hu : u.node.isNullValue = false)
    {ps : List Piece} (h : (within layers u).pieces around = some ps) :
    ∃ inner front back, ∀ w : Term, w.node = u.node → (∀ q, w.declares q = u.declares q) →
      (within layers w).pieces around = (w.pieces inner).map fun own => front ++ (own ++ back) := by
  induction layers generalizing around ps with
  | nil => exact ⟨around, [], [], fun w _ _ => by simp⟩
  | cons l layers ih =>
    obtain ⟨hl, hbelow⟩ := writtenIn_cons.1 hlayers
    obtain ⟨node, alias_, before, after⟩ := l
    have hnull : (within layers u).node.isNullValue = false := by
      cases layers with
      | nil => exact hu
      | cons l layers => exact (writtenIn_cons.1 hbelow).1.firm.2.2
    -- Neither the aliases around nor the other parts depend on what stands in the room.
    have hbelow' {w : Term} (hw : w.node = u.node) (hdeclares : ∀ q, w.declares q = u.declares q) :
        around.below node (before ++ within layers w :: after) =
          around.below node (before ++ within layers u :: after) := by
      have hfrom (q : String) : isFromDeclaring q (within layers w) =
          isFromDeclaring q (within layers u) := by
        rw [isFromDeclaring, isFromDeclaring, within_node hw, within_declares hdeclares]
      simp [Around.below, hfrom]
    generalize hinner : around.below node (before ++ within layers u :: after) = inner at hbelow'
    have hpieces {w : Term} (hw : w.node = u.node) (hdeclares : ∀ q, w.declares q = u.declares q) :
        (within (⟨node, alias_, before, after⟩ :: layers) w).pieces around =
          (node.shape around ((before.map fun t => ⟨t, t.pieces inner⟩) ++
            ⟨within layers w, (within layers w).pieces inner⟩ ::
              after.map fun t => ⟨t, t.pieces inner⟩)).map
            (· ++ Node.aliasPieces around alias_) := by
      rw [within_cons, Layer.fill, pieces_mk, hbelow' hw hdeclares, List.map_append, List.map_cons]
    rw [hpieces rfl fun _ => rfl] at h
    obtain ⟨own, hown, -⟩ := Option.map_eq_some_iff.1 h
    obtain ⟨front, back, hframe⟩ :=
      Node.shape_frames (by simpa [Layer.Shown] using hl) hnull hown
    obtain ⟨rest, hrest⟩ : ∃ rest, (within layers u).pieces inner = some rest := by
      have hself := hframe ⟨within layers u, (within layers u).pieces inner⟩ rfl
      dsimp only at hself
      rw [hown] at hself
      obtain ⟨rest, hrest, -⟩ := Option.map_eq_some_iff.1 hself.symm
      exact ⟨rest, hrest⟩
    obtain ⟨innermost, front', back', hroom⟩ := ih hbelow hrest
    refine ⟨innermost, front ++ front', back' ++ (back ++ Node.aliasPieces around alias_),
      fun w hw hdeclares => ?_⟩
    have hpart := hframe ⟨within layers w, (within layers w).pieces inner⟩ (within_node hw)
    dsimp only at hpart
    rw [hpieces hw hdeclares, hpart, hroom w hw hdeclares]
    cases w.pieces innermost <;> simp

/-! ## Translations -/

/-- In a translation, what is written of a term in some layers stands between the same pieces as
what is written of any that has the same top, is adapted to one with the same top, and then declares
the same. -/
theorem translated_within {tr : Translator} (hlayers : Written layers) (hu : u.node.Firm)
    {rendered : RenderedSql} (h : (within layers u).translated tr = some rendered) :
    ∃ above inner front back, (adaptedBelow tr.dialect above u).2 = none ∧
      ∀ w : Term, w.node = u.node → (adaptedBelow tr.dialect above w).2 = none →
        (adaptedBelow tr.dialect above w).1.node = (adaptedBelow tr.dialect above u).1.node →
        (∀ q, (adaptedBelow tr.dialect above w).1.declares q =
          (adaptedBelow tr.dialect above u).1.declares q) →
        (within layers w).translated tr =
          ((adaptedBelow tr.dialect above w).1.pieces inner).map fun own =>
            ((Sink.new tr.style).putAll (front ++ (own ++ back))).finish := by
  obtain ⟨hnone, ps, hps, -⟩ := translated_some h
  rw [adapted_below] at hnone hps
  obtain ⟨above, layers', hlayers', huNone⟩ := adaptedBelow_within hlayers hu hnone
  rw [hlayers'.fill u rfl huNone] at hps
  obtain ⟨inner, front, back, hpieces⟩ :=
    pieces_within hlayers'.written (adaptedBelow_notNull hu.2.2.1) hps
  refine ⟨above, inner, front, back, huNone, fun w hw hwNone hnode hdeclares => ?_⟩
  rw [translated, adapted_below, hlayers'.fill w hw hwNone]
  simp only [hpieces _ hnode hdeclares, Option.map_map]
  rfl

/-- A text that the translator has for a term somewhere in a query. -/
def WrittenAs (tr : Translator) (t : Term) (text : List Char) : Prop :=
  ∃ above around ps, (adaptedBelow tr.dialect above t).2 = none ∧
    (adaptedBelow tr.dialect above t).1.pieces around = some ps ∧ Piece.written tr.style ps = text

/-- Such a text stands in the translation of every query in which the term is written. -/
theorem translated_written {tr : Translator} (hlayers : Written layers) (hu : u.node.Firm)
    {rendered : RenderedSql} (h : (within layers u).translated tr = some rendered) :
    ∃ earlier text later, rendered.sql.toList = earlier ++ (text ++ later) ∧
      u.WrittenAs tr text := by
  obtain ⟨above, inner, front, back, hnone, hsame⟩ := translated_within hlayers hu h
  rw [hsame u rfl hnone rfl fun _ => rfl] at h
  obtain ⟨ps, hps, rfl⟩ := Option.map_eq_some_iff.1 h
  refine ⟨Piece.written tr.style front, Piece.written tr.style ps, Piece.written tr.style back, ?_,
    above, inner, ps, hnone, hps, rfl⟩
  rw [Sink.finish_written]
  simp

end Term
end PolyglotSql
