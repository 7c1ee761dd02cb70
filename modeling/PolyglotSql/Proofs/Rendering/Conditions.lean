import PolyglotSql.Proofs.Rendering.Logic
import PolyglotSql.Proofs.Rendering.Surroundings
import PolyglotSql.Term.Selection

/-!
# PolyglotSql.Proofs.Rendering.Conditions

Conditions in rendered SQL. Chains of one connective are flattened where a condition is built, and
brackets are written for a connective directly below another and for what is negated or grouped. What
is written of a condition reads as a formula that has the truth value of the condition, whichever
truth values its predicates have (`Term.Means.shown`), wherever the condition stands in a query
(`Term.Means.rendered`). Conditions that are added to a select one after another are one.
-/

namespace PolyglotSql

/-- A condition that is put together from predicates, with its truth value by theirs. -/
inductive Term.Means {α : Type} (terms : α → Term → Prop) : ((α → Bool) → Bool) → Term → Prop
  | atom {a : α} {t : Term} (h : terms a t) (hatom : ∀ op, t.node ≠ .boolean op) :
    Means terms (fun σ => σ a) t
  | connect (op : BooleanOp) {truth truth' : (α → Bool) → Bool} {left right : Term}
    (hleft : Means terms truth left) (hright : Means terms truth' right) :
    Means terms (fun σ => op.holds (truth σ) (truth' σ)) (.connect op left right)
  | not {truth : (α → Bool) → Bool} {t : Term} (h : Means terms truth t) :
    Means terms (fun σ => !truth σ) t.not
  | group {truth : (α → Bool) → Bool} {t : Term} (h : Means terms truth t) :
    Means terms truth t.group

namespace LogicToken

variable {α : Type} {tr : Translator} {terms : α → Term → Prop} {tokens tokens' : List (LogicToken α)}
  {ps ps' : List Piece}

/-- Tokens that are written as some pieces, the atoms among them as the translator writes their
terms. -/
def Spell (tr : Translator) (terms : α → Term → Prop) (tokens : List (LogicToken α))
    (ps : List Piece) : Prop :=
  text tokens = Piece.written tr.style ps ∧
    ∀ a own, .atom a own ∈ tokens → ∃ t, terms a t ∧ t.WrittenAs tr own

theorem spell_nil : Spell tr terms [] [] :=
  ⟨rfl, by simp⟩

theorem Spell.append (h : Spell tr terms tokens ps) (h' : Spell tr terms tokens' ps') :
    Spell tr terms (tokens ++ tokens') (ps ++ ps') := by
  refine ⟨by simp [h.1, h'.1], fun a own hmem => ?_⟩
  rcases List.mem_append.1 hmem with hmem | hmem
  · exact h.2 a own hmem
  · exact h'.2 a own hmem

theorem spell_words (words : List (LogicToken α)) {s : String}
    (hatoms : ∀ a own, .atom a own ∉ words) (hs : text words = s.toList) :
    Spell tr terms words [.raw s] :=
  ⟨by simp [hs, Piece.chars], fun a own hmem => absurd hmem (hatoms a own)⟩

theorem Spell.bracket (h : Spell tr terms tokens ps) (words : List (LogicToken α)) {s : String}
    (hatoms : ∀ a own, .atom a own ∉ words) (hs : text words = s.toList) :
    Spell tr terms (words ++ (tokens ++ [.closing])) (.raw s :: (ps ++ [.raw ")"])) :=
  (spell_words words hatoms hs).append (h.append (spell_words [.closing] (by simp) rfl))

end LogicToken

/-! ## What is written of conditions -/

namespace Term

section

variable {α : Type} {tr : Translator} {terms : α → Term → Prop} {truth truth' : (α → Bool) → Bool}
  {t : Term}

/-- What is written of a condition below a connective is read as an operand. -/
def ShownOperand (tr : Translator) (terms : α → Term → Prop) (truth : (α → Bool) → Bool)
    (t : Term) : Prop :=
  ∀ above around ps, (∃ op : BooleanOp, around.above = some (Node.boolean op).kind) →
    (adaptedBelow tr.dialect above t).2 = none →
    (adaptedBelow tr.dialect above t).1.pieces around = some ps →
    ∃ tokens, LogicToken.Spell tr terms tokens ps ∧ ReadsOperand tokens truth

/-- What is written of a condition is read as a whole. -/
def ShownWhole (tr : Translator) (terms : α → Term → Prop) (truth : (α → Bool) → Bool)
    (t : Term) : Prop :=
  ∀ above around ps, (adaptedBelow tr.dialect above t).2 = none →
    (adaptedBelow tr.dialect above t).1.pieces around = some ps →
    ∃ tokens, LogicToken.Spell tr terms tokens ps ∧ ReadsWhole tokens truth

/-- What is written of a condition, by itself and where a connective goes on. -/
structure Shown (tr : Translator) (terms : α → Term → Prop) (truth : (α → Bool) → Bool)
    (t : Term) : Prop where
  whole : ShownWhole tr terms truth t
  /-- What it contributes to a connective. -/
  operands (op : BooleanOp) : ∃ first more, operands op t = (first :: more).map Prod.snd ∧
    (∀ i ∈ first :: more, ShownOperand tr terms i.1 i.2) ∧
    ∀ σ, truth σ = op.join ((first :: more).map fun i => i.1 σ)

/-- A condition of which everything written is an operand. -/
theorem Shown.of_operand (hnode : ∀ op, t.node ≠ .boolean op)
    (h : ∀ above around ps, (adaptedBelow tr.dialect above t).2 = none →
      (adaptedBelow tr.dialect above t).1.pieces around = some ps →
      ∃ tokens, LogicToken.Spell tr terms tokens ps ∧ ReadsOperand tokens truth) :
    Shown tr terms truth t where
  whole above around ps hnone hps := by
    obtain ⟨tokens, hspell, hreads⟩ := h above around ps hnone hps
    exact ⟨tokens, hspell, hreads.whole⟩
  operands op := by
    refine ⟨(truth, t), [], ?_, ?_, fun σ => (op.join_singleton _).symm⟩
    · obtain ⟨node, alias_, children⟩ := t
      cases node with
      | boolean op => exact absurd rfl (hnode op)
      | _ => rfl
    · exact List.forall_mem_singleton.2 fun above around ps _ => h above around ps

theorem only_pieces {node : Node} {opening closing : List Piece}
    {separator : Nat → Term → Term → String}
    (hform : ∀ around, node.form around = .listed opening separator closing)
    {around : Around} {ps : List Piece} (h : (of node [t]).pieces around = some ps) :
    ∃ around' qs, t.pieces around' = some qs ∧ ps = opening ++ (qs ++ closing) := by
  rw [of, pieces_mk, Node.shape, hform] at h
  obtain ⟨inner, hinner, rfl⟩ := Option.map_eq_some_iff.1 h
  obtain ⟨own, hown, rfl⟩ := Option.map_eq_some_iff.1 hinner
  obtain ⟨qs, rest, hqs, hrest, rfl⟩ := Part.separated_cons.1 hown
  cases hrest
  exact ⟨_, qs, hqs, by simp [Part.lead]⟩

theorem Shown.group (h : Shown tr terms truth t) : Shown tr terms truth t.group := by
  refine .of_operand nofun fun above around ps hnone hps => ?_
  obtain ⟨hterm, hchildren⟩ := adaptedBelow_kept (by decide) (fun _ => rfl) hnone
  rw [Term.group, hterm] at hps
  obtain ⟨around', qs, hqs, rfl⟩ := only_pieces (fun _ => rfl) hps
  obtain ⟨tokens, hspell, hreads⟩ := h.whole _ around' qs (hchildren t (.head _)) hqs
  exact ⟨_, hspell.bracket [.opening] (by simp) rfl, hreads.bracket⟩

theorem Shown.not (h : Shown tr terms truth t) : Shown tr terms (fun σ => !truth σ) t.not := by
  refine .of_operand nofun fun above around ps hnone hps => ?_
  obtain ⟨hterm, hchildren⟩ := adaptedBelow_kept (by decide) (fun _ => rfl) hnone
  rw [Term.not, hterm] at hps
  obtain ⟨around', qs, hqs, rfl⟩ := only_pieces (fun _ => rfl) hps
  obtain ⟨tokens, hspell, hreads⟩ := h.whole _ around' qs (hchildren t (.head _)) hqs
  exact ⟨_, hspell.bracket [.not, .opening] (by simp) rfl, hreads.bracket.not⟩

theorem Shown.atom {a : α} (h : terms a t) (hatom : ∀ op, t.node ≠ .boolean op) :
    Shown tr terms (fun σ => σ a) t := by
  refine .of_operand hatom fun above around ps hnone hps =>
    ⟨[.atom a (Piece.written tr.style ps)], ⟨by simp [LogicToken.chars], ?_⟩,
      readsOperand_atom a _⟩
  simpa using ⟨t, h, above, around, ps, hnone, hps, rfl⟩

/-! ## Chains -/

/-- The text that a connective writes between two conditions. -/
def connectiveText (op : BooleanOp) : String :=
  if op = .and then " AND " else " OR "

theorem more_shown {op : BooleanOp} {above : NodeKind} {around : Around}
    (haround : around.above = some (Node.boolean op).kind) {last : Term} {index : Nat}
    {items : List (((α → Bool) → Bool) × Term)}
    (hitems : ∀ i ∈ items, ShownOperand tr terms i.1 i.2)
    (hnone : ∀ i ∈ items, (adaptedBelow tr.dialect above i.2).2 = none) {ps : List Piece}
    (hps : Part.separated (Node.sameText (connectiveText op)) index (some last)
      (items.map fun i => ⟨(adaptedBelow tr.dialect above i.2).1,
        (adaptedBelow tr.dialect above i.2).1.pieces around⟩) = some ps) :
    ∃ more : List (List (LogicToken α) × ((α → Bool) → Bool)),
      LogicToken.Spell tr terms (more.flatMap fun p => .connective op :: p.1) ps ∧
      (∀ p ∈ more, ReadsOperand p.1 p.2) ∧ more.map Prod.snd = items.map Prod.fst := by
  induction items generalizing last index ps with
  | nil =>
    cases hps
    exact ⟨[], LogicToken.spell_nil, by simp, rfl⟩
  | cons item items ih =>
    rw [List.forall_mem_cons] at hitems hnone
    obtain ⟨own, rest, hown, hrest, rfl⟩ := Part.separated_cons.1 hps
    obtain ⟨tokens, hspell, hreads⟩ := hitems.1 above around own ⟨op, haround⟩ hnone.1 hown
    obtain ⟨more, hmore, hoperands, htruths⟩ := ih hitems.2 hnone.2 hrest
    refine ⟨(tokens, item.1) :: more, ?_, List.forall_mem_cons.2 ⟨hreads, hoperands⟩, ?_⟩
    · have hword : LogicToken.text [LogicToken.connective (α := α) op] =
          (connectiveText op).toList := by
        cases op <;> rfl
      exact ((LogicToken.spell_words [.connective op] (by simp) hword).append hspell).append hmore
    · rw [List.map_cons, List.map_cons, htruths]

theorem chain_shown {op : BooleanOp} {above : NodeKind} {around : Around}
    (haround : around.above = some (Node.boolean op).kind)
    {first : ((α → Bool) → Bool) × Term} {more : List (((α → Bool) → Bool) × Term)}
    (hitems : ∀ i ∈ first :: more, ShownOperand tr terms i.1 i.2)
    (hnone : ∀ i ∈ first :: more, (adaptedBelow tr.dialect above i.2).2 = none) {ps : List Piece}
    (hps : Part.separated (Node.sameText (connectiveText op)) 0 none
      ((first :: more).map fun i => ⟨(adaptedBelow tr.dialect above i.2).1,
        (adaptedBelow tr.dialect above i.2).1.pieces around⟩) = some ps) :
    ∃ tokens, LogicToken.Spell tr terms tokens ps ∧
      ReadsWhole tokens fun σ => op.join ((first :: more).map fun i => i.1 σ) := by
  rw [List.forall_mem_cons] at hitems hnone
  obtain ⟨own, rest, hown, hrest, rfl⟩ := Part.separated_cons.1 hps
  obtain ⟨tokens, hspell, hreads⟩ := hitems.1 above around own ⟨op, haround⟩ hnone.1 hown
  obtain ⟨others, hothers, hoperands, htruths⟩ := more_shown haround hitems.2 hnone.2 hrest
  refine ⟨_, hspell.append hothers, ?_⟩
  have htruth (σ : α → Bool) : others.map (fun p => p.2 σ) = more.map fun i => i.1 σ := by
    simpa [Function.comp_def] using congrArg (List.map fun truth => truth σ) htruths
  simpa only [List.map_cons, htruth] using hreads.chain op hoperands

/-- Whether something stands directly below a connective. -/
def connected (around : Around) : Bool :=
  around.above == some .and || around.above == some .or

theorem boolean_pieces {op : BooleanOp} {ts : List Term} {around : Around} {ps : List Piece}
    (h : (of (.boolean op) ts).pieces around = some ps) :
    ∃ around' own, around'.above = some (Node.boolean op).kind ∧
      Part.separated (Node.sameText (connectiveText op)) 0 none
        (ts.map fun t => ⟨t, t.pieces around'⟩) = some own ∧
      ps = Node.bracket (connected around) "(" ++ (own ++ Node.bracket (connected around) ")") := by
  rw [of, pieces_mk] at h
  obtain ⟨inner, hinner, rfl⟩ := Option.map_eq_some_iff.1 h
  obtain ⟨own, hown, rfl⟩ := Option.map_eq_some_iff.1 hinner
  exact ⟨_, own, rfl, hown, by simp [connected]⟩

section

variable {op : BooleanOp} {first : ((α → Bool) → Bool) × Term}
  {more : List (((α → Bool) → Bool) × Term)}

theorem boolean_shown (hitems : ∀ i ∈ first :: more, ShownOperand tr terms i.1 i.2)
    {above : NodeKind} {around : Around} {ps : List Piece}
    (hnone : (adaptedBelow tr.dialect above
      (of (.boolean op) ((first :: more).map Prod.snd))).2 = none)
    (hps : (adaptedBelow tr.dialect above
      (of (.boolean op) ((first :: more).map Prod.snd))).1.pieces around = some ps) :
    ∃ tokens own, LogicToken.Spell tr terms tokens own ∧
      ReadsWhole tokens (fun σ => op.join ((first :: more).map fun i => i.1 σ)) ∧
      ps = Node.bracket (connected around) "(" ++
        (own ++ Node.bracket (connected around) ")") := by
  have hselect : Node.boolean op ≠ .select := by simp
  obtain ⟨hkept, hchildren⟩ := adaptedBelow_kept hselect (fun _ => rfl) hnone
  rw [hkept] at hps
  obtain ⟨around', own, haround', hown, rfl⟩ := boolean_pieces hps
  rw [List.map_map, List.map_map] at hown
  obtain ⟨tokens, hspell, hreads⟩ :=
    chain_shown haround' hitems (fun i hi => hchildren _ (List.mem_map_of_mem hi)) hown
  exact ⟨tokens, own, hspell, hreads, rfl⟩

theorem Shown.chain (hitems : ∀ i ∈ first :: more, ShownOperand tr terms i.1 i.2) :
    Shown tr terms (fun σ => op.join ((first :: more).map fun i => i.1 σ))
      (of (.boolean op) ((first :: more).map Prod.snd)) := by
  have hoperand {above : NodeKind} {around : Around} {ps : List Piece}
      (hconnected : connected around = true)
      (hnone : (adaptedBelow tr.dialect above
        (of (.boolean op) ((first :: more).map Prod.snd))).2 = none)
      (hps : (adaptedBelow tr.dialect above
        (of (.boolean op) ((first :: more).map Prod.snd))).1.pieces around = some ps) :
      ∃ tokens, LogicToken.Spell tr terms tokens ps ∧
        ReadsOperand tokens fun σ => op.join ((first :: more).map fun i => i.1 σ) := by
    obtain ⟨tokens, own, hspell, hreads, rfl⟩ := boolean_shown hitems hnone hps
    rw [hconnected]
    exact ⟨_, hspell.bracket [.opening] (by simp) rfl, hreads.bracket⟩
  refine ⟨fun above around ps hnone hps => ?_, fun op' => ?_⟩
  · cases hconnected : connected around with
    | true =>
      obtain ⟨tokens, hspell, hreads⟩ := hoperand hconnected hnone hps
      exact ⟨tokens, hspell, hreads.whole⟩
    | false =>
      obtain ⟨tokens, own, hspell, hreads, rfl⟩ := boolean_shown hitems hnone hps
      rw [hconnected]
      exact ⟨tokens, by simpa [Node.bracket] using hspell, hreads⟩
  · by_cases hop : op = op'
    · subst hop
      exact ⟨first, more, if_pos rfl, hitems, fun _ => rfl⟩
    · -- Another connective takes the whole chain for one operand.
      refine ⟨(_, of (.boolean op) ((first :: more).map Prod.snd)), [], if_neg hop, ?_,
        fun σ => (op'.join_singleton _).symm⟩
      refine List.forall_mem_singleton.2 fun above around ps hbelow hnone hps => ?_
      obtain ⟨inner, habove⟩ := hbelow
      exact hoperand (by cases inner <;> simp [connected, habove, Node.kind]) hnone hps

end

/-- A connective is a chain of what its operands contribute. -/
theorem Shown.connect (op : BooleanOp) {left right : Term} (hleft : Shown tr terms truth left)
    (hright : Shown tr terms truth' right) :
    Shown tr terms (fun σ => op.holds (truth σ) (truth' σ)) (.connect op left right) := by
  obtain ⟨first, more, hl, hlitems, hltruth⟩ := hleft.operands op
  obtain ⟨first', more', hr, hritems, hrtruth⟩ := hright.operands op
  have hterm : Term.connect op left right =
      of (.boolean op) ((first :: (more ++ first' :: more')).map Prod.snd) := by
    rw [Term.connect, hl, hr, ← List.map_append, List.cons_append]
  have hitems : ∀ i ∈ first :: (more ++ first' :: more'), ShownOperand tr terms i.1 i.2 := by
    rw [← List.cons_append]
    exact List.forall_mem_append.2 ⟨hlitems, hritems⟩
  have htruth : (fun σ => op.holds (truth σ) (truth' σ)) =
      fun σ => op.join ((first :: (more ++ first' :: more')).map fun i => i.1 σ) := by
    funext σ
    rw [hltruth, hrtruth, ← op.join_append, ← List.map_append, List.cons_append]
  -- Operands that are chains of the same connective go into one chain.
  rw [hterm, htruth]
  exact .chain hitems

theorem Means.shown (h : t.Means terms truth) : Shown tr terms truth t := by
  induction h with
  | atom h hatom => exact .atom h hatom
  | connect op _ _ ihl ihr => exact ihl.connect op ihr
  | not _ ih => exact ih.not
  | group _ ih => exact ih.group

/-- A text that says of its atoms what a condition says of its predicates: as a reader takes it, it
is a formula with the truth value of the condition, and its atoms are written as the translator
writes the predicates. -/
def Expresses (tr : Translator) (terms : α → Term → Prop) (truth : (α → Bool) → Bool)
    (text : List Char) : Prop :=
  ∃ tokens formula, LogicToken.text tokens = text ∧
    (∀ a own, .atom a own ∈ tokens → ∃ t, terms a t ∧ t.WrittenAs tr own) ∧
    Formula.read tokens = some formula ∧ ∀ σ, formula.holds σ = truth σ

theorem Means.expressed (h : t.Means terms truth) {text : List Char} (htext : t.WrittenAs tr text) :
    Expresses tr terms truth text := by
  obtain ⟨above, around, ps, hnone, hps, rfl⟩ := htext
  obtain ⟨tokens, hspell, hwhole⟩ := h.shown.whole above around ps hnone hps
  obtain ⟨formula, hread, hholds⟩ := hwhole.read
  exact ⟨tokens, formula, hspell.1, hspell.2, hread, hholds⟩

end

end Term

/-! ## Conditions in queries -/

/-- Where a query has a condition. -/
inductive ConditionPlace where
  | whereClause
  | having
  | join (kind : JoinKind) (table : Term)
  /-- Below any other node. -/
  | inner

namespace ConditionPlace

def term : ConditionPlace → Term → Term
  | .whereClause, condition => .of .whereClause [condition]
  | .having, condition => .of .having [condition]
  | .join kind table, condition => .of (.join kind) [table, condition]
  | .inner, condition => condition

/-- The text in front of the condition. -/
def word : ConditionPlace → String
  | .whereClause => " WHERE "
  | .having => " HAVING "
  | .join .. => " ON "
  | .inner => ""

/-- Every condition may be that of a clause. Elsewhere a `NULL` and a call of `UPPER`, which are no
conditions by themselves, may become part of what is written around them. -/
def Takes : ConditionPlace → Term → Prop
  | .inner, condition => condition.node.Firm
  | _, _ => True

variable {tr : Translator} {place : ConditionPlace} {condition : Term} {text : List Char}

theorem Takes.firm (h : place.Takes condition) : (place.term condition).node.Firm := by
  cases place with
  | whereClause | having | join => exact ⟨nofun, rfl, rfl, nofun⟩
  | inner => exact h

/-- A clause has its word, and then the condition. -/
theorem written_condition (h : (place.term condition).WrittenAs tr text) :
    ∃ front own, text = front ++ (place.word.toList ++ own) ∧ condition.WrittenAs tr own := by
  obtain ⟨above, around, ps, hnone, hps, rfl⟩ := h
  cases place with
  | whereClause | having =>
    obtain ⟨hterm, hchildren⟩ := Term.adaptedBelow_kept (by decide) (fun _ => rfl) hnone
    rw [term, hterm] at hps
    obtain ⟨around', own, hown, rfl⟩ := Term.only_pieces (fun _ => rfl) hps
    exact ⟨[], _, by simp [Piece.chars, word], _, around', own, hchildren _ (.head _), hown, rfl⟩
  | join kind table =>
    have hselect : Node.join kind ≠ .select := by simp
    obtain ⟨hterm, hchildren⟩ := Term.adaptedBelow_kept hselect (fun _ => rfl) hnone
    rw [term, hterm, Term.of, Term.pieces_mk] at hps
    obtain ⟨ps', hps', rfl⟩ := Option.map_eq_some_iff.1 hps
    obtain ⟨source, -, hps'⟩ := Option.bind_eq_some_iff.1 hps'
    obtain ⟨own, hown, hps'⟩ := Option.bind_eq_some_iff.1 hps'
    cases hps'
    refine ⟨Piece.written tr.style (.raw (Tree.joinKeyword kind) :: source), _, ?_,
      _, _, own, hchildren _ (.tail _ (.head _)), hown, rfl⟩
    simp [Piece.chars, word]
  | inner => exact ⟨[], _, by simp [word], above, around, ps, hnone, hps, rfl⟩

end ConditionPlace

/-- In some SQL, there is a text for the condition at a place, which says what the condition says. -/
def Term.Conveyed {α : Type} (tr : Translator) (terms : α → Term → Prop)
    (truth : (α → Bool) → Bool) (condition : Term) (place : ConditionPlace) (sql : String) : Prop :=
  ∃ earlier text later, sql.toList = earlier ++ (place.word.toList ++ (text ++ later)) ∧
    condition.WrittenAs tr text ∧ Expresses tr terms truth text

/-- A condition that says the same in the translation of every query that has it anywhere. -/
def Term.Rendered {α : Type} (tr : Translator) (terms : α → Term → Prop)
    (truth : (α → Bool) → Bool) (condition : Term) : Prop :=
  ∀ (t : Tree) (layers : List Layer) (place : ConditionPlace) (rendered : RenderedSql),
    t.WellFormed → t.term t.root = .ok (within layers (place.term condition)) → Written layers →
    place.Takes condition → (∃ t', Yields tr.translateTree t (.ok rendered) t') →
    condition.Conveyed tr terms truth place rendered.sql

theorem Term.Means.rendered {α : Type} {tr : Translator} {terms : α → Term → Prop}
    {truth : (α → Bool) → Bool} {condition : Term} (h : condition.Means terms truth) :
    condition.Rendered tr terms truth := by
  intro t layers place rendered ht hquery hlayers htakes htr
  have hsql := (Translator.translateTree_iff tr ht hquery).1 htr
  obtain ⟨earlier, text, later, hrendered, htext⟩ := translated_written hlayers htakes.firm hsql
  obtain ⟨front, own, rfl, hown⟩ := ConditionPlace.written_condition htext
  exact ⟨earlier ++ front, own, later, by simp [hrendered], hown, h.expressed hown⟩

/-! ## Selects -/

namespace Selection

theorem toTerm_within (s : Selection) {t : Term} (h : t ∈ s.toTerm.children) :
    ∃ l : Term.Layer, l.Shown ∧ s.toTerm = Term.within [l] t := by
  obtain ⟨before, after, hchildren⟩ := List.append_of_mem h
  refine ⟨⟨.select, none, before, after⟩, rfl, ?_⟩
  rw [Term.within_cons, Term.within_nil, Term.Layer.fill, ← hchildren]
  rfl

variable {α : Type} {terms : α → Term → Prop} {truth : (α → Bool) → Bool}

/-- Conditions that are added to one restrict it. -/
theorem conjoined_means {existing : Term} (h : existing.Means terms truth)
    {conditions : List (((α → Bool) → Bool) × Term)}
    (hconditions : ∀ c ∈ conditions, c.2.Means terms c.1) :
    ∃ all, (conditions.map Prod.snd).foldl (fun existing c => some (conjoin existing c))
        (some existing) = some all ∧
      all.Means terms fun σ => truth σ && conditions.all fun c => c.1 σ := by
  induction conditions generalizing existing truth with
  | nil => exact ⟨existing, rfl, by simpa using h⟩
  | cons c conditions ih =>
    obtain ⟨hc, hconditions⟩ := List.forall_mem_cons.1 hconditions
    obtain ⟨all, hall, hmeans⟩ := ih (.connect .and h hc) hconditions
    exact ⟨all, hall, by simpa [BooleanOp.holds, Bool.and_assoc] using hmeans⟩

/-- Conditions that are added one after another, where there has been none, are one that holds where
they all do. -/
theorem chained_means (condition? : Selection → Option Term) (add : Selection → Term → Selection)
    (hadd : ∀ s c, condition? (add s c) = some (conjoin (condition? s) c)) {s : Selection}
    (hnone : condition? s = none) {conditions : List (((α → Bool) → Bool) × Term)}
    (hsome : conditions ≠ []) (hconditions : ∀ c ∈ conditions, c.2.Means terms c.1) :
    ∃ all, condition? ((conditions.map Prod.snd).foldl add s) = some all ∧
      all.Means terms fun σ => conditions.all fun c => c.1 σ := by
  have hfoldl (added : List Term) (s : Selection) : condition? (added.foldl add s) =
      added.foldl (fun existing c => some (conjoin existing c)) (condition? s) := by
    induction added generalizing s with
    | nil => rfl
    | cons c added ih => rw [List.foldl_cons, ih, hadd, List.foldl_cons]
  rw [hfoldl, hnone]
  cases conditions with
  | nil => exact absurd rfl hsome
  | cons c conditions =>
    obtain ⟨hc, hconditions⟩ := List.forall_mem_cons.1 hconditions
    exact conjoined_means hc hconditions

end Selection

end PolyglotSql
