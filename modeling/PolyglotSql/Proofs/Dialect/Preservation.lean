import PolyglotSql.Proofs.Dialect.Enclosing
import PolyglotSql.Proofs.Dialect.Tables

/-!
# PolyglotSql.Proofs.Dialect.Preservation

What adapting a query keeps. The dialects bring only certain nodes into a query (`Brought`), so what
holds of these and of every node of a term holds of every node of the rewritten term
(`rewrite_every`). The same goes for the nodes around an enclosed select (`Wrapping`).
-/

namespace PolyglotSql
namespace Term

/-- A node that a rule may put into a query. -/
inductive Brought : Node → Prop
  | page (clause : PageClause) (limit offset : UInt64) : Brought (.page clause limit offset)
  | trimmedColumn (ref : ColumnRef) (strip : TrimKind) : Brought (.trimmedColumn ref strip)
  | castValue (value : Value) (column : Option Attribute) (length : Nat) :
    Brought (.castValue value column "VARCHAR" length)
  | like (operator : LikeOperator) (ignoreCase negated : Bool) (escape : Option Char) :
    Brought (.like operator ignoreCase negated escape)
  | call {name : String} (h : Placeholder.isInert name = true) (parentheses : Bool) :
    Brought (.dialectCall name parentheses)
  | keywordCall {name : String} {keywords : List String}
    (h : ∀ w ∈ name :: keywords, Placeholder.isInert w = true) :
    Brought (.keywordCall name keywords)
  | operation {operator : String} (h : Placeholder.isInert operator = true) :
    Brought (.operation operator)
  | word {s : String} (h : Placeholder.isInert s = true) : Brought (.text s)
  | literal {s : String} (h : Placeholder.isInert s = true) : Brought (.text ("'" ++ s ++ "'"))

/-- Rewritten terms, one for each. -/
theorem rewriteAll_cases {d : Dialect} {above : NodeKind} {motive : List Term → List Term → Prop}
    (ts : List Term) (nil : motive [] [])
    (refused : ∀ t t' ts, (rewrite d above t).1 = t' → motive (t :: ts) (t' :: ts))
    (cons : ∀ t t' ts ts', (rewrite d above t).1 = t' → motive ts ts' →
      motive (t :: ts) (t' :: ts')) :
    motive ts (rewriteAll d above ts).1 := by
  induction ts with
  | nil => simpa using nil
  | cons t ts ih =>
    cases h : rewrite d above t with
    | mk t' r =>
      cases r with
      | none =>
        rw [rewriteAll_cons ts h]
        exact cons t t' ts _ (by rw [h]) ih
      | some refusal =>
        rw [rewriteAll_refused ts h]
        exact refused t t' ts (by rw [h])

/-- Rewritten terms without a refusal. -/
theorem rewriteAll_none {d : Dialect} {above : NodeKind} {ts : List Term}
    (h : (rewriteAll d above ts).2 = none) :
    (rewriteAll d above ts).1 = ts.map (fun t => (rewrite d above t).1) ∧
      ∀ t ∈ ts, (rewrite d above t).2 = none := by
  induction ts with
  | nil => simp
  | cons t ts ih =>
    cases hr : rewrite d above t with
    | mk t' r =>
      cases r with
      | some refusal =>
        rw [rewriteAll_refused ts hr] at h
        cases h
      | none =>
        rw [rewriteAll_cons ts hr] at h ⊢
        obtain ⟨hmap, hall⟩ := ih h
        simpa [hmap, hr] using hall

/-- What holds of terms, rewritten or not, holds of them as far as they are rewritten. -/
theorem rewriteAll_forall {d : Dialect} {above : NodeKind} {p : Term → Prop} {ts : List Term}
    (hkeep : ∀ t ∈ ts, p t) (hnew : ∀ t ∈ ts, p (rewrite d above t).1) :
    ∀ t ∈ (rewriteAll d above ts).1, p t := by
  refine rewriteAll_cases (motive := fun ts ts' => (∀ t ∈ ts, p t) →
    (∀ t ∈ ts, p (rewrite d above t).1) → ∀ t ∈ ts', p t) ts (by simp) ?_ ?_ hkeep hnew
  · rintro t t' ts rfl hkeep hnew
    rw [List.forall_mem_cons] at hkeep hnew ⊢
    exact ⟨hnew.1, hkeep.2⟩
  · rintro t t' ts ts' rfl ih hkeep hnew
    rw [List.forall_mem_cons] at hkeep hnew ⊢
    exact ⟨hnew.1, ih hkeep.2 hnew.2⟩

@[simp] theorem length_rewriteAll (d : Dialect) (above : NodeKind) (ts : List Term) :
    (rewriteAll d above ts).1.length = ts.length := by
  refine rewriteAll_cases (motive := fun ts ts' => ts'.length = ts.length) ts rfl ?_ ?_
  · intro t t' ts _
    rfl
  · intro t t' ts ts' _ ih
    rw [List.length_cons, ih, List.length_cons]

theorem every_swapFirst {P : Node → List Term → Prop} {ts : List Term} (h : ∀ t ∈ ts, Every P t) :
    ∀ t ∈ swapFirst ts, Every P t := by
  unfold swapFirst
  split
  · intro t ht
    refine h t ?_
    simp only [List.mem_cons] at ht ⊢
    rcases ht with ht | ht | ht
    · exact .inr (.inl ht)
    · exact .inl ht
    · exact .inr (.inr ht)
  · exact h

theorem every_withoutUpper {P : Node → List Term → Prop} {t : Term} (h : Every P t) :
    Every P t.withoutUpper := by
  obtain ⟨node, alias_, children⟩ := t
  unfold withoutUpper
  split
  · rename_i inner hc
    split
    · simp only [Term.children] at hc
      exact (every_mk.1 h).2 inner (by simp [hc])
    · exact h
  · exact h

/-- What holds of every node of a call's arguments, and of brought nodes, holds of every node of
what takes the call's place. -/
theorem replaceCall_every {P : Node → List Term → Prop}
    (hbrought : ∀ node children, Brought node → node.kind ≠ .like → P node children) {call : Node}
    {alias_ : Option String} {args : List Term} {rule : FunctionRule} {t : Term}
    (hwords : ∀ w ∈ rule.words, Placeholder.isInert w = true) (hcall : P call args)
    (hargs : ∀ t ∈ args, Every P t) (h : replaceCall call alias_ args rule = some t) :
    Every P t := by
  have hnode {node : Node} {alias_ : Option String} {children : List Term} (hn : Brought node)
      (hc : ∀ t ∈ children, Every P t) (hk : node.kind ≠ .like := by intro hk; cases hk) :
      Every P (.mk node alias_ children) :=
    every_mk.2 ⟨hbrought _ _ hn hk, hc⟩
  have htext {s : String} (hs : Brought (.text s)) : Every P (text s) :=
    hnode hs (by simp)
  cases rule <;> simp only [replaceCall, Option.some.injEq, reduceCtorEq] at h <;> subst h
  case keep => exact every_mk.2 ⟨hcall, hargs⟩
  case rename name parentheses =>
    exact hnode (.call (hwords name (by simp [FunctionRule.words])) _) hargs
  case renameSwapped name =>
    exact hnode (.call (hwords name (by simp [FunctionRule.words])) _) (every_swapFirst hargs)
  case operator symbol =>
    exact hnode (.operation (hwords symbol (by simp [FunctionRule.words]))) hargs
  case keywords => exact hnode (.keywordCall hwords) hargs
  case keywordsSwapped => exact hnode (.keywordCall hwords) (every_swapFirst hargs)
  case extract part =>
    have hpart := htext (.word (hwords part (by simp [FunctionRule.words])))
    exact hnode (.keywordCall (by decide)) (by simpa using ⟨hpart, hargs⟩)
  case nested outer inner =>
    refine hnode (.call (hwords outer (by simp [FunctionRule.words])) _) ?_
    simp only [List.mem_singleton, forall_eq]
    exact hnode (.call (hwords inner (by simp [FunctionRule.words])) _) hargs
  case nestedFormat outer inner format =>
    refine hnode (.call (hwords outer (by simp [FunctionRule.words])) _) ?_
    simp only [List.mem_singleton, forall_eq]
    refine hnode (.call (hwords inner (by simp [FunctionRule.words])) _) fun t ht => ?_
    rcases List.mem_append.1 ht with ht | ht
    · exact hargs t ht
    · rw [List.mem_singleton.1 ht]
      exact htext (.literal (hwords format (by simp [FunctionRule.words])))
  case formattedCast format =>
    have hformat := htext (.literal (hwords format (by simp [FunctionRule.words])))
    have hcall :
        Every P (of (.dialectCall "strftime" true) (text ("'" ++ format ++ "'") :: args)) :=
      hnode (.call (by decide) _) (by simpa using ⟨hformat, hargs⟩)
    exact hnode (.keywordCall (by decide)) (by simpa using ⟨hcall, htext (.word (by decide))⟩)

section Rewritten

variable {P : Node → List Term → Prop} {d : Dialect}

/-- The same of a rewritten top, if a pattern match may have another operator and other operands, as
many as before. -/
theorem rewriteTop_every_of
    (hbrought : ∀ node children, Brought node → node.kind ≠ .like → P node children)
    (hlike : ∀ {operator ignoreCase negated escape operands}
      (operator' : LikeOperator) (operands' : List Term), operands'.length = operands.length →
      P (.like operator ignoreCase negated escape) operands →
      P (.like operator' ignoreCase negated escape) operands')
    {above : NodeKind} {t t' : Term} (ht : Every P t) (h : rewriteTop d above t = .ok t') :
    Every P t' := by
  cases rewriteTop_ok h with
  | kept => exact ht
  | column ref strip =>
    exact every_mk.2 ⟨hbrought _ _ (.trimmedColumn ref strip) nofun, (every_mk.1 ht).2⟩
  | value value column length =>
    exact every_mk.2 ⟨hbrought _ _ (.castValue value column length) nofun, (every_mk.1 ht).2⟩
  | limit clause limit offset =>
    exact every_mk.2 ⟨hbrought _ _ (.page clause limit offset) nofun, (every_mk.1 ht).2⟩
  | call harity hcall =>
    exact replaceCall_every hbrought (fun w hw => Dialect.functionRule_inert hw)
      (every_mk.1 ht).1 (every_mk.1 ht).2 hcall
  | like operator =>
    obtain ⟨htop, hoperands⟩ := every_mk.1 ht
    exact every_mk.2 ⟨hlike operator _ rfl htop, hoperands⟩
  | likeBare operator =>
    obtain ⟨htop, hoperands⟩ := every_mk.1 ht
    refine every_mk.2 ⟨hlike operator _ (by simp) htop, fun t hmem => ?_⟩
    obtain ⟨c, hc, rfl⟩ := List.mem_map.1 hmem
    exact every_withoutUpper (hoperands c hc)

theorem rewriteTop_every (hbrought : ∀ node children, Brought node → P node children)
    {above : NodeKind} {t t' : Term} (ht : Every P t) (h : rewriteTop d above t = .ok t') :
    Every P t' :=
  rewriteTop_every_of (fun node children hn _ => hbrought node children hn)
    (fun _ _ _ _ => hbrought _ _ (.like _ _ _ _)) ht h

/-- A rewritten term keeps what rewritten tops keep, if rewriting what is below a node keeps what
holds of the node. -/
theorem rewrite_every_of
    (htop : ∀ {above : NodeKind} {t t' : Term}, Every P t → rewriteTop d above t = .ok t' →
      Every P t')
    (hbelow : ∀ node children, P node children → P node (rewriteAll d node.kind children).1)
    (above : NodeKind) {t : Term} (ht : Every P t) : Every P (rewrite d above t).1 := by
  induction above, t using rewrite_induct (d := d) with
  | refused above t refusal h =>
    rw [rewrite_error h]
    exact ht
  | rewritten above t node alias_ children h ih =>
    obtain ⟨hnode, hchildren⟩ := every_mk.1 (htop ht h)
    rw [rewrite_ok h]
    refine every_mk.2 ⟨hbelow node children hnode, ?_⟩
    exact rewriteAll_forall hchildren fun c hc => ih c hc (hchildren c hc)

theorem rewrite_every (hbrought : ∀ node children, Brought node → P node children)
    (hbelow : ∀ node children, P node children → P node (rewriteAll d node.kind children).1)
    (above : NodeKind) {t : Term} (ht : Every P t) : Every P (rewrite d above t).1 :=
  rewrite_every_of (rewriteTop_every hbrought) hbelow above ht

end Rewritten

/-! ## Enclosed selects -/

/-- A node that stands around an enclosed select, or in the place of what limited it. -/
inductive Wrapping : Node → Prop
  | select : Wrapping .select
  | empty : Wrapping .empty
  | head (offset : UInt64) : Wrapping (.text (RowNumbers.head offset))
  | tail (limit offset : UInt64) : Wrapping (.text (RowNumbers.tail limit offset))

/-- Every node of a term, whatever is below it, is as `Q` says. -/
abbrev EveryNode (Q : Node → Prop) : Term → Prop :=
  Every fun node _ => Q node

/-- What holds of every node, and of the nodes around an enclosed select, holds of every node of an
enclosed term, if enclosing what is below a node keeps what holds of the node. -/
theorem enclosed_every_of {P : Node → List Term → Prop}
    (hwrapping : ∀ node children, Wrapping node → P node children)
    (hbelow : ∀ node children, P node children → P node (children.map enclosed)) {t : Term}
    (h : Every P t) : Every P t.enclosed := by
  refine enclosed_induct (motive := fun t t' => Every P t → Every P t') ?_ ?_ t h
  · intro node alias_ children _ ih h
    obtain ⟨htop, hchildren⟩ := every_mk.1 h
    refine every_mk.2 ⟨hbelow node children htop, fun t ht => ?_⟩
    obtain ⟨c, hc, rfl⟩ := List.mem_map.1 ht
    exact ih c hc (hchildren c hc)
  · intro alias_ before c after limit offset _ ih h
    have hchildren := (every_mk.1 h).2
    have hleaf {node : Node} (hw : Wrapping node) : Every P (leaf node) :=
      every_mk.2 ⟨hwrapping node [] hw, by simp⟩
    have hinner :
        Every P (of .select (before.map enclosed ++ leaf .empty :: after.map enclosed)) := by
      refine every_mk.2 ⟨hwrapping _ _ .select, fun t ht => ?_⟩
      simp only [List.mem_append, List.mem_cons, List.mem_map] at ht
      rcases ht with ⟨b, hb, rfl⟩ | rfl | ⟨b, hb, rfl⟩
      · exact ih b (by simp [hb]) (hchildren b (by simp [hb]))
      · exact hleaf .empty
      · exact ih b (by simp [hb]) (hchildren b (by simp [hb]))
    refine every_mk.2 ⟨hwrapping _ _ .select, ?_⟩
    simp only [List.mem_cons, List.not_mem_nil, or_false]
    rintro t (rfl | rfl | rfl)
    · exact hleaf (.head offset)
    · exact hinner
    · exact hleaf (.tail limit offset)

theorem enclosed_every {Q : Node → Prop} (hwrapping : ∀ node, Wrapping node → Q node) {t : Term}
    (h : t.EveryNode Q) : t.enclosed.EveryNode Q :=
  enclosed_every_of (fun node _ hw => hwrapping node hw) (fun _ _ hn => hn) h

/-- What holds of every node of a query, and of the nodes that dialects bring in, holds of every
node of the adapted query. -/
theorem adapted_every {Q : Node → Prop} (hbrought : ∀ node, Brought node → Q node)
    (hwrapping : ∀ node, Wrapping node → Q node) (d : Dialect) {t : Term} (h : t.EveryNode Q) :
    (t.adapted d).1.EveryNode Q := by
  unfold adapted
  refine rewrite_every (fun node _ hn => hbrought node hn) (fun _ _ hn => hn) .empty ?_
  split
  · exact enclosed_every hwrapping h
  · exact h

end Term
end PolyglotSql
