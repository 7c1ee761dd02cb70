import PolyglotSql.Dialect.Adapt
import PolyglotSql.Term.Build

/-!
# PolyglotSql.Proofs.Dialect.Rewriting

Adapting a query to a dialect, as a function on terms. It has two parts:

* `enclosed`: every select that limits its rows is put inside selects that filter on row numbers,
  for the dialect that needs it.
* `rewrite`: `rewriteTop` puts something else in the place of the top, by its kind, its name and
  the kind of its parent, or refuses it; then come the terms below whatever stands there now, from
  left to right. The first refusal ends the rewriting, and what was rewritten before stays so.
  `TopRewrite` says once what can stand for a top.

`adapted` is one after the other. A rewritten call may stand deeper than the call did, so `rewrite`
recurs on a weight (`weight`) that every replacement takes something off.
-/

namespace PolyglotSql
namespace Dialect

/-- What stands for a column below a node of some kind. -/
def columnNode (d : Dialect) (above : NodeKind) (ref : ColumnRef) : Node :=
  match d.trimKind? with
  | some strip =>
    if Place.trimsBelow above ∧ (ref.column.map (·.sqlType.isFixedChar)).getD false then
      .trimmedColumn ref strip
    else .column ref
  | none => .column ref

def valueNode (d : Dialect) (value : Value) (column : Option Attribute) : Node :=
  match d.clobLength?, column with
  | some length, some known =>
    if known.sqlType.isClob && value.isScalar then
      .castValue value (some known) "VARCHAR" (known.maxLength.getD length)
    else .value value (some known)
  | _, _ => .value value column

/-- What stands for the canonical row limiting clause. -/
def limitNode (d : Dialect) (limit offset : UInt64) : Node :=
  match d.pageClause? with
  | some clause => .page clause limit offset
  | none => .limitOffset limit offset

end Dialect

namespace Node

/-- Whether a node is a canonical row limiting clause. -/
def isLimitOffset : Node → Bool
  | .limitOffset _ _ => true
  | _ => false

end Node

namespace Term

def kind (t : Term) : NodeKind :=
  t.node.kind

/-- The number of arguments among some terms; the marker of distinct values is none. -/
def argumentCount (args : List Term) : Nat :=
  (args.filter fun a => a.kind != .distinct).length

def swapFirst : List Term → List Term
  | a :: b :: rest => b :: a :: rest
  | args => args

/-- What is inside of an `UPPER` call of one argument. -/
def withoutUpper (t : Term) : Term :=
  match t.children with
  | [inner] => if t.node.canonicalFunction? = some "UPPER" then inner else t
  | _ => t

/-- What a rule puts in the place of a call, unless it refuses it. -/
def replaceCall (call : Node) (alias_ : Option String) (args : List Term) :
    FunctionRule → Option Term
  | .keep => some (.mk call alias_ args)
  | .rename name parentheses => some (.mk (.dialectCall name parentheses) alias_ args)
  | .renameSwapped name => some (.mk (.dialectCall name true) alias_ (swapFirst args))
  | .operator operator => some (.mk (.operation operator) alias_ args)
  | .keywords name keywords => some (.mk (.keywordCall name keywords) alias_ args)
  | .keywordsSwapped name keywords =>
    some (.mk (.keywordCall name keywords) alias_ (swapFirst args))
  | .extract part => some (.mk (.keywordCall "EXTRACT" ["FROM"]) alias_ (text part :: args))
  | .nested outer inner =>
    some (.mk (.dialectCall outer true) alias_ [of (.dialectCall inner true) args])
  | .nestedFormat outer inner format =>
    some (.mk (.dialectCall outer true) alias_
      [of (.dialectCall inner true) (args ++ [text ("'" ++ format ++ "'")])])
  | .formattedCast format =>
    some (.mk (.keywordCall "cast" ["as"]) alias_
      [of (.dialectCall "strftime" true) (text ("'" ++ format ++ "'") :: args), text "integer"])
  | .refuse => none

/-- What the dialect puts in the place of a canonical call. -/
def rewriteCall (d : Dialect) (name : String) (parentheses : Bool) (alias_ : Option String)
    (args : List Term) : Except Refusal Term :=
  match FunctionCatalogue.checkArity name (argumentCount args) with
  | .error refusal => .error refusal
  | .ok () =>
    match replaceCall (.function name parentheses .canonical) alias_ args (d.functionRule name) with
    | some t => .ok t
    | none => .error (.function name d)

/-- What the dialect puts in the place of a canonical pattern match. -/
def rewriteLike (d : Dialect) (ignoreCase negated : Bool) (escape : Option Char)
    (alias_ : Option String) (operands : List Term) : Term :=
  match d.likeOperators? with
  | none => .mk (.like .like ignoreCase negated escape) alias_ operands
  | some (sensitive, insensitive) =>
    if ignoreCase then
      .mk (.like insensitive ignoreCase negated escape) alias_ (operands.map withoutUpper)
    else .mk (.like sensitive ignoreCase negated escape) alias_ operands

/-- What the dialect puts in the place of the top of a term, below a node of the kind `above`. -/
def rewriteTop (d : Dialect) (above : NodeKind) : Term → Except Refusal Term
  | .mk (.column ref) alias_ children => .ok (.mk (d.columnNode above ref) alias_ children)
  | .mk (.value value column) alias_ children =>
    .ok (.mk (d.valueNode value column) alias_ children)
  | .mk (.limitOffset limit offset) alias_ children =>
    .ok (.mk (d.limitNode limit offset) alias_ children)
  | .mk (.function name parentheses .canonical) alias_ children =>
    rewriteCall d name parentheses alias_ children
  | .mk (.like .like ignoreCase negated escape) alias_ children =>
    .ok (rewriteLike d ignoreCase negated escape alias_ children)
  | t => .ok t

/-! ## What becomes of the top -/

theorem columnNode_cases (d : Dialect) (above : NodeKind) (ref : ColumnRef) :
    d.columnNode above ref = .column ref ∨
      ∃ strip, d.columnNode above ref = .trimmedColumn ref strip := by
  unfold Dialect.columnNode
  split
  · split
    · exact .inr ⟨_, rfl⟩
    · exact .inl rfl
  · exact .inl rfl

theorem valueNode_cases (d : Dialect) (value : Value) (column : Option Attribute) :
    d.valueNode value column = .value value column ∨
      ∃ length, d.valueNode value column = .castValue value column "VARCHAR" length := by
  unfold Dialect.valueNode
  split
  · split
    · exact .inr ⟨_, rfl⟩
    · exact .inl rfl
  · exact .inl rfl

theorem limitNode_cases (d : Dialect) (limit offset : UInt64) :
    d.limitNode limit offset = .limitOffset limit offset ∨
      ∃ clause, d.limitNode limit offset = .page clause limit offset := by
  unfold Dialect.limitNode
  split
  · exact .inr ⟨_, rfl⟩
  · exact .inl rfl

/-- What can stand for a term whose top is not refused. -/
inductive TopRewrite (d : Dialect) : Term → Term → Prop
  | kept (t : Term) : TopRewrite d t t
  | column (ref : ColumnRef) (strip : TrimKind) (alias_ : Option String) (children : List Term) :
    TopRewrite d (.mk (.column ref) alias_ children)
      (.mk (.trimmedColumn ref strip) alias_ children)
  | value (value : Value) (column : Option Attribute) (length : Nat) (alias_ : Option String)
    (children : List Term) :
    TopRewrite d (.mk (.value value column) alias_ children)
      (.mk (.castValue value column "VARCHAR" length) alias_ children)
  | limit (clause : PageClause) (limit offset : UInt64) (alias_ : Option String)
    (children : List Term) :
    TopRewrite d (.mk (.limitOffset limit offset) alias_ children)
      (.mk (.page clause limit offset) alias_ children)
  | call {name : String} {parentheses : Bool} {alias_ : Option String} {args : List Term} {t : Term}
    (harity : FunctionCatalogue.checkArity name (argumentCount args) = .ok ())
    (h : replaceCall (.function name parentheses .canonical) alias_ args (d.functionRule name) =
      some t) :
    TopRewrite d (.mk (.function name parentheses .canonical) alias_ args) t
  | like (operator : LikeOperator) (ignoreCase negated : Bool) (escape : Option Char)
    (alias_ : Option String) (operands : List Term) :
    TopRewrite d (.mk (.like .like ignoreCase negated escape) alias_ operands)
      (.mk (.like operator ignoreCase negated escape) alias_ operands)
  | likeBare (operator : LikeOperator) (ignoreCase negated : Bool) (escape : Option Char)
    (alias_ : Option String) (operands : List Term) :
    TopRewrite d (.mk (.like .like ignoreCase negated escape) alias_ operands)
      (.mk (.like operator ignoreCase negated escape) alias_ (operands.map withoutUpper))

theorem rewriteTop_ok {d : Dialect} {above : NodeKind} {t t' : Term}
    (h : rewriteTop d above t = .ok t') : TopRewrite d t t' := by
  unfold rewriteTop at h
  split at h
  · rename_i ref _ _
    cases h
    rcases columnNode_cases d above ref with hn | ⟨strip, hn⟩ <;> rw [hn]
    · exact .kept _
    · exact .column ref strip _ _
  · rename_i value column _ _
    cases h
    rcases valueNode_cases d value column with hn | ⟨length, hn⟩ <;> rw [hn]
    · exact .kept _
    · exact .value value column length _ _
  · rename_i limit offset _ _
    cases h
    rcases limitNode_cases d limit offset with hn | ⟨clause, hn⟩ <;> rw [hn]
    · exact .kept _
    · exact .limit clause limit offset _ _
  · unfold rewriteCall at h
    split at h
    · cases h
    · rename_i harity
      split at h
      · rename_i hcall
        cases h
        exact .call harity hcall
      · cases h
  · cases h
    unfold rewriteLike
    split
    · exact .kept _
    · split
      · exact .likeBare _ _ _ _ _ _
      · exact .like _ _ _ _ _ _
  · cases h
    exact .kept _

/-! ## Every node of a term -/

mutual

/-- Every node of a term, with the terms directly below it, is as `P` says. -/
def Every (P : Node → List Term → Prop) : Term → Prop
  | .mk node _ children => P node children ∧ EveryAll P children

def EveryAll (P : Node → List Term → Prop) : List Term → Prop
  | [] => True
  | t :: ts => Every P t ∧ EveryAll P ts

end

theorem everyAll_iff {P : Node → List Term → Prop} {ts : List Term} :
    EveryAll P ts ↔ ∀ t ∈ ts, Every P t := by
  induction ts with
  | nil => simp [EveryAll]
  | cons t ts ih => simp [EveryAll, ih]

theorem every_mk {P : Node → List Term → Prop} {node : Node} {alias_ : Option String}
    {children : List Term} :
    Every P (.mk node alias_ children) ↔ P node children ∧ ∀ t ∈ children, Every P t := by
  rw [Every, everyAll_iff]

theorem every_imp {P Q : Node → List Term → Prop}
    (h : ∀ node children, P node children → Q node children) {t : Term} (ht : Every P t) :
    Every Q t := by
  induction t using Term.induct with
  | mk node alias_ children ih =>
    obtain ⟨htop, hbelow⟩ := every_mk.1 ht
    exact every_mk.2 ⟨h node children htop, fun t ht => ih t ht (hbelow t ht)⟩

/-! ## Weights -/

/-- A canonical call weighs as much as the largest thing that can be put in its place. -/
def nodeWeight : Node → Nat
  | .function _ _ .canonical => 4
  | _ => 1

mutual

def weight : Term → Nat
  | .mk node _ children => nodeWeight node + weightAll children

def weightAll : List Term → Nat
  | [] => 0
  | t :: ts => weight t + weightAll ts

end

@[simp] theorem weight_mk (node : Node) (alias_ : Option String) (children : List Term) :
    weight (.mk node alias_ children) = nodeWeight node + weightAll children := by
  rw [weight]

@[simp] theorem weightAll_nil : weightAll [] = 0 := by
  rw [weightAll]

@[simp] theorem weightAll_cons (t : Term) (ts : List Term) :
    weightAll (t :: ts) = weight t + weightAll ts := by
  rw [weightAll]

@[simp] theorem weightAll_append (ts ts' : List Term) :
    weightAll (ts ++ ts') = weightAll ts + weightAll ts' := by
  induction ts with
  | nil => simp
  | cons t ts ih => simp [ih, Nat.add_assoc]

theorem nodeWeight_pos (node : Node) : 0 < nodeWeight node := by
  unfold nodeWeight
  split <;> omega

theorem nodeWeight_le (node : Node) : nodeWeight node ≤ 4 := by
  unfold nodeWeight
  split <;> omega

theorem weight_pos (t : Term) : 0 < weight t := by
  cases t with
  | mk node alias_ children =>
    have := nodeWeight_pos node
    simp
    omega

theorem weight_le_weightAll {t : Term} {ts : List Term} (h : t ∈ ts) :
    weight t ≤ weightAll ts := by
  obtain ⟨before, after, rfl⟩ := List.append_of_mem h
  simp
  omega

theorem length_le_weightAll (ts : List Term) : ts.length ≤ weightAll ts := by
  induction ts with
  | nil => simp
  | cons t ts ih =>
    have := weight_pos t
    simp only [List.length_cons, weightAll_cons]
    omega

@[simp] theorem weightAll_swapFirst (args : List Term) :
    weightAll (swapFirst args) = weightAll args := by
  unfold swapFirst
  split
  · simp; omega
  · rfl

theorem weight_withoutUpper (t : Term) : weight (withoutUpper t) ≤ weight t := by
  cases t with
  | mk node alias_ children =>
    unfold withoutUpper
    split
    · rename_i inner h
      simp only [Term.children] at h
      split
      · simp [h]
      · exact Nat.le_refl _
    · exact Nat.le_refl _

theorem weightAll_withoutUpper (ts : List Term) :
    weightAll (ts.map withoutUpper) ≤ weightAll ts := by
  induction ts with
  | nil => simp
  | cons t ts ih =>
    have := weight_withoutUpper t
    simp only [List.map_cons, weightAll_cons]
    omega

/-- What is below a replaced call weighs less than the call. -/
theorem replaceCall_weight {name : String} {parentheses : Bool} {alias_ : Option String}
    {args : List Term} {rule : FunctionRule} {t : Term}
    (h : replaceCall (.function name parentheses .canonical) alias_ args rule = some t) :
    weightAll t.children < 4 + weightAll args := by
  cases rule <;> simp only [replaceCall, Option.some.injEq, reduceCtorEq] at h <;> subst h <;>
    simp [Term.children, text, leaf, of, nodeWeight, Node.dialectCall] <;> omega

/-- What is below a rewritten top weighs less than the term. -/
theorem rewriteTop_weight {d : Dialect} {above : NodeKind} {t t' : Term}
    (h : rewriteTop d above t = .ok t') : weightAll t'.children < weight t := by
  have hsame : ∀ (node : Node) (alias_ : Option String) (children : List Term),
      weightAll children < weight (.mk node alias_ children) := by
    intro node alias_ children
    have := nodeWeight_pos node
    simp
    omega
  cases rewriteTop_ok h with
  | kept =>
    cases t
    exact hsame _ none _
  | call harity hcall => simpa [nodeWeight] using replaceCall_weight hcall
  | likeBare _ _ _ _ _ operands =>
    exact Nat.lt_of_le_of_lt (weightAll_withoutUpper operands) (hsame _ none _)
  | column | value | limit | like => exact hsame _ none _

/-! ## Rewriting -/

mutual

/-- The term as the dialect has it below a node of the kind `above`, and the first refusal. -/
def rewrite (d : Dialect) (above : NodeKind) (t : Term) : Term × Option Refusal :=
  match _h : rewriteTop d above t with
  | .error refusal => (t, some refusal)
  | .ok (.mk node alias_ children) =>
    let below := rewriteAll d node.kind children
    (.mk node alias_ below.1, below.2)
termination_by (weight t, 0)
decreasing_by
  exact Prod.Lex.left _ _ (rewriteTop_weight _h)

/-- Terms below a node of the kind `above`, from left to right up to the first refusal. -/
def rewriteAll (d : Dialect) (above : NodeKind) (ts : List Term) : List Term × Option Refusal :=
  match ts with
  | [] => ([], none)
  | t :: ts =>
    match rewrite d above t with
    | (t, some refusal) => (t :: ts, some refusal)
    | (t, none) =>
      let rest := rewriteAll d above ts
      (t :: rest.1, rest.2)
termination_by (weightAll ts, 1)
decreasing_by
  · rcases Nat.eq_zero_or_pos (weightAll ts) with h | h
    · simp only [weightAll_cons, h, Nat.add_zero]
      exact Prod.Lex.right _ (by omega)
    · exact Prod.Lex.left _ _ (by simp only [weightAll_cons]; omega)
  · have := weight_pos t
    exact Prod.Lex.left _ _ (by simp only [weightAll_cons]; omega)

end

theorem rewrite_error {d : Dialect} {above : NodeKind} {t : Term} {refusal : Refusal}
    (h : rewriteTop d above t = .error refusal) : rewrite d above t = (t, some refusal) := by
  rw [rewrite]
  split
  · rename_i h'
    rw [h] at h'
    cases h'
    rfl
  · rename_i h'
    rw [h] at h'
    cases h'

theorem rewrite_ok {d : Dialect} {above : NodeKind} {t : Term} {node : Node}
    {alias_ : Option String} {children : List Term}
    (h : rewriteTop d above t = .ok (.mk node alias_ children)) :
    rewrite d above t =
      (.mk node alias_ (rewriteAll d node.kind children).1,
        (rewriteAll d node.kind children).2) := by
  rw [rewrite]
  split
  · rename_i h'
    rw [h] at h'
    cases h'
  · rename_i h'
    rw [h] at h'
    cases h'
    rfl

@[simp] theorem rewriteAll_nil (d : Dialect) (above : NodeKind) :
    rewriteAll d above [] = ([], none) := by
  rw [rewriteAll]

theorem rewriteAll_refused {d : Dialect} {above : NodeKind} {t t' : Term} (ts : List Term)
    {refusal : Refusal} (h : rewrite d above t = (t', some refusal)) :
    rewriteAll d above (t :: ts) = (t' :: ts, some refusal) := by
  rw [rewriteAll, h]

theorem rewriteAll_cons {d : Dialect} {above : NodeKind} {t t' : Term} (ts : List Term)
    (h : rewrite d above t = (t', none)) :
    rewriteAll d above (t :: ts) =
      (t' :: (rewriteAll d above ts).1, (rewriteAll d above ts).2) := by
  rw [rewriteAll, h]

/-- Induction along a rewriting: a term is refused, or its top is rewritten and the hypothesis is
had of what then is below it. -/
theorem rewrite_induct {d : Dialect} {motive : NodeKind → Term → Prop}
    (refused : ∀ above t refusal, rewriteTop d above t = .error refusal → motive above t)
    (rewritten : ∀ above t node alias_ children,
      rewriteTop d above t = .ok (.mk node alias_ children) →
      (∀ c ∈ children, motive node.kind c) → motive above t)
    (above : NodeKind) (t : Term) : motive above t := by
  -- What a rule puts below a call is not always part of the call, so the induction is on weights.
  obtain ⟨n, hn⟩ : ∃ n, n = weight t := ⟨_, rfl⟩
  induction n using Nat.strongRecOn generalizing t above with
  | ind n ih =>
    cases h : rewriteTop d above t with
    | error refusal => exact refused above t refusal h
    | ok t' =>
      obtain ⟨node, alias_, children⟩ := t'
      have hlighter := rewriteTop_weight h
      simp only [Term.children] at hlighter
      refine rewritten above t node alias_ children h fun c hc => ih _ ?_ _ c rfl
      have := weight_le_weightAll hc
      omega

/-! ## Row numbers -/

/-- The first of some terms that limits anything: how many terms stand before it and its numbers. -/
def firstLimit? : List Term → Option (Nat × UInt64 × UInt64)
  | [] => none
  | t :: ts =>
    match RowNumbers.limits? t.node with
    | some (limit, offset) => some (0, limit, offset)
    | none => (firstLimit? ts).map fun (index, numbers) => (index + 1, numbers)

theorem firstLimit?_eq_none {ts : List Term} :
    firstLimit? ts = none ↔ ∀ t ∈ ts, RowNumbers.limits? t.node = none := by
  induction ts with
  | nil => simp [firstLimit?]
  | cons t ts ih =>
    rw [firstLimit?]
    cases h : RowNumbers.limits? t.node with
    | none => simp [h, ih]
    | some limits => simp [h]

/-- Where the first limiting term stands. -/
theorem firstLimit?_split {ts : List Term} {index : Nat} {limit offset : UInt64}
    (h : firstLimit? ts = some (index, limit, offset)) :
    ∃ before t after, ts = before ++ t :: after ∧ before.length = index ∧
      RowNumbers.limits? t.node = some (limit, offset) := by
  induction ts generalizing index with
  | nil => cases h
  | cons t ts ih =>
    rw [firstLimit?] at h
    cases hl : RowNumbers.limits? t.node with
    | some limits =>
      rw [hl] at h
      cases h
      exact ⟨[], t, ts, rfl, rfl, hl⟩
    | none =>
      rw [hl] at h
      obtain ⟨⟨i, limits⟩, hi, he⟩ := Option.map_eq_some_iff.1 h
      cases he
      obtain ⟨before, t', after, rfl, rfl, ht'⟩ := ih hi
      exact ⟨t :: before, t', after, rfl, rfl, ht'⟩

/-- A node over terms of which `limit` says where the first limiting one was: a select with one is
enclosed, the limiting term giving way to an empty one. -/
def encloseTop (node : Node) (alias_ : Option String) (limit : Option (Nat × UInt64 × UInt64))
    (children : List Term) : Term :=
  match node, limit with
  | .select, some (index, limit, offset) =>
    .mk .select alias_
      [text (RowNumbers.head offset), of .select (children.set index (leaf .empty)),
        text (RowNumbers.tail limit offset)]
  | _, _ => .mk node alias_ children

mutual

/-- The term with every select that limits its rows enclosed. -/
def enclosed : Term → Term
  | .mk node alias_ children => encloseTop node alias_ (firstLimit? children) (enclosedAll children)

def enclosedAll : List Term → List Term
  | [] => []
  | t :: ts => enclosed t :: enclosedAll ts

end

/-- A query as the dialect has it, and the first refusal. The root has no parent to go by. -/
def adapted (d : Dialect) (t : Term) : Term × Option Refusal :=
  rewrite d .empty (if d.filtersRowNumbers then enclosed t else t)

/-! ## Step by step

The same by recursion on a number of steps, which evaluates. -/

/-- Terms from left to right up to the first refusal, each by `f`. -/
def rewriteEach (f : Term → Term × Option Refusal) : List Term → List Term × Option Refusal
  | [] => ([], none)
  | t :: ts =>
    match f t with
    | (t, some refusal) => (t :: ts, some refusal)
    | (t, none) => (t :: (rewriteEach f ts).1, (rewriteEach f ts).2)

/-- `rewrite` as far down as the steps reach. -/
def rewriteWithin (d : Dialect) : (steps : Nat) → (above : NodeKind) → Term →
    Term × Option Refusal
  | 0, _, t => (t, none)
  | steps + 1, above, t =>
    match rewriteTop d above t with
    | .error refusal => (t, some refusal)
    | .ok (.mk node alias_ children) =>
      (.mk node alias_ (rewriteEach (rewriteWithin d steps node.kind) children).1,
        (rewriteEach (rewriteWithin d steps node.kind) children).2)

theorem rewriteEach_eq {d : Dialect} {above : NodeKind} {f : Term → Term × Option Refusal}
    {ts : List Term} (h : ∀ t ∈ ts, f t = rewrite d above t) :
    rewriteEach f ts = rewriteAll d above ts := by
  induction ts with
  | nil => simp [rewriteEach]
  | cons t ts ih =>
    have ht := h t (by simp)
    have hts := ih fun t ht => h t (by simp [ht])
    cases hr : rewrite d above t with
    | mk t' r =>
      cases r with
      | none => rw [rewriteAll_cons ts hr, rewriteEach, ht, hr, hts]
      | some refusal => rw [rewriteAll_refused ts hr, rewriteEach, ht, hr]

theorem rewriteWithin_eq (d : Dialect) {steps : Nat} {above : NodeKind} {t : Term}
    (h : weight t ≤ steps) : rewriteWithin d steps above t = rewrite d above t := by
  induction steps generalizing above t with
  | zero =>
    have := weight_pos t
    omega
  | succ steps ih =>
    cases htop : rewriteTop d above t with
    | error refusal => rw [rewrite_error htop, rewriteWithin, htop]
    | ok t' =>
      obtain ⟨node, alias_, children⟩ := t'
      have hlighter := rewriteTop_weight htop
      simp only [Term.children] at hlighter
      have hbelow : rewriteEach (rewriteWithin d steps node.kind) children =
          rewriteAll d node.kind children := by
        refine rewriteEach_eq fun c hc => ih ?_
        have := weight_le_weightAll hc
        omega
      rw [rewrite_ok htop, rewriteWithin, htop, ← hbelow]

/-- `adapted`, to be evaluated. -/
theorem adapted_within (d : Dialect) (t : Term) :
    adapted d t = rewriteWithin d (weight (if d.filtersRowNumbers then enclosed t else t)) .empty
      (if d.filtersRowNumbers then enclosed t else t) :=
  (rewriteWithin_eq d (Nat.le_refl _)).symm

end Term
end PolyglotSql
