import Mathlib
import PolyglotSql.Canonical.Query
import PolyglotSql.Proofs.Rendering.Operands

/-!
# PolyglotSql.Proofs.Canonical.Shapes

The shape of canonical queries. A `Shaped` node has as many terms below it as it takes: operands, if
it is a comparison or a test, and arguments, if it is a call of the catalogue. Whatever an
expression is written as, its term is shaped throughout (`exprTerm_shaped`): arguments are counted
where calls are written as calls, and the other forms bring the right number along.
-/

namespace PolyglotSql

open FunctionCatalogue (checkArity)

/-- Whether a node writes what is below it side by side. -/
def Node.gathers : Node → Bool
  | .select | .empty => true
  | _ => false

/-- A part of a select. -/
def Node.IsClause : Node → Prop
  | .distinct | .result | .fromClause | .whereClause | .groupBy | .having | .orderBy
  | .limitOffset _ _ => True
  | _ => False

namespace Term

/-- A node has the operands and the arguments that it takes; a select has its clauses below it. -/
structure Shaped (node : Node) (children : List Term) : Prop where
  operands : ∀ n, node.operandCount? = some n → children.length = n
  arguments : ∀ name, node.canonicalFunction? = some name →
    checkArity name (argumentCount children) = .ok ()
  clauses : node = .select → ∀ t ∈ children, t.node.IsClause
  inhabited : node ≠ .empty

/-- A term that may be an argument: it is shaped throughout and not the marker of distinct
values. -/
structure Operand (t : Term) : Prop where
  every : Every Shaped t
  kind : t.kind ≠ .distinct

theorem Every.counted {t : Term} (h : Every Shaped t) : t.Counted :=
  every_imp (fun _ _ hshaped => hshaped.operands) h

/-! ## Terms of plain nodes -/

theorem shaped_plain {node : Node} (ho : node.operandCount? = none)
    (hc : node.canonicalFunction? = none) (hgathers : node.gathers = false)
    (children : List Term) : Shaped node children where
  operands n hn := by
    rw [ho] at hn
    cases hn
  arguments name hname := by
    rw [hc] at hname
    cases hname
  clauses := by
    rintro rfl
    cases hgathers
  inhabited := by
    rintro rfl
    cases hgathers

/-- A node with as many terms below it as it takes operands. -/
theorem shaped_counted {node : Node} {children : List Term}
    (ho : node.operandCount? = some children.length) (hc : node.canonicalFunction? = none) :
    Shaped node children where
  operands n hn := by
    rw [ho] at hn
    exact Option.some.inj hn
  arguments name hname := by
    rw [hc] at hname
    cases hname
  clauses := by
    rintro rfl
    cases ho
  inhabited := by
    rintro rfl
    cases ho

theorem every_of {node : Node} {children : List Term} (h : Shaped node children)
    (hchildren : ∀ t ∈ children, Every Shaped t) : Every Shaped (of node children) :=
  every_mk.2 ⟨h, hchildren⟩

theorem every_leaf (node : Node) (ho : node.operandCount? = none)
    (hc : node.canonicalFunction? = none) (hgathers : node.gathers = false) :
    Every Shaped (leaf node) :=
  every_of (shaped_plain ho hc hgathers []) (by simp)

theorem operand_column (ref : ColumnRef) : (leaf (.column ref)).Operand :=
  ⟨every_leaf _ rfl rfl rfl, nofun⟩

theorem operand_value (v : Value) : (value v).Operand :=
  ⟨every_leaf _ rfl rfl rfl, nofun⟩

theorem operand_text (s : String) : (text s).Operand :=
  ⟨every_leaf _ rfl rfl rfl, nofun⟩

theorem every_tableOf (name : String) (alias_ : Option String) :
    Every Shaped (tableOf name alias_) := by
  unfold tableOf
  split <;> exact every_leaf _ rfl rfl rfl

section Conditions

variable {t left right : Term}

theorem operand_withAlias (h : t.Operand) (alias_ : String) : (t.withAlias alias_).Operand := by
  obtain ⟨node, alias', children⟩ := t
  exact ⟨every_mk.2 (every_mk.1 h.every), h.kind⟩

theorem operand_withColumn (h : t.Operand) (known : Attribute) : (t.withColumn known).Operand := by
  unfold withColumn
  split
  · obtain ⟨-, hchildren⟩ := every_mk.1 h.every
    exact ⟨every_mk.2 ⟨shaped_plain rfl rfl rfl _, hchildren⟩, nofun⟩
  · obtain ⟨-, hchildren⟩ := every_mk.1 h.every
    exact ⟨every_mk.2 ⟨shaped_plain rfl rfl rfl _, hchildren⟩, nofun⟩
  · exact h

theorem operand_inherit (h : t.Operand) (source : Term) : (t.inherit source).Operand := by
  unfold inherit
  split
  · exact operand_withColumn h _
  · exact h

/-- A node over operands. -/
theorem operand_of {node : Node} {children : List Term} (h : Shaped node children)
    (hk : node.kind ≠ .distinct) (hchildren : ∀ t ∈ children, t.Operand) :
    (of node children).Operand :=
  ⟨every_of h fun t ht => (hchildren t ht).every, hk⟩

theorem operand_compare (op : Comparison) (hl : left.Operand) (hr : right.Operand) :
    (compare op left right).Operand := by
  have hr' := operand_inherit hr left
  have hl' := operand_inherit hl (right.inherit left)
  exact operand_of (shaped_counted rfl rfl) nofun (by simpa using ⟨hl', hr'⟩)

theorem operand_member (negated : Bool) (hl : left.Operand) (hr : right.Operand) :
    (member negated left right).Operand := by
  have hr' := operand_inherit hr left
  exact operand_of (shaped_counted rfl rfl) nofun (by simpa using ⟨hl, hr'⟩)

theorem operand_inRange {low high : Term} (negated : Bool) (h : t.Operand) (hl : low.Operand)
    (hh : high.Operand) : (inRange negated t low high).Operand := by
  have hl' := operand_inherit hl t
  have hh' := operand_inherit hh t
  exact operand_of (shaped_counted rfl rfl) nofun (by simpa using ⟨h, hl', hh'⟩)

theorem operand_not (h : t.Operand) : t.not.Operand :=
  operand_of (shaped_plain rfl rfl rfl _) nofun (by simpa using h)

theorem operand_group (h : t.Operand) : t.group.Operand :=
  operand_of (shaped_plain rfl rfl rfl _) nofun (by simpa using h)

theorem operand_operation (operator : String) (hl : left.Operand) (hr : right.Operand) :
    (operation left operator right).Operand :=
  operand_of (shaped_plain rfl rfl rfl _) nofun (by simpa using ⟨hl, hr⟩)

theorem operand_existsIn (negated : Bool) (h : t.Operand) : (existsIn negated t).Operand :=
  operand_of (shaped_plain rfl rfl rfl _) nofun (by simpa using h)

theorem every_ordered (direction : Direction) (h : Every Shaped t) :
    Every Shaped (t.ordered direction) :=
  every_of (shaped_plain rfl rfl rfl _) (by simpa using h)

theorem every_operands (op : BooleanOp) (h : Every Shaped t) :
    ∀ c ∈ operands op t, Every Shaped c := by
  unfold operands
  split
  · split
    · exact (every_mk.1 h).2
    · simpa using h
  · simpa using h

theorem operand_connect (op : BooleanOp) (hl : left.Operand) (hr : right.Operand) :
    (connect op left right).Operand := by
  refine ⟨every_of (shaped_plain rfl rfl rfl _) fun c hc => ?_, by cases op <;> nofun⟩
  rcases List.mem_append.1 hc with hc | hc
  · exact every_operands op hl.every c hc
  · exact every_operands op hr.every c hc

end Conditions

/-! ## Calls -/

section Calls

variable {args : List Term}

theorem argumentCount_append (args args' : List Term) :
    argumentCount (args ++ args') = argumentCount args + argumentCount args' := by
  simp [argumentCount]

theorem argumentCount_operands (h : ∀ t ∈ args, t.Operand) : argumentCount args = args.length := by
  rw [argumentCount, List.filter_eq_self.2]
  intro t ht
  simpa using (h t ht).kind

theorem operand_call {name : String}
    (hcount : checkArity (Text.upper name) (argumentCount args) = .ok ())
    (hargs : ∀ t ∈ args, Every Shaped t) : (call name args).Operand := by
  refine ⟨every_of ⟨nofun, fun name' hname => ?_, nofun, nofun⟩ hargs, nofun⟩
  cases hname
  exact hcount

/-- A call of a function that takes as many arguments as there are operands. -/
theorem operand_callOf {name : String} (hargs : ∀ t ∈ args, t.Operand)
    (hcount : checkArity (Text.upper name) args.length = .ok ()) : (call name args).Operand :=
  operand_call (by rw [argumentCount_operands hargs, hcount]) fun t ht => (hargs t ht).every

theorem checkArity_concat {n : Nat} (h : 0 < n) : checkArity "CONCAT" n = .ok () := by
  have harity : FunctionCatalogue.arity? "CONCAT" = some ⟨1, none⟩ := rfl
  simp [checkArity, harity, FunctionCatalogue.Arity.accepts, Nat.succ_le_of_lt h]

theorem operand_matching {subject pattern : Term} (ignoreCase negated : Bool)
    (hs : subject.Operand) (hp : pattern.Operand) :
    (matching ignoreCase negated subject pattern).Operand := by
  have hp' := operand_inherit hp subject
  unfold matching
  dsimp only
  split
  · have hupper {t : Term} (h : t.Operand) : (call "UPPER" [t]).Operand :=
      operand_callOf (by simpa using h) rfl
    exact operand_of (shaped_counted rfl rfl) nofun (by simpa using ⟨hupper hs, hupper hp'⟩)
  · exact operand_of (shaped_counted rfl rfl) nofun (by simpa using ⟨hs, hp'⟩)

theorem operand_withEscape {t : Term} (h : t.Operand) (c : Char) : (t.withEscape c).Operand := by
  unfold withEscape
  split
  · obtain ⟨htop, hchildren⟩ := every_mk.1 h.every
    exact ⟨every_mk.2 ⟨⟨fun n hn => htop.operands n hn, nofun, nofun, nofun⟩, hchildren⟩, nofun⟩
  · exact h

end Calls
end Term

/-! ## Selects -/

open Term

/-- The terms of all clauses are shaped throughout. -/
structure Selection.Shaped (s : Selection) : Prop where
  results : ∀ t ∈ s.results, Every Term.Shaped t
  sources : ∀ t ∈ s.sources, Every Term.Shaped t
  condition : ∀ t, s.condition = some t → Every Term.Shaped t
  groups : ∀ t ∈ s.groups, Every Term.Shaped t
  having : ∀ t, s.having = some t → Every Term.Shaped t
  orders : ∀ t ∈ s.orders, Every Term.Shaped t

namespace Selection.Shaped

variable {s : Selection}

theorem addOrders {orders : List Term} (h : s.Shaped) (ho : ∀ t ∈ orders, Every Term.Shaped t) :
    (orders.foldl Selection.addOrder s).Shaped := by
  induction orders generalizing s with
  | nil => exact h
  | cons order orders ih =>
    refine ih ⟨h.results, h.sources, h.condition, h.groups, h.having, fun t ht => ?_⟩
      fun t ht => ho t (by simp [ht])
    have horder := ho order (by simp)
    rcases List.mem_append.1 ht with ht | ht
    · exact h.orders t ht
    · rw [List.mem_singleton.1 ht]
      split
      · exact horder
      · exact every_ordered .ascending horder

theorem clause (node : Node) {terms : List Term} (h : Term.Shaped node terms)
    (hterms : ∀ t ∈ terms, Every Term.Shaped t) :
    ∀ t ∈ Selection.clause node terms, Every Term.Shaped t := by
  unfold Selection.clause
  split
  · simp
  · simpa using every_of h hterms

theorem isClause (node : Node) (terms : List Term) (h : node.IsClause := by trivial) :
    ∀ t ∈ Selection.clause node terms, t.node.IsClause := by
  unfold Selection.clause
  split
  · simp
  · simpa [Term.of, Term.node] using h

theorem toTerm (h : s.Shaped) : s.toTerm.Operand := by
  refine ⟨every_of ⟨nofun, nofun, fun _ => ?_, nofun⟩ ?_, nofun⟩
  · have hdistinct :
        ∀ t ∈ (if s.distinct then [leaf .distinct] else []), t.node.IsClause := by
      split
      · rw [List.forall_mem_singleton]
        exact trivial
      · simp
    simp only [List.forall_mem_append, List.forall_mem_singleton]
    exact ⟨⟨⟨⟨⟨⟨⟨hdistinct, trivial⟩, isClause .fromClause _⟩, isClause .whereClause _⟩,
      isClause .groupBy _⟩, isClause .having _⟩, isClause .orderBy _⟩, trivial⟩
  have hdistinct : ∀ t ∈ (if s.distinct then [leaf .distinct] else []), Every Term.Shaped t := by
    split
    · simpa using every_leaf .distinct rfl rfl rfl
    · simp
  have hresult : Every Term.Shaped (Term.of .result s.results) :=
    every_of (shaped_plain rfl rfl rfl _) h.results
  have hsources := clause .fromClause (shaped_plain rfl rfl rfl _) h.sources
  have hcondition := clause .whereClause (shaped_plain rfl rfl rfl s.condition.toList)
    (by simpa using h.condition)
  have hgroups := clause .groupBy (shaped_plain rfl rfl rfl _) h.groups
  have hhaving := clause .having (shaped_plain rfl rfl rfl s.having.toList)
    (by simpa using h.having)
  have horders := clause .orderBy (shaped_plain rfl rfl rfl _) h.orders
  have hlimit : Every Term.Shaped (leaf (.limitOffset s.limit s.offset)) := every_leaf _ rfl rfl rfl
  simp only [List.forall_mem_append, List.forall_mem_singleton]
  exact ⟨⟨⟨⟨⟨⟨⟨hdistinct, hresult⟩, hsources⟩, hcondition⟩, hgroups⟩, hhaving⟩, horders⟩, hlimit⟩

end Selection.Shaped

namespace Canonical

/-! ## Conversions -/

/-- What a conversion gives, if it accepts, has a property. -/
def Gives {α : Type} (P : α → Prop) (x : Except Refusal α) : Prop :=
  ∀ a, x = .ok a → P a

section Giving

variable {α β : Type} {P : α → Prop} {Q : β → Prop}

theorem gives_ok {a : α} (h : P a) : Gives P (.ok a) := by
  intro b hb
  cases hb
  exact h

theorem gives_refused (refusal : Refusal) : Gives P (.error refusal) := nofun

theorem Gives.bind {x : Except Refusal α} {f : α → Except Refusal β} (h : Gives P x)
    (hf : ∀ a, P a → Gives Q (f a)) : Gives Q (x >>= f) := by
  intro b hb
  cases hx : x with
  | error refusal =>
    rw [hx] at hb
    cases hb
  | ok a =>
    rw [hx] at hb
    exact hf a (h a hx) b hb

theorem Gives.map {x : Except Refusal α} {f : α → β} (h : Gives P x) (hf : ∀ a, P a → Q (f a)) :
    Gives Q (x >>= fun a => pure (f a)) :=
  h.bind fun a ha => gives_ok (hf a ha)

/-- Nothing need be known of what a conversion gives. -/
theorem gives_any (x : Except Refusal α) : Gives (fun _ => True) x := fun _ _ => trivial

theorem gives_self (x : Except Refusal α) : Gives (fun a => x = .ok a) x := fun _ h => h

end Giving

/-! ## Operations and names -/

theorem upper_upper (s : String) : Text.upper (Text.upper s) = Text.upper s := by
  have hchar : Char.toUpper ∘ Char.toUpper = Char.toUpper :=
    funext Char.toUpper_toUpper_eq_toUpper
  simp [Text.upper, hchar]

theorem upper_functionName (written : String) :
    Text.upper (functionName written) = functionName written := by
  unfold functionName
  split
  case h_11 => exact upper_upper written
  all_goals rfl

theorem extractor_arity (part : String) :
    Gives (fun name => checkArity (Text.upper name) 1 = .ok ()) (extractor part) := by
  unfold extractor
  split
  case h_5 =>
    split
    · rename_i hpart
      refine gives_ok ?_
      rw [upper_upper]
      have hall : ∀ p ∈ ["YEAR", "MONTH", "WEEK", "DAY", "HOUR", "MINUTE", "SECOND"],
          checkArity p 1 = .ok () := by decide
      exact hall _ (List.contains_iff_mem.1 hpart)
    · exact gives_refused _
  all_goals exact gives_ok rfl

theorem concat_operand {left right : Term} (hl : left.Operand) (hr : right.Operand) :
    (concat left right).Operand := by
  unfold concat
  split
  · have hright : argumentCount [right] = 1 := argumentCount_operands (by simpa using hr)
    refine operand_call ?_ ?_
    · rw [argumentCount_append, hright]
      exact checkArity_concat (Nat.succ_pos _)
    · obtain ⟨node, alias_, children⟩ := left
      simpa [Term.children, or_imp, forall_and] using ⟨(every_mk.1 hl.every).2, hr.every⟩
  · exact operand_callOf (by simpa using ⟨hl, hr⟩) (checkArity_concat (by simp))

theorem binary_operand (op : Sql.BinaryOperator) {left right : Term} (hl : left.Operand)
    (hr : right.Operand) : Gives Operand (binary op left right) := by
  cases op with
  | eq | ne | lt | le | gt | ge => exact gives_ok (operand_compare _ hl hr)
  | and | or => exact gives_ok (operand_connect _ hl hr)
  | plus | minus | times | divide => exact gives_ok (operand_operation _ hl hr)
  | concat => exact gives_ok (concat_operand hl hr)
  | remainder => exact gives_ok (operand_callOf (by simpa using ⟨hl, hr⟩) rfl)
  | other shown => exact gives_refused _

theorem withEscape_operand {t : Term} (h : t.Operand) (escape : Option Sql.Literal) :
    Gives Operand (withEscape t escape) := by
  cases escape with
  | none => exact gives_ok h
  | some l => exact (gives_any _).map fun c _ => operand_withEscape h c

theorem columnTerm_operand (scope : Scope) (path : Sql.Path) :
    Gives Operand (columnTerm scope path) := by
  unfold columnTerm
  split
  · exact gives_ok (operand_column _)
  · exact gives_ok (operand_column _)
  · exact gives_refused _

theorem tableTerm_every (f : Sql.TableFactor) : Gives (Every Term.Shaped) (tableTerm f) := by
  cases f with
  | table path alias_ clauses => exact gives_ok (every_tableOf _ _)
  | _ => exact gives_refused _

theorem rowLimit_shaped {s : Selection} (h : s.Shaped) (limit : Option Sql.LimitClause) :
    Gives Selection.Shaped (rowLimit s limit) := by
  have hbounds (limit offset : UInt64) : ({ s with limit, offset } : Selection).Shaped :=
    ⟨h.results, h.sources, h.condition, h.groups, h.having, h.orders⟩
  cases limit with
  | none => exact gives_ok h
  | some l =>
    cases l with
    | limitOffset limit offset by_ =>
      exact (gives_any _).bind fun _ _ => (gives_any _).map fun _ _ => hbounds _ _
    | offsetComma offset limit =>
      exact (gives_any _).bind fun _ _ => (gives_any _).map fun _ _ => hbounds _ _

/-- The marker of distinct values is no argument. -/
theorem argumentCount_marked (marked : Prop) [Decidable marked] (terms : List Term) :
    argumentCount ((if marked then [Term.distinct] else []) ++ terms) = argumentCount terms := by
  rw [argumentCount_append]
  split <;> simp [argumentCount, Term.distinct, Term.kind, Term.node, leaf, of, Node.kind]

/-! ## Queries -/

mutual

theorem exprTerm_operand (scope : Scope) (e : Sql.Expr) : Gives Operand (exprTerm scope e) := by
  cases e with
  | identifier name => exact gives_ok (operand_column _)
  | compound path => exact columnTerm_operand scope path
  | literal l span => exact (gives_any _).map fun v _ => operand_value v
  | nested e =>
    cases e with
    | subquery q => exact (querySelection_shaped scope q).map fun s hs => hs.toTerm
    | _ => exact (exprTerm_operand scope _).map fun t ht => operand_group ht
  | subquery q => exact (querySelection_shaped scope q).map fun s hs => hs.toTerm
  | unary op e =>
    cases op with
    | plus => exact exprTerm_operand scope e
    | minus =>
      cases e with
      | literal l span =>
        exact (gives_any _).bind fun v _ => (gives_any _).map fun w _ => operand_value w
      | _ => exact gives_refused _
    | not =>
      cases e with
      | nested e => exact (exprTerm_operand scope e).map fun t ht => operand_not ht
      | _ => exact (exprTerm_operand scope _).map fun t ht => operand_not ht
    | complement => exact gives_refused _
  | binary left op right =>
    refine (exprTerm_operand scope left).bind fun l hl => ?_
    refine (exprTerm_operand scope right).bind fun r hr => ?_
    exact binary_operand op hl hr
  | isNull negated e =>
    cases negated with
    | false | true =>
      exact (exprTerm_operand scope e).map fun t ht => operand_compare _ ht (operand_value _)
  | like ignoreCase negated any subject pattern escape =>
    cases any with
    | true => exact gives_refused _
    | false =>
      refine (exprTerm_operand scope subject).bind fun s hs => ?_
      refine (exprTerm_operand scope pattern).bind fun p hp => ?_
      exact withEscape_operand (operand_matching ignoreCase negated hs hp) escape
  | inList negated subject list =>
    refine (gives_any _).bind fun values _ => ?_
    refine (exprTerm_operand scope subject).map fun s hs => ?_
    exact operand_member negated hs (operand_value _)
  | inSubquery negated subject q =>
    refine (exprTerm_operand scope subject).bind fun s hs => ?_
    exact (querySelection_shaped scope q).map fun q hq => operand_member negated hs hq.toTerm
  | between negated subject low high =>
    refine (exprTerm_operand scope subject).bind fun s hs => ?_
    refine (exprTerm_operand scope low).bind fun l hl => ?_
    exact (exprTerm_operand scope high).map fun h hh => operand_inRange negated hs hl hh
  | exists_ negated q =>
    exact (querySelection_shaped scope q).map fun s hs => operand_existsIn negated hs.toTerm
  | call c => exact callTerm_operand scope c
  | extract field comma e =>
    refine (extractor_arity field.text).bind fun function hcount => ?_
    exact (exprTerm_operand scope e).map fun t ht => operand_callOf (by simpa using ht) hcount
  | substring form short e start length =>
    refine (exprTerm_operand scope e).bind fun t ht => ?_
    refine (optionalTerm_operand scope start).bind fun start hstart => ?_
    refine (optionalTerm_operand scope length).map fun length hlength => ?_
    have hfrom : (start.getD (.value (.integer 1))).Operand := by
      cases start with
      | none => exact operand_value _
      | some t => exact hstart t rfl
    cases length with
    | none => exact operand_callOf (by simpa using ⟨ht, hfrom⟩) rfl
    | some l => exact operand_callOf (by simpa using ⟨ht, hfrom, hlength l rfl⟩) rfl
  | position needle haystack =>
    refine (exprTerm_operand scope haystack).bind fun h hh => ?_
    refine (exprTerm_operand scope needle).map fun n hn => ?_
    exact operand_callOf (by simpa using ⟨hh, hn⟩) rfl
  | trim e =>
    exact (exprTerm_operand scope e).map fun t ht => operand_callOf (by simpa using ht) rfl
  | access root steps => exact gives_refused _
  | other shown => exact gives_refused _

theorem optionalTerm_operand (scope : Scope) (e : Option Sql.Expr) :
    Gives (fun t? => ∀ t, t? = some t → t.Operand) (optionalTerm scope e) := by
  cases e with
  | none => exact gives_ok nofun
  | some e =>
    refine (exprTerm_operand scope e).map fun t ht t' he => ?_
    cases he
    exact ht

theorem exprTerms_operand (scope : Scope) (es : List Sql.Expr) :
    Gives (fun ts => ∀ t ∈ ts, t.Operand) (exprTerms scope es) := by
  cases es with
  | nil => exact gives_ok (by simp)
  | cons e es =>
    refine (exprTerm_operand scope e).bind fun t ht => ?_
    refine (exprTerms_operand scope es).map fun ts hts => ?_
    simpa using ⟨ht, hts⟩

theorem callTerm_operand (scope : Scope) (c : Sql.Call) : Gives Operand (callTerm scope c) := by
  obtain ⟨path, parameters, arguments, withinGroup, filter, nullTreatment, overClause, braced⟩ := c
  cases overClause with
  | some shown => exact gives_refused _
  | none =>
    cases filter with
    | some condition => exact gives_refused _
    | none =>
      cases withinGroup with
      | cons o os => exact gives_refused _
      | nil =>
        cases arguments with
        | none =>
          refine (gives_self _).map fun _ hcount => operand_callOf (by simp) ?_
          rw [upper_functionName]
          exact hcount
        | subquery q => exact gives_refused _
        | list duplicates args clauses =>
          -- What is counted here are the written arguments; each of them gives one operand.
          refine (argumentTerms_operand scope args).bind fun terms ⟨hlen, hterms⟩ => ?_
          refine (gives_self _).map fun _ hcount => operand_call ?_ ?_
          · rw [upper_functionName, argumentCount_marked, argumentCount_operands hterms, hlen]
            exact hcount
          · have hdistinct : Every Term.Shaped Term.distinct := every_leaf _ rfl rfl rfl
            intro t ht
            rcases List.mem_append.1 ht with ht | ht
            · split at ht
              · rw [List.mem_singleton.1 ht]
                exact hdistinct
              · cases ht
            · exact (hterms t ht).every

theorem argumentTerms_operand (scope : Scope) (as : List Sql.Argument) :
    Gives (fun ts => ts.length = as.length ∧ ∀ t ∈ ts, t.Operand) (argumentTerms scope as) := by
  cases as with
  | nil => exact gives_ok (by simp)
  | cons a as =>
    refine (argumentTerm_operand scope a).bind fun t ht => ?_
    refine (argumentTerms_operand scope as).map fun ts ⟨hlen, hts⟩ => ?_
    simpa using ⟨hlen, ht, hts⟩

theorem argumentTerm_operand (scope : Scope) (a : Sql.Argument) :
    Gives Operand (argumentTerm scope a) := by
  cases a with
  | expr e => exact exprTerm_operand scope e
  | wildcard => exact gives_ok (operand_text _)
  | other shown => exact gives_refused _

theorem querySelection_shaped (scope : Scope) (q : Sql.Query) :
    Gives Selection.Shaped (querySelection scope q) := by
  obtain ⟨withClause, body, orderBy, interpolate, limit, settings, fetch, locks, answer, format,
    steps⟩ := q
  cases withClause with
  | some shown => exact gives_refused _
  | none =>
    refine (bodySelection_shaped scope body).bind fun ⟨s, inner⟩ hs => ?_
    refine (orderTerms_every inner orderBy).bind fun orders horders => ?_
    exact rowLimit_shaped (hs.addOrders horders) limit

theorem bodySelection_shaped (scope : Scope) (body : Sql.QueryBody) :
    Gives (fun r => r.1.Shaped) (bodySelection scope body) := by
  cases body with
  | select s => exact (selectSelection_shaped _ s).map fun s hs => hs
  | nested q => exact (querySelection_shaped scope q).map fun s hs => hs
  | combined left op quantifier right => exact gives_refused _
  | other shown => exact gives_refused _

theorem orderTerms_every (scope : Scope) (orders : List Sql.OrderTerm) :
    Gives (fun ts => ∀ t ∈ ts, Every Term.Shaped t) (orderTerms scope orders) := by
  cases orders with
  | nil => exact gives_ok (by simp)
  | cons o os =>
    obtain ⟨e, ascending, nullsFirst, fill⟩ := o
    refine (exprTerm_operand scope e).bind fun t ht => ?_
    refine (orderTerms_every scope os).map fun ts hts => ?_
    simpa using ⟨every_ordered _ ht.every, hts⟩

theorem selectSelection_shaped (scope : Scope) (s : Sql.Select) :
    Gives Selection.Shaped (selectSelection scope s) := by
  obtain ⟨token, flavor, distinct, top, items, into, sources, lateralViews, prewhere, condition,
    groupBy, clusterBy, distributeBy, sortBy, having, windows, qualify, windowsFirst,
    connectBy⟩ := s
  have hrest (distinct : Bool) : Gives Selection.Shaped (do
      let results ← itemTerms scope items
      let sources ← sourceTerms scope sources
      let condition ← optionalTerm scope condition
      let groups ← groupTerms scope groupBy
      let having ← optionalTerm scope having
      return { Selection.empty with distinct, results, sources, condition, groups, having }) := by
    refine (itemTerms_every scope items).bind fun results hresults => ?_
    refine (sourceTerms_every scope sources).bind fun sources hsources => ?_
    refine (optionalTerm_operand scope condition).bind fun condition hcondition => ?_
    refine (groupTerms_operand scope groupBy).bind fun groups hgroups => ?_
    refine (optionalTerm_operand scope having).map fun having hhaving => ?_
    exact {
      results := hresults
      sources := hsources
      condition := fun t ht => (hcondition t ht).every
      groups := fun t ht => (hgroups t ht).every
      having := fun t ht => (hhaving t ht).every
      orders := by simp [Selection.empty] }
  cases distinct with
  | none => exact hrest false
  | rows => exact hrest true
  | on keys => exact gives_refused _

theorem itemTerms_every (scope : Scope) (items : List Sql.SelectItem) :
    Gives (fun ts => ∀ t ∈ ts, Every Term.Shaped t) (itemTerms scope items) := by
  cases items with
  | nil => exact gives_ok (by simp)
  | cons item items =>
    refine (itemTerm_operand scope item).bind fun t ht => ?_
    refine (itemTerms_every scope items).map fun ts hts => ?_
    simpa using ⟨ht.every, hts⟩

theorem itemTerm_operand (scope : Scope) (item : Sql.SelectItem) :
    Gives Operand (itemTerm scope item) := by
  cases item with
  | expr e => exact exprTerm_operand scope e
  | aliased e alias_ =>
    exact (exprTerm_operand scope e).map fun t ht => operand_withAlias ht _
  | wildcard options => exact gives_ok (operand_text _)
  | qualifiedWildcard table options => exact gives_ok (operand_text _)

theorem sourceTerms_every (scope : Scope) (sources : List Sql.Source) :
    Gives (fun ts => ∀ t ∈ ts, Every Term.Shaped t) (sourceTerms scope sources) := by
  cases sources with
  | nil => exact gives_ok (by simp)
  | cons source sources =>
    refine (sourceTerm_every scope source).bind fun terms hterms => ?_
    refine (sourceTerms_every scope sources).map fun ts hts => ?_
    simpa only [List.forall_mem_append] using ⟨hterms, hts⟩

theorem sourceTerm_every (scope : Scope) (source : Sql.Source) :
    Gives (fun ts => ∀ t ∈ ts, Every Term.Shaped t) (sourceTerm scope source) := by
  obtain ⟨table, joins⟩ := source
  refine (tableTerm_every table).bind fun t ht => ?_
  refine (joinTerms_every scope joins).map fun ts hts => ?_
  simpa using ⟨ht, hts⟩

theorem joinTerms_every (scope : Scope) (joins : List Sql.Join) :
    Gives (fun ts => ∀ t ∈ ts, Every Term.Shaped t) (joinTerms scope joins) := by
  cases joins with
  | nil => exact gives_ok (by simp)
  | cons join joins =>
    refine (joinTerm_every scope join).bind fun t ht => ?_
    refine (joinTerms_every scope joins).map fun ts hts => ?_
    simpa using ⟨ht, hts⟩

theorem joinTerm_every (scope : Scope) (join : Sql.Join) :
    Gives (Every Term.Shaped) (joinTerm scope join) := by
  obtain ⟨global, operator, table, matching, constraint⟩ := join
  refine (gives_any _).bind fun kind _ => ?_
  refine (constraintTerm_operand scope constraint).bind fun condition hcondition => ?_
  refine (tableTerm_every table).map fun t ht => ?_
  refine every_of (shaped_plain rfl rfl rfl _) ?_
  simpa using ⟨ht, fun c hc => (hcondition c hc).every⟩

theorem constraintTerm_operand (scope : Scope) (constraint : Sql.JoinConstraint) :
    Gives (fun t? => ∀ t, t? = some t → t.Operand) (constraintTerm scope constraint) := by
  cases constraint with
  | on e =>
    refine (exprTerm_operand scope e).map fun t ht t' he => ?_
    cases he
    exact ht
  | none => exact gives_ok nofun
  | «using» columns => exact gives_refused _
  | natural => exact gives_refused _

theorem groupTerms_operand (scope : Scope) (groupBy : Sql.GroupBy) :
    Gives (fun ts => ∀ t ∈ ts, t.Operand) (groupTerms scope groupBy) := by
  cases groupBy with
  | exprs keys modifiers =>
    cases modifiers with
    | nil => exact exprTerms_operand scope keys
    | cons m ms => exact gives_refused _
  | all modifiers => exact gives_refused _

end

end Canonical
end PolyglotSql
