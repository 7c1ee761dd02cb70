import PolyglotSql.Tree.Node

/-!
# PolyglotSql.Term.Basic

Queries as plain values: a term is a node with an alias and the terms below it. Terms are put
together with the operations of this module and of `PolyglotSql.Term.Selection`.

A value that is compared with a column, matched against it, or looked for in it takes over what is
known about the column, unless something is known about the value already.
-/

namespace PolyglotSql

/-- A node with the terms below it. -/
inductive Term where
  | mk (node : Node) (alias_ : Option String) (children : List Term)
deriving Inhabited

namespace Term

/-- Induction on terms, with the hypothesis for every term directly below. -/
theorem induct {motive : Term → Prop}
    (mk : ∀ node alias_ children, (∀ t ∈ children, motive t) → motive (.mk node alias_ children))
    (t : Term) : motive t :=
  @Term.rec motive (fun ts => ∀ t ∈ ts, motive t) mk (by simp)
    (fun t ts ht hts => by simpa using ⟨ht, hts⟩) t

def node : Term → Node
  | .mk node _ _ => node

def alias_ : Term → Option String
  | .mk _ alias_ _ => alias_

def children : Term → List Term
  | .mk _ _ children => children

/-- A node over terms, without alias. -/
def of (node : Node) (children : List Term) : Term :=
  .mk node none children

/-- A node with nothing below it. -/
def leaf (node : Node) : Term :=
  of node []

/-- A column reference; a dotted name is qualified by what stands before its last dot. -/
def column (name : String) : Term :=
  match Text.cutLastDot name with
  | some (table, name) => leaf (.column ⟨some table, name, none⟩)
  | none => leaf (.column ⟨none, name, none⟩)

def value (v : Value) : Term :=
  leaf (.value v none)

/-- The value `NULL`. -/
def null : Term :=
  value .null

/-- A canonical function call; the name is taken in upper case. -/
def call (name : String) (args : List Term) : Term :=
  of (.call (Text.upper name)) args

def text (s : String) : Term :=
  leaf (.text s)

/-- The marker of an aggregate over distinct values. -/
def distinct : Term :=
  leaf .distinct

/-- A table; a dotted name has as its schema what stands before its last dot. -/
def tableOf (name : String) (alias_ : Option String) : Term :=
  match Text.cutLastDot name with
  | some (schema, name) => leaf (.table name (some schema) alias_)
  | none => leaf (.table name none alias_)

def table (name : String) : Term :=
  tableOf name none

def tableAs (name alias_ : String) : Term :=
  tableOf name (some alias_)

def withAlias (t : Term) (alias_ : String) : Term :=
  .mk t.node (some alias_) t.children

/-- States what is known about a column or a value; other terms are unchanged. -/
def withColumn (t : Term) (known : Attribute) : Term :=
  match t with
  | .mk (.column ref) alias_ children => .mk (.column { ref with column := some known }) alias_ children
  | .mk (.value v _) alias_ children => .mk (.value v (some known)) alias_ children
  | other => other

def knownColumn? : Term → Option Attribute
  | .mk (.column ref) _ _ => ref.column
  | _ => none

/-- A value takes over what is known about a column, unless something is known about it. -/
def inherit (t source : Term) : Term :=
  match t.node, source.knownColumn? with
  | .value _ none, some known => t.withColumn known
  | _, _ => t

/-! ## Conditions -/

/-- A comparison; either side may take over what is known about the other. -/
def compare (op : Comparison) (left right : Term) : Term :=
  let right := right.inherit left
  of (.equality op) [left.inherit right, right]

/-- A test for `NULL`. -/
def isNull (t : Term) : Term :=
  compare .eq t null

/-- A test for anything but `NULL`. -/
def isNotNull (t : Term) : Term :=
  compare .ne t null

/-- A pattern match; ignoring case puts both sides in upper case. -/
def matching (ignoreCase negated : Bool) (subject pattern : Term) : Term :=
  let pattern := pattern.inherit subject
  let node := Node.like .like ignoreCase negated none
  if ignoreCase then of node [call "UPPER" [subject], call "UPPER" [pattern]]
  else of node [subject, pattern]

/-- Sets the escape character of a pattern match; other terms are unchanged. -/
def withEscape (t : Term) (c : Char) : Term :=
  match t with
  | .mk (.like operator ignoreCase negated _) alias_ children =>
    .mk (.like operator ignoreCase negated (some c)) alias_ children
  | other => other

/-- Membership in a list of values or in the rows of a select. -/
def member (negated : Bool) (subject list : Term) : Term :=
  of (.in_ negated) [subject, list.inherit subject]

def memberOf (negated : Bool) (subject : Term) (values : List Value) : Term :=
  member negated subject (value (.list values))

def inRange (negated : Bool) (subject low high : Term) : Term :=
  of (.between negated) [subject, low.inherit subject, high.inherit subject]

/-- The operands that a term contributes to a connective: its own if it is the same connective,
itself otherwise. -/
def operands (op : BooleanOp) (t : Term) : List Term :=
  match t with
  | .mk (.boolean inner) _ children => if inner = op then children else [t]
  | _ => [t]

/-- A connective over two conditions; nested uses of the same connective are merged. -/
def connect (op : BooleanOp) (left right : Term) : Term :=
  of (.boolean op) (operands op left ++ operands op right)

def not (t : Term) : Term :=
  of .not [t]

def operation (left : Term) (operator : String) (right : Term) : Term :=
  of (.operation operator) [left, right]

def group (t : Term) : Term :=
  of .group [t]

def ordered (direction : Direction) (t : Term) : Term :=
  of (.ordering direction) [t]

def existsIn (negated : Bool) (select : Term) : Term :=
  of (.exists_ negated) [select]

end Term
end PolyglotSql
