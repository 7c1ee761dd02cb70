import PolyglotSql.Schema.Attribute
import PolyglotSql.Value

/-!
# PolyglotSql.Tree.Node

The elements of a query. A node carries what is specific to its kind; children, parents and
aliases belong to the structure that holds it. Some kinds exist in one dialect only: they stand in
for the canonical kind whose tag they report, and no dialect rule matches them again.
-/

namespace PolyglotSql

inductive JoinKind where
  | inner | left | right | full
deriving DecidableEq, Inhabited

inductive Direction where
  | ascending | descending
deriving DecidableEq, Inhabited

/-- Logical connectives over any number of conditions. -/
inductive BooleanOp where
  | and | or
deriving DecidableEq, Inhabited

inductive Comparison where
  | eq | ne | lt | le | gt | ge
deriving DecidableEq, Inhabited

namespace Comparison

def symbol : Comparison → String
  | .eq => "="
  | .ne => "<>"
  | .lt => "<"
  | .le => "<="
  | .gt => ">"
  | .ge => ">="

end Comparison

/-- Operators of a pattern match. Only `like` is canonical; `nativeLike` is a `LIKE` whose case
rules a dialect has already settled. -/
inductive LikeOperator where
  | like | ilike | likeBinary | nativeLike
deriving DecidableEq, Inhabited

namespace LikeOperator

def keyword : LikeOperator → String
  | .like | .nativeLike => "LIKE"
  | .ilike => "ILIKE"
  | .likeBinary => "LIKE BINARY"

end LikeOperator

/-- Whether a function belongs to the canonical query or was put there for a dialect. -/
inductive FunctionOrigin where
  | canonical | dialect
deriving DecidableEq, Inhabited

/-- The row limiting clauses of the databases. -/
inductive PageClause where
  /-- `OFFSET m ROWS FETCH NEXT n ROWS ONLY` -/
  | offsetFetchNext
  /-- `OFFSET m ROWS FETCH FIRST n ROWS ONLY` -/
  | offsetRowsFetchFirst
  /-- `OFFSET m FETCH FIRST n ROWS ONLY` -/
  | offsetFetchFirst
  /-- `ROWS m+1 TO m+n` -/
  | rowsTo
  /-- `LIMIT n OFFSET m`, no limit being the largest 64-bit number -/
  | limitMaxRows
  /-- `LIMIT n OFFSET m`, no limit being `-1` -/
  | limitNegativeOne
  /-- `LIMIT n OFFSET m`, no limit being `0` -/
  | limitZero
deriving DecidableEq, Inhabited

/-- The functions that strip the padding of a fixed-width column. -/
inductive TrimKind where
  | rtrim | trim
deriving DecidableEq, Inhabited

namespace TrimKind

def function : TrimKind → String
  | .rtrim => "RTRIM"
  | .trim => "TRIM"

end TrimKind

/-- A reference to a column, qualified by a table or alias, with what is known about it. -/
structure ColumnRef where
  table : Option String
  name : String
  column : Option Attribute
deriving DecidableEq, Inhabited

/-- An element of a query. -/
inductive Node where
  | select
  | distinct
  | result
  | fromClause
  | table (name : String) (schema : Option String) (alias_ : Option String)
  | join (kind : JoinKind)
  | whereClause
  | groupBy
  | having
  | orderBy
  | ordering (direction : Direction)
  | limitOffset (limit offset : UInt64)
  | column (ref : ColumnRef)
  | value (value : Value) (column : Option Attribute)
  | function (name : String) (parentheses : Bool) (origin : FunctionOrigin)
  /-- Children joined by an infix operator. -/
  | operation (operator : String)
  /-- A parenthesised group. -/
  | group
  | boolean (op : BooleanOp)
  | not
  | equality (op : Comparison)
  | like (operator : LikeOperator) (ignoreCase negated : Bool) (escape : Option Char)
  | in_ (negated : Bool)
  | between (negated : Bool)
  | exists_ (negated : Bool)
  | text (text : String)
  | empty
  /-- A row limiting clause of a dialect. -/
  | page (clause : PageClause) (limit offset : UInt64)
  /-- A column inside a trim function. -/
  | trimmedColumn (ref : ColumnRef) (strip : TrimKind)
  /-- A bound value inside `CAST(? AS target(length))`. -/
  | castValue (value : Value) (column : Option Attribute) (target : String) (length : Nat)
  /-- A call `NAME(arg0 KW0 arg1 KW1 arg2)`. -/
  | keywordCall (name : String) (keywords : List String)
deriving DecidableEq, Inhabited

/-- The tag of an SQL construct. -/
inductive NodeKind where
  | select | distinct | result | fromClause | table | join | whereClause | groupBy | having
  | orderBy | ordering | limitOffset | column | value | function | expression | and | or | not
  | equality | like | in_ | between | exists_ | text | empty
deriving DecidableEq, Inhabited

namespace NodeKind

def name : NodeKind → String
  | .select => "SELECT"
  | .distinct => "DISTINCT"
  | .result => "RESULT"
  | .fromClause => "FROM"
  | .table => "TABLE"
  | .join => "JOIN"
  | .whereClause => "WHERE"
  | .groupBy => "GROUP_BY"
  | .having => "HAVING"
  | .orderBy => "ORDER_BY"
  | .ordering => "ORDERING"
  | .limitOffset => "LIMIT_OFFSET"
  | .column => "COLUMN"
  | .value => "VALUE"
  | .function => "FUNCTION"
  | .expression => "EXPRESSION"
  | .and => "AND"
  | .or => "OR"
  | .not => "NOT"
  | .equality => "EQUALITY"
  | .like => "LIKE"
  | .in_ => "IN"
  | .between => "BETWEEN"
  | .exists_ => "EXISTS"
  | .text => "TEXT"
  | .empty => "EMPTY"

end NodeKind

namespace Node

/-- The construct that a node is, or stands in for. -/
def kind : Node → NodeKind
  | .select => .select
  | .distinct => .distinct
  | .result => .result
  | .fromClause => .fromClause
  | .table .. => .table
  | .join _ => .join
  | .whereClause => .whereClause
  | .groupBy => .groupBy
  | .having => .having
  | .orderBy => .orderBy
  | .ordering _ => .ordering
  | .limitOffset .. | .page .. => .limitOffset
  | .column _ | .trimmedColumn .. => .column
  | .value .. | .castValue .. => .value
  | .function .. | .keywordCall .. => .function
  | .operation _ | .group => .expression
  | .boolean .and => .and
  | .boolean .or => .or
  | .not => .not
  | .equality _ => .equality
  | .like .. => .like
  | .in_ _ => .in_
  | .between _ => .between
  | .exists_ _ => .exists_
  | .text _ => .text
  | .empty => .empty

/-- A canonical function; it always has parentheses. -/
def call (name : String) : Node :=
  .function name true .canonical

/-- A function put there for a dialect. -/
def dialectCall (name : String) (parentheses : Bool) : Node :=
  .function name parentheses .dialect

/-- The name of a canonical function node. -/
def canonicalFunction? : Node → Option String
  | .function name _ .canonical => some name
  | _ => none

def isNullValue : Node → Bool
  | .value .null _ => true
  | _ => false

end Node
end PolyglotSql
