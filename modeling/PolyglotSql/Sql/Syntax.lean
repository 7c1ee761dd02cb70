import PolyglotSql.Sql.Token

/-!
# PolyglotSql.Sql.Syntax

Parsed SQL. What canonical queries are made of is kept as structure; forms that no canonical query
has a place for are kept as phrases, which say how the form is written and what its outline is.
-/

namespace PolyglotSql
namespace Sql

/-- A part of a script that is only ever shown: as it is written, and by the names of the kinds of
its parts. -/
structure Phrase where
  text : String
  outline : String
deriving DecidableEq, Inhabited

/-- An identifier as it was written: its characters, and the character that quotes it. -/
structure Name where
  value : String
  quote : Option Char
  span : Span
deriving DecidableEq, Inhabited

/-- A name of several parts, separated by dots. -/
abbrev Path := List Name

inductive Literal where
  | null
  | boolean (b : Bool)
  | number (digits : String) (long : Bool)
  | text (kind : TextKind) (value : String)
  /-- A text in double quotes. -/
  | quoted (value : String)
  /-- A text between dollar signs, with the tag between them. -/
  | dollar (tag value : String)
  | placeholder (written : String)
deriving DecidableEq, Inhabited

inductive UnaryOperator where
  | plus | minus | not | complement
deriving DecidableEq, Inhabited

inductive BinaryOperator where
  | eq | ne | lt | le | gt | ge | and | or | plus | minus | times | divide | remainder | concat
  | other (shown : Phrase)
deriving DecidableEq, Inhabited

/-- How a set operation is called. -/
inductive SetOperator where
  | union | except | minus | intersect
deriving DecidableEq, Inhabited

/-- How the parts of a substring are separated. -/
inductive SubstringForm where
  /-- By keywords, under the long name. -/
  | words
  /-- By commas. -/
  | commas
deriving DecidableEq, Inhabited

/-- The word behind the number of rows that an `OFFSET` skips. -/
inductive RowsWord where
  | none | row | rows
deriving DecidableEq, Inhabited

/-- An alias of a table, with the names of its columns. -/
structure TableAlias where
  /-- Whether `AS` is written before it. -/
  explicit : Bool
  name : Name
  columns : List Phrase
deriving DecidableEq, Inhabited

/-- Which rows of a join stay, and the word that is written for it. -/
inductive JoinOperator where
  | join | inner | left | leftOuter | right | rightOuter | full | cross
  | semi | leftSemi | rightSemi | anti | leftAnti | rightAnti
  | crossApply | outerApply | asOf | straight
deriving DecidableEq, Inhabited

/-- Where a select states its tables. -/
inductive SelectFlavor where
  /-- Behind the results. -/
  | standard
  /-- Before them. -/
  | sourcesFirst
  /-- Before them, and there are no results. -/
  | sourcesOnly
deriving DecidableEq, Inhabited

/-- What an asterisk leaves out or changes, and where it stands. -/
structure WildcardOptions where
  span : Span
  pattern : Option Phrase
  exclude : Option Phrase
  except : Option Phrase
  replace : Option Phrase
  rename : Option Phrase
deriving DecidableEq, Inhabited

/-- What is written with the name of a table, its alias apart. -/
structure TableClauses where
  partitions : List Name
  arguments : Option Phrase
  ordinality : Bool
  hints : List Phrase
  sample : Option Phrase
deriving DecidableEq, Inhabited

mutual

inductive Expr where
  | identifier (name : Name)
  | compound (path : Path)
  | literal (v : Literal) (span : Span)
  | nested (e : Expr)
  | subquery (q : Query)
  | unary (op : UnaryOperator) (operand : Expr)
  | binary (left : Expr) (op : BinaryOperator) (right : Expr)
  | isNull (negated : Bool) (e : Expr)
  | like (ignoreCase negated any : Bool) (subject pattern : Expr) (escape : Option Literal)
  | inList (negated : Bool) (subject : Expr) (list : List Expr)
  | inSubquery (negated : Bool) (subject : Expr) (q : Query)
  | between (negated : Bool) (subject low high : Expr)
  | exists_ (negated : Bool) (q : Query)
  | call (c : Call)
  | extract (field : Phrase) (comma : Bool) (operand : Expr)
  | substring (form : SubstringForm) (short : Bool) (operand : Expr) (start length : Option Expr)
  | position (needle haystack : Expr)
  /-- `TRIM` without a side and without a character. -/
  | trim (operand : Expr)
  /-- Fields and elements of a value. -/
  | access (root : Expr) (steps : List Phrase)
  /-- Any other expression. -/
  | other (shown : Phrase)

structure Call where
  name : Path
  /-- A list of parameters in parentheses before the arguments. -/
  parameters : Arguments
  arguments : Arguments
  withinGroup : List OrderTerm
  filter : Option Expr
  nullTreatment : Option Phrase
  overClause : Option Phrase
  /-- Whether the call stands in braces behind `fn`. -/
  braced : Bool

inductive Arguments where
  | none
  | subquery (q : Query)
  | list (duplicates : Option Bool) (args : List Argument) (clauses : List ArgumentClause)

inductive Argument where
  | expr (e : Expr)
  | wildcard
  | other (shown : Phrase)

inductive ArgumentClause where
  | orderBy (terms : List OrderTerm)
  | limit (e : Expr)
  /-- How `NULL` is treated. -/
  | nulls (shown : Phrase)
  | other (shown : Phrase)

structure OrderTerm where
  expr : Expr
  ascending : Option Bool
  nullsFirst : Option Bool
  /-- A `WITH FILL` clause. -/
  fill : Option Phrase

/-- A query with the clauses that follow its body. -/
structure Query where
  withClause : Option Phrase
  body : QueryBody
  orderBy : List OrderTerm
  /-- An `INTERPOLATE` clause behind `ORDER BY`. -/
  interpolate : Option Phrase
  limit : Option LimitClause
  settings : Option Phrase
  fetch : Option Fetch
  locks : List Phrase
  /-- The form in which rows are given, as a `FOR` clause states it. -/
  answer : Option Phrase
  format : Option Phrase
  /-- The steps of a pipe. -/
  steps : List Phrase

/-- What a query takes its rows from. -/
inductive QueryBody where
  | select (s : Select)
  | nested (q : Query)
  | combined (left : QueryBody) (op : SetOperator) (quantifier : Phrase) (right : QueryBody)
  | other (shown : Phrase)

/-- How many rows a query gives, and from which on. -/
inductive LimitClause where
  | limitOffset (limit : Option Expr) (offset : Option Offset) (by_ : List Expr)
  | offsetComma (offset limit : Expr)

/-- The rows that a query skips. -/
structure Offset where
  value : Expr
  rows : RowsWord

/-- A `FETCH FIRST` clause. -/
structure Fetch where
  withTies : Bool
  percent : Bool
  quantity : Option Expr

structure Select where
  /-- The outline of the word `SELECT`. -/
  token : String
  flavor : SelectFlavor
  distinct : Distinct
  top : Option Phrase
  items : List SelectItem
  into : Option Phrase
  sources : List Source
  lateralViews : List Phrase
  prewhere : Option Expr
  selection : Option Expr
  groupBy : GroupBy
  clusterBy : List Expr
  distributeBy : List Expr
  sortBy : List OrderTerm
  having : Option Expr
  windows : List Phrase
  qualify : Option Expr
  /-- Whether the windows stand before `QUALIFY`. -/
  windowsFirst : Bool
  connectBy : Option Phrase

/-- Which rows of a select are dropped as duplicates. -/
inductive Distinct where
  | none
  | rows
  | on (keys : List Expr)

inductive SelectItem where
  | expr (e : Expr)
  | aliased (e : Expr) (alias_ : Name)
  | wildcard (options : WildcardOptions)
  | qualifiedWildcard (table : Path) (options : WildcardOptions)

/-- A table with the tables joined to it. -/
structure Source where
  table : TableFactor
  joins : List Join

structure Join where
  global : Bool
  operator : JoinOperator
  table : TableFactor
  /-- What an `ASOF` join matches. -/
  matching : Option Expr
  constraint : JoinConstraint

inductive JoinConstraint where
  | on (e : Expr)
  | using (columns : List Path)
  | natural
  | none

/-- A table or what stands in place of one. -/
inductive TableFactor where
  | table (name : Path) (alias_ : Option TableAlias) (clauses : TableClauses)
  | derived (lateral : Bool) (q : Query) (alias_ : Option TableAlias)
  /-- Joined tables in parentheses. -/
  | nested (source : Source) (alias_ : Option TableAlias)
  /-- Anything else: what is written before and behind its alias, the name of its kind, and its
  fields in the order in which an outline shows them. The field called `alias` is the alias. -/
  | other (written : String) (alias_ : Option TableAlias) (afterAlias : String)
      (kind : String) (fields : List (String × String))

inductive GroupBy where
  | exprs (keys : List Expr) (modifiers : List Phrase)
  | all (modifiers : List Phrase)

end

instance : Inhabited Expr := ⟨.literal .null .empty⟩
instance : Inhabited TableFactor := ⟨.other "" none "" "" []⟩

inductive ColumnOptionKind where
  | notNull | primaryKey | other
deriving DecidableEq, Inhabited

/-- What a column is declared to be, with its name if it has one. -/
structure ColumnOption where
  kind : ColumnOptionKind
  written : String
deriving DecidableEq, Inhabited

structure ColumnDeclaration where
  name : Name
  /-- The type, as it is written. -/
  type : String
  options : List ColumnOption
deriving DecidableEq, Inhabited

/-- A column that an index or a key lists. -/
structure IndexColumn where
  /-- Its name; none if the index is on an expression. -/
  name : Option Name
  written : String
deriving DecidableEq, Inhabited

/-- A constraint on a table as a whole. -/
inductive TableConstraint where
  /-- Makes columns the primary key, with what is written before their list and behind it. -/
  | primaryKey (lead : String) (columns : List IndexColumn) (tail : String)
  | other (written : String)
deriving DecidableEq, Inhabited

/-- A `CREATE TABLE` statement, with what is written before its name, behind it, and behind its
columns. -/
structure TableDeclaration where
  lead : String
  name : Path
  afterName : String
  columns : List ColumnDeclaration
  constraints : List TableConstraint
  tail : String
  /-- Whether the list of columns is written although it is empty. -/
  emptyList : Bool
  /-- Whether everything is there without which the statement cannot be written. -/
  complete : Bool
deriving DecidableEq, Inhabited

inductive Statement where
  | query (q : Query)
  | insert (written : String)
  | update (written : String)
  | delete (written : String)
  | createTable (t : TableDeclaration)
  | other (written : String)

/-- Whether everything is there without which a statement cannot be written. -/
def Statement.isComplete : Statement → Bool
  | .createTable t => t.complete
  | _ => true

/-- What is wrong with a statement that is not complete. -/
def missingPart : String :=
  "called `Option::unwrap()` on a `None` value"

end Sql
end PolyglotSql
