import PolyglotSql.Text.Basic

/-!
# PolyglotSql.Schema.SqlType

The SQL types that columns and parameters are told apart by, and the names under which DDL
declares them.
-/

namespace PolyglotSql

inductive SqlType where
  | char | nchar | varchar | nvarchar | longVarchar | clob | nclob
  | tinyInt | smallInt | integer | bigInt | decimal | numeric | real | float | double
  | boolean | bit | date | time | timestamp | binary | varBinary | blob | other
deriving DecidableEq, Inhabited, Repr

namespace SqlType

def all : List SqlType :=
  [.char, .nchar, .varchar, .nvarchar, .longVarchar, .clob, .nclob, .tinyInt, .smallInt,
   .integer, .bigInt, .decimal, .numeric, .real, .float, .double, .boolean, .bit, .date, .time,
   .timestamp, .binary, .varBinary, .blob, .other]

def position (t : SqlType) : Nat :=
  all.idxOf t

def name : SqlType → String
  | .char => "CHAR"
  | .nchar => "NCHAR"
  | .varchar => "VARCHAR"
  | .nvarchar => "NVARCHAR"
  | .longVarchar => "LONGVARCHAR"
  | .clob => "CLOB"
  | .nclob => "NCLOB"
  | .tinyInt => "TINYINT"
  | .smallInt => "SMALLINT"
  | .integer => "INTEGER"
  | .bigInt => "BIGINT"
  | .decimal => "DECIMAL"
  | .numeric => "NUMERIC"
  | .real => "REAL"
  | .float => "FLOAT"
  | .double => "DOUBLE"
  | .boolean => "BOOLEAN"
  | .bit => "BIT"
  | .date => "DATE"
  | .time => "TIME"
  | .timestamp => "TIMESTAMP"
  | .binary => "BINARY"
  | .varBinary => "VARBINARY"
  | .blob => "BLOB"
  | .other => "OTHER"

/-- The type with a given upper-case name. -/
def ofName? (s : String) : Option SqlType :=
  all.find? fun t => t.name == s

/-- The spellings that DDL uses for a type. -/
def spellings : SqlType → List String
  | .char => ["CHAR", "CHARACTER"]
  | .nchar => ["NCHAR", "NATIONAL CHAR", "NATIONAL CHARACTER"]
  | .varchar => ["VARCHAR", "VARCHAR2", "CHARACTER VARYING", "CHAR VARYING", "STRING"]
  | .nvarchar => ["NVARCHAR", "NVARCHAR2", "NATIONAL CHARACTER VARYING"]
  | .longVarchar => ["LONG VARCHAR", "LONGVARCHAR"]
  | .clob => ["CLOB", "TEXT", "CHARACTER LARGE OBJECT", "LONGTEXT", "MEDIUMTEXT"]
  | .nclob => ["NCLOB", "NATIONAL CHARACTER LARGE OBJECT"]
  | .tinyInt => ["TINYINT"]
  | .smallInt => ["SMALLINT", "INT2"]
  | .integer => ["INT", "INTEGER", "INT4"]
  | .bigInt => ["BIGINT", "INT8"]
  | .decimal => ["DECIMAL", "DEC"]
  | .numeric => ["NUMERIC", "NUMBER"]
  | .real => ["REAL", "FLOAT4"]
  | .float => ["FLOAT"]
  | .double => ["DOUBLE", "DOUBLE PRECISION", "FLOAT8"]
  | .boolean => ["BOOLEAN", "BOOL"]
  | .bit => ["BIT"]
  | .date => ["DATE"]
  | .time => ["TIME"]
  | .timestamp => ["TIMESTAMP", "DATETIME"]
  | .binary => ["BINARY"]
  | .varBinary => ["VARBINARY", "BYTEA"]
  | .blob => ["BLOB", "BINARY LARGE OBJECT"]
  | .other => []

/-- The type that a declared name (without a length) stands for; `other` when it is unknown. -/
def ofDeclaredName (declared : String) : SqlType :=
  let wanted := Text.upper (Text.trim declared)
  (all.find? fun t => t.spellings.contains wanted).getD .other

/-- Character types of fixed width, which databases may pad with blanks. -/
def isFixedChar : SqlType → Bool
  | .char | .nchar => true
  | _ => false

/-- Character large objects. -/
def isClob : SqlType → Bool
  | .clob | .nclob => true
  | _ => false

/-- Types whose values are texts. -/
def isCharacter : SqlType → Bool
  | .char | .nchar | .varchar | .nvarchar | .longVarchar | .clob | .nclob => true
  | _ => false

end SqlType
end PolyglotSql
