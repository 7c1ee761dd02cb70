import PolyglotSql.Text.Basic

/-!
# PolyglotSql.Dialect.Basic

The target databases, their names, and the ways in which a query can be beyond one of them or
beyond this library.
-/

namespace PolyglotSql

/-- A target database; `generic` keeps the canonical query. -/
inductive Dialect where
  | generic | derby | postgresql | mysql | oracle | h2 | hsqldb | ingres | firebird | sqlite | db2
deriving DecidableEq, Inhabited

namespace Dialect

/-- Every dialect, in the order in which they are listed. -/
def all : List Dialect :=
  [.generic, .derby, .postgresql, .mysql, .oracle, .h2, .hsqldb, .ingres, .firebird, .sqlite, .db2]

/-- The lower-case identifier of a dialect. -/
def id : Dialect → String
  | .generic => "generic"
  | .derby => "derby"
  | .postgresql => "postgresql"
  | .mysql => "mysql"
  | .oracle => "oracle"
  | .h2 => "h2"
  | .hsqldb => "hsqldb"
  | .ingres => "ingres"
  | .firebird => "firebird"
  | .sqlite => "sqlite"
  | .db2 => "db2"

/-- The name of a dialect as it is shown to people. -/
def name : Dialect → String
  | .generic => "Generic"
  | .derby => "Derby"
  | .postgresql => "PostgreSQL"
  | .mysql => "MySQL"
  | .oracle => "Oracle"
  | .h2 => "H2"
  | .hsqldb => "HSQLDB"
  | .ingres => "Ingres"
  | .firebird => "Firebird"
  | .sqlite => "SQLite"
  | .db2 => "DB2"

/-- The character that delimits identifiers. -/
def quoteChar : Dialect → Char
  | .mysql => '`'
  | _ => '"'

/-- Further names under which a dialect can be asked for. -/
def nicknames : Dialect → List String
  | .postgresql => ["postgres", "pg"]
  | .hsqldb => ["hsql"]
  | .sqlite => ["sqlite3"]
  | _ => []

/-- The dialect of a given identifier or nickname, in any case and between any white space. -/
def ofName (s : String) : Except String Dialect :=
  let wanted := Text.lower (Text.trim s)
  match all.find? fun d => d.id == wanted || d.nicknames.contains wanted with
  | some d => .ok d
  | none => .error ("Unknown dialect '" ++ s ++ "'")

end Dialect

/-- Why a query has no form in a dialect. -/
inductive Refusal where
  /-- A canonical function without equivalent in the dialect. -/
  | function (name : String) (dialect : Dialect)
  /-- A clause or shape without equivalent in the dialect. -/
  | construct (what : String) (dialect : Dialect)
  /-- SQL that no dialect is given. -/
  | sql (what : String)
deriving DecidableEq, Inhabited

namespace Refusal

def message : Refusal → String
  | .function name dialect => "Function " ++ name ++ "() is unsupported in " ++ dialect.name
  | .construct what dialect => what ++ " is unsupported in " ++ dialect.name
  | .sql what => "Unsupported SQL: " ++ what

end Refusal
end PolyglotSql
