import PolyglotSql.Sql.Parser.Column
import PolyglotSql.Sql.Parser.Right

/-!
# PolyglotSql.Sql.Parser.View

Views and indexes as they are declared. They are read to be written again, and are kept as text.
-/

namespace PolyglotSql
namespace Sql
namespace Parser

/-! ## Views -/

/-- Reads how a view is computed and on whose behalf, as it is written before a blank, as far as it is
stated. -/
def viewTraits : Parser String := do
  let algorithm ← behind "ALGORITHM" do
    symbol "="
    oneOf ["UNDEFINED", "MERGE", "TEMPTABLE"]
  let definer ← behind "DEFINER" do
    symbol "="
    granteeName
  let security ← behindAll ["SQL", "SECURITY"] (oneOf ["DEFINER", "INVOKER"])
  let shown (lead : String) (part : Option String) : String := optional lead (part.map (· ++ " "))
  return shown "ALGORITHM = " algorithm ++ shown "DEFINER = " definer ++ shown "SQL SECURITY " security

def viewColumns (below : Level) : Parser String := do
  unless ← takeSymbol "(" do return ""
  if ← takeSymbol ")" then return ""
  let columns ← separated do
    let n ← nameShown
    let options ← many (columnOption below)
    return n ++ listed " " (options.map ColumnOption.written)
  symbol ")"
  return " (" ++ Text.join ", " columns ++ ")"

/-- Reads a view from the words on that tell its kind. -/
def viewDeclaration (below : Level) (lead temporary : String) : Parser Statement := do
  let secure ← words ["SECURE"]
  let materialized ← words ["MATERIALIZED"]
  keyword "VIEW"
  let flag (word : String) : String := if word.isEmpty then "" else word ++ " "
  let early ← optionalGuard
  let n ← pathShown
  let late ← if early.isEmpty then optionalWords ["IF", "NOT", "EXISTS"] else pure ""
  let columns ← viewColumns below
  let with_ ← behind "WITH" (optionList below)
  let cluster ← behind "CLUSTER" do
    keyword "BY"
    optionalColumns
  let options ← behind "OPTIONS" (optionList below)
  let options := if options = some "" then none else options
  let target ← behind "TO" pathShown
  let comment ← behind "COMMENT" do
    symbol "="
    commentText
  keyword "AS"
  let q ← below.query
  let unbound ← optionalWords ["WITH", "NO", "SCHEMA", "BINDING"]
  let cluster := cluster.getD []
  return .other (lead ++ flag secure ++ flag materialized ++ temporary ++ "VIEW " ++ early ++ n ++ late
    ++ optional " TO " target ++ columns
    ++ (if options.isSome || with_ = some "" then "" else optional " WITH (" (with_.map (· ++ ")")))
    ++ optional " COMMENT = " (comment.map (withQuotes '\'' ·))
    ++ (if cluster.isEmpty then "" else " CLUSTER BY (" ++ namesText cluster ++ ")")
    ++ optional " OPTIONS(" (options.map (· ++ ")")) ++ " AS " ++ q.text ++ unbound)

/-! ## Indexes -/

/-- Reads how an index is built behind `ALGORITHM`, as it is written. -/
def buildAlgorithm : Parser String := do
  let sign ← takeSymbol "="
  match ← takeOneOf ["DEFAULT", "INSTANT", "INPLACE", "COPY"] with
  | some k => return "ALGORITHM " ++ (if sign then "= " else "") ++ k
  | none => expected "DEFAULT, INSTANT, INPLACE, or COPY after ALGORITHM [=]"

/-- Reads who is kept from a table meanwhile behind `LOCK`, as it is written. -/
def buildLock : Parser String := do
  let sign ← takeSymbol "="
  match ← takeOneOf ["DEFAULT", "EXCLUSIVE", "NONE", "SHARED"] with
  | some k => return "LOCK " ++ (if sign then "= " else "") ++ k
  | none => expected "DEFAULT, EXCLUSIVE, NONE or SHARED after LOCK [=]"

def indexDeclaration (below : Level) (lead : String) : Parser Statement := do
  let concurrently ← if ← takeKeyword "CONCURRENTLY" then pure "CONCURRENTLY " else pure ""
  let guarded ← optionalGuard
  let unnamed ← if guarded.isEmpty then takeKeyword "ON" else pure false
  let (n, early) ← if unnamed then pure ("", "") else do
    let n ← pathShown
    let kind ← optionalIndexKind
    keyword "ON"
    pure (n ++ " ", kind)
  let table ← pathShown
  let late ← optionalIndexKind
  let kind := if late.isEmpty then early else late
  let columns ← columnList (indexColumn below)
  let included ← behind "INCLUDE" (parens (separated nameShown))
  let nulls ← optionalNullDistinction
  let with_ ← behind "WITH" (parens (exprs below))
  let condition ← optionalPart below "WHERE"
  let options ← indexOptions
  let building ← many do
    if ← takeKeyword "ALGORITHM" then return some (← buildAlgorithm)
    behind "LOCK" buildLock
  return .other (lead ++ "INDEX " ++ concurrently ++ guarded ++ n ++ "ON " ++ table
    ++ (if kind.isEmpty then "" else kind ++ " ") ++ "(" ++ Text.join "," (columns.map (·.written)) ++ ")"
    ++ optional " INCLUDE (" (included.map (Text.join "," · ++ ")")) ++ nulls
    ++ optional " WITH " (with_.map tupleText) ++ condition ++ options ++ blankEach building)

end Parser
end Sql
end PolyglotSql
