import PolyglotSql.Sql.Parser.TableDeclaration

/-!
# PolyglotSql.Sql.Parser.Manipulation

Statements that change rows: `INSERT`, `REPLACE`, `UPDATE`, `DELETE` and `MERGE`. They are read to
be written again, and are kept as text.
-/

namespace PolyglotSql
namespace Sql
namespace Parser

/-! ## Clauses -/

def assignments (below : Level) : Parser String := do
  return phrasesText (← separated (assignment below))

/-- Reads what a statement gives back of the rows that it changes, as it is written behind a blank, if
it is stated. -/
def optionalReturning (below : Level) : Parser String := do
  let results ← behind "RETURNING" (separated (selectItem below))
  return listed " RETURNING " (itemTexts (results.getD []))

/-- Reads what happens to a row that conflicts, as it is written behind a blank, if a clause before the
table states it. -/
def optionalConflictClause : Parser String := do
  match ← firstOf [["OR", "REPLACE"], ["OR", "ROLLBACK"], ["OR", "ABORT"], ["OR", "FAIL"], ["OR", "IGNORE"],
      ["REPLACE"]] with
  | some "REPLACE" => return " OR REPLACE"
  | found => return optional " " found

/-- Columns in parentheses before a blank; nothing when there are none. -/
def columnsBefore (columns : List Name) : String :=
  if columns.isEmpty then "" else "(" ++ namesText columns ++ ") "

/-! ## Inserted rows -/

/-- Reads what happens to an inserted row that conflicts, behind `ON`, as it is written. -/
def conflictRest (below : Level) : Parser String := do
  if ← takeKeyword "CONFLICT" then
    let target ← if ← takeKeywords ["ON", "CONSTRAINT"] then (" ON CONSTRAINT " ++ ·) <$> pathShown
      else if ← peekSymbol "(" then parenNames
      else pure ""
    keyword "DO"
    if ← takeKeyword "NOTHING" then return "CONFLICT" ++ target ++ " DO NOTHING"
    keywords ["UPDATE", "SET"]
    let changes ← assignments below
    return "CONFLICT" ++ target ++ " DO UPDATE SET " ++ changes ++ (← optionalPart below "WHERE")
  keywords ["DUPLICATE", "KEY", "UPDATE"]
  return "DUPLICATE KEY UPDATE " ++ (← assignments below)

/-- Reads the alias of the inserted rows, as it is written behind a blank, if there is one. -/
def optionalRowAlias : Parser String := do
  let alias_ ← behind "AS" do
    let row ← pathShown
    let columns ← optionalColumns
    return row ++ if columns.isEmpty then "" else " (" ++ namesText columns ++ ")"
  return optional " AS " alias_

/-- Reads the inserted rows behind the table, as they are written. Where a format or settings follow
there are none. -/
def insertedRows (below : Level) : Parser String := do
  if ← takeKeywords ["DEFAULT", "VALUES"] then return "DEFAULT VALUES"
  let second ← peekAt 1
  let queryNext := (← peekSymbol "(") && ["SELECT", "WITH"].contains second.token.keyword
  let columns ← if queryNext then pure [] else optionalColumns
  let partition ← behind "PARTITION" (parens (exprs below))
  let lead := columnsBefore columns ++ optional "PARTITION " (partition.map (tupleText · ++ " "))
  if ["FORMAT", "SETTINGS"].contains (← peekKeyword) then
    return lead ++ if columns.isEmpty then "DEFAULT VALUES" else ""
  let q ← below.query
  return lead ++ q.text

/-- Reads a statement that inserts rows, behind its first word. -/
def insertRest (below : Level) (lead : String) : Parser Statement := do
  let conflict ← optionalConflictClause
  let priority ← optionalOneOf ["LOW_PRIORITY", "DELAYED", "HIGH_PRIORITY"]
  let ignore ← optionalWord "IGNORE"
  let overwrite ← optionalWord "OVERWRITE"
  let into ← optionalWord "INTO"
  let here ← optionalWord "LOCAL"
  if ← takeKeyword "DIRECTORY" then
    let directory ← bareLiteral
    let format ← behindAll ["STORED", "AS"] fileFormat
    let q ← below.query
    return .other ("INSERT" ++ overwrite ++ here ++ " DIRECTORY " ++ directory
      ++ optional " STORED AS " format ++ " " ++ q.text)
  let table ← optionalWord "TABLE"
  let n ← pathShown
  let lead := if conflict.isEmpty then lead ++ priority ++ ignore ++ overwrite ++ into ++ table
    else "INSERT" ++ conflict ++ " INTO"
  let rows ← insertedRows below
  let alias_ ← optionalRowAlias
  let on ← behind "ON" (conflictRest below)
  let returning ← optionalReturning below
  return .insert (lead ++ " " ++ n ++ " " ++ rows ++ alias_ ++ optional " ON " on ++ returning)

/-! ## Changed and dropped rows -/

/-- Reads a statement that changes rows, behind its first word. -/
def updateRest (below : Level) : Parser Statement := do
  let conflict ← optionalConflictClause
  let table ← below.source
  let early ← behind "FROM" (sources below)
  keyword "SET"
  let changes ← assignments below
  let late ← if early.isSome then pure none else behind "FROM" (sources below)
  let condition ← optionalPart below "WHERE"
  let returning ← optionalReturning below
  let limit ← optionalPart below "LIMIT"
  let tables (ts : Option (List Source)) : String := listed " FROM " (sourceTexts (ts.getD []))
  return .update ("UPDATE" ++ conflict ++ " " ++ table.text ++ tables early ++ " SET " ++ changes
    ++ tables late ++ condition ++ returning ++ limit)

/-- Reads a statement that drops rows, behind its first word. -/
def deleteRest (below : Level) : Parser Statement := do
  let word ← optionalWord "FROM"
  let tables ← sources below
  let using_ ← behind "USING" (sources below)
  let condition ← optionalPart below "WHERE"
  let returning ← optionalReturning below
  let order ← orderShown below
  let limit ← behind "LIMIT" do
    if ← takeKeyword "ALL" then return "" else return " LIMIT " ++ (← expr below).text
  return .delete ("DELETE" ++ word ++ " " ++ Text.join ", " (sourceTexts tables)
    ++ listed " USING " (sourceTexts (using_.getD [])) ++ condition ++ returning ++ order ++ limit.getD "")

/-! ## Merged tables -/

/-- Reads the row that a merge inserts, behind `INSERT`, as it is written. -/
def mergedRow (below : Level) : Parser String := do
  let columns ← optionalColumns
  if ← takeKeyword "ROW" then return columnsBefore columns ++ "ROW"
  keyword "VALUES"
  return columnsBefore columns ++ (← valuesRows below "VALUES").text

/-- Reads a case of a merge behind `WHEN`, as it is written. -/
def mergeCase (below : Level) : Parser String := do
  let missing ← takeKeyword "NOT"
  keyword "MATCHED"
  let side ← if missing then firstOf [["BY", "SOURCE"], ["BY", "TARGET"]] else pure none
  let guard ← optionalPart below "AND"
  keyword "THEN"
  let kind := (if missing then "NOT MATCHED" else "MATCHED") ++ optional " " side
  let inserts := missing && side != some "BY SOURCE"
  let start ← place
  let refused (action : String) (allowed : Bool) : Parser Unit := do
    unless allowed do fail (action ++ " is not allowed in a " ++ kind ++ " merge clause" ++ start)
  let action ← match ← takeOneOf ["UPDATE", "INSERT", "DELETE"] with
    | some "UPDATE" => do
      refused "UPDATE" !inserts
      keyword "SET"
      pure ("UPDATE SET " ++ (← assignments below))
    | some "DELETE" => do
      refused "DELETE" !inserts
      pure "DELETE"
    | some _ => do
      refused "INSERT" inserts
      pure ("INSERT " ++ (← mergedRow below))
    | none => fail ("expected UPDATE, DELETE or INSERT in merge clause" ++ start)
  return "WHEN " ++ kind ++ guard ++ " THEN " ++ action

/-- Reads what a merge gives back of the rows that it changes, as it is written behind a blank, if it is
stated. -/
def mergeOutput (below : Level) : Parser String := do
  match ← takeOneOf ["OUTPUT", "RETURNING"] with
  | none => return ""
  | some k =>
    let items ← separatedLoosely endsResults (selectItem below)
    let into ← if k == "OUTPUT" then optionalInto else pure none
    return " " ++ k ++ " " ++ Text.join ", " (itemTexts items) ++ Phrase.behindBlank into

def mergeRest (below : Level) : Parser Statement := do
  let into ← optionalWord "INTO"
  let table ← below.table
  keyword "USING"
  let other ← below.table
  keyword "ON"
  let condition ← expr below
  let cases_ ← many (behind "WHEN" (mergeCase below))
  let output ← mergeOutput below
  return .other ("MERGE" ++ into ++ " " ++ table.text ++ " USING " ++ other.text ++ " ON "
    ++ condition.text ++ " " ++ Text.join " " cases_ ++ output)

/-- Reads a statement of this kind behind its first word. -/
def manipulationRest (below : Level) (k : String) : Parser Statement :=
  match k with
  | "UPDATE" => updateRest below
  | "DELETE" => deleteRest below
  | "MERGE" => mergeRest below
  | k => insertRest below k

end Parser
end Sql
end PolyglotSql
