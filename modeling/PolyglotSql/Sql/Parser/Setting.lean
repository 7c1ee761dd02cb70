import PolyglotSql.Sql.Parser.Transaction

/-!
# PolyglotSql.Sql.Parser.Setting

Statements that set, show and reset the settings of a session, and that list what a database holds.
They are read to be written again, and are kept as text.
-/

namespace PolyglotSql
namespace Sql
namespace Parser

/-! ## Settings -/

/-- Reads how far a setting reaches, as it is written before a blank, if it is stated. -/
def optionalScope : Parser String := do
  match ← takeOneOf ["SESSION", "LOCAL", "GLOBAL"] with
  | some k => return k ++ " "
  | none => return ""

def takeAssigned : Parser Bool := do
  if ← takeSymbol "=" then return true else takeKeyword "TO"

def settingAssignment (below : Level) : Parser String := do
  let scope ← optionalScope
  let n ← pathShown
  unless ← takeAssigned do expected "assignment operator"
  let e ← expr below
  return scope ++ n ++ " = " ++ e.text

/-- The token at which the reading of an expression stopped: the one that is no expression is taken. -/
def stoppedAt (rest : List Located) : ParseError → Option Located
  | .expected what found =>
    if what == "an expression" then (rest.dropWhile (· != found)).tail.head? else some found
  | _ => none

def settingValue (below : Level) : Parser String := do
  if ["SELECT", "WITH"].contains (← peekKeyword) then
    return "(" ++ (← below.query).text ++ ")"
  let start ← get
  match expr below start with
  | .ok (e, after) =>
    set after
    return e.text
  | .error e => if e.isFinal then throw e else expectedAt "variable value" ((stoppedAt start.rest e).getD .eof)

def settingValues (below : Level) : Parser String := do
  return Text.join ", " (← separated (settingValue below))

/-- Reads a setting behind its scope and what states that it is one of the old kind. -/
def plainSetting (below : Level) (start : Cursor) (scope hive : String) : Parser Statement := do
  unless scope.isEmpty do set start
  match ← maybe (separated (settingAssignment below)) with
  | some [assigned] => return .other ("SET " ++ hive ++ assigned)
  | some assigned => return .other ("SET " ++ Text.join ", " assigned)
  | none => pure ()
  if ← takeSymbol "(" then
    let names ← namesShown
    symbol ")"
    unless ← takeAssigned do expected "equals sign or TO"
    return .other ("SET (" ++ names ++ ") = (" ++ (← parens (settingValues below)) ++ ")")
  let n ← pathShown
  unless ← takeAssigned do expected "equals sign or TO"
  return .other ("SET " ++ scope ++ hive ++ n ++ " = " ++ (← settingValues below))

/-- Reads a setting behind `SET`. -/
def settingRest (below : Level) : Parser Statement := do
  let hive ← if ← takeKeyword "HIVEVAR" then do
      symbol ":"
      pure "HIVEVAR:"
    else pure ""
  let start ← get
  let scope ← if hive.isEmpty then optionalScope else pure ""
  let role : Parser String := do
    keyword "ROLE"
    if ← takeKeyword "NONE" then return "NONE" else nameShown
  if let some role ← maybe role then return .other ("SET " ++ scope ++ "ROLE " ++ role)
  let first ← peek
  let zone ← if ← takeKeywords ["TIME", "ZONE"] then pure true else takeKeyword "TIMEZONE"
  if zone then
    if ← takeAssigned then
      return .other ("SET " ++ scope ++ hive ++ "TIMEZONE = " ++ (← settingValues below))
    let e ← expr below
    return .other ("SET " ++ (if scope == "LOCAL " then scope else "") ++ "TIME ZONE " ++ e.text)
  match ← takeOneOf ["NAMES", "CHARACTERISTICS", "TRANSACTION", "AUTHORIZATION"] with
  | some "NAMES" =>
    if ← takeKeyword "DEFAULT" then return .other "SET NAMES DEFAULT"
    let n ← nameShown
    let collation ← behind "COLLATE" literalText
    return .other ("SET NAMES " ++ n ++ optional " COLLATE " collation)
  | some "CHARACTERISTICS" =>
    keywords ["AS", "TRANSACTION"]
    return .other ("SET SESSION CHARACTERISTICS AS TRANSACTION" ++ (← transactionModes))
  | some "TRANSACTION" =>
    if ← takeKeyword "SNAPSHOT" then
      return .other ("SET TRANSACTION SNAPSHOT " ++ (← value).written)
    return .other ("SET TRANSACTION" ++ (← transactionModes))
  | some _ =>
    if scope.isEmpty then
      expectedAt "SESSION, LOCAL, or other scope modifier before AUTHORIZATION" first
    if ← takeKeyword "DEFAULT" then return .other "SET SESSION AUTHORIZATION DEFAULT"
    return .other ("SET SESSION AUTHORIZATION " ++ (← nameShown))
  | none => plainSetting below start scope hive

/-- Reads a setting that returns to what it was, behind `RESET`. -/
def resetRest : Parser Statement := do
  if ← takeKeyword "ALL" then return .other "RESET ALL"
  return .other ("RESET " ++ (← pathShown))

/-- Reads a setting of the engine behind `PRAGMA`. -/
def pragmaRest : Parser Statement := do
  let lead := "PRAGMA " ++ (← pathShown)
  let setting : Parser Literal := do
    let start ← peek
    match ← value with
    | .null | .boolean _ => expectedAt "number or string or ? placeholder" start
    | v => return v
  if ← takeSymbol "(" then
    let v ← setting
    symbol ")"
    return .other (lead ++ "(" ++ v.written ++ ")")
  if ← takeSymbol "=" then return .other (lead ++ " = " ++ (← setting).written)
  return .other lead

/-! ## Lists of what there is -/

/-- Reads which entries of a list are shown, as it is written behind a blank, if it is stated. -/
def optionalListFilter (below : Level) : Parser String := do
  if ← takeKeyword "LIKE" then return " LIKE " ++ (← quotedLiteral)
  if ← takeKeyword "ILIKE" then
    return " ILIKE " ++ String.ofList (doubleQuotes '\'' '\x00' (← literalText).toList)
  if ← takeKeyword "WHERE" then return " WHERE " ++ (← expr below).text
  return optional " " (← maybe bareLiteral)

/-- Reads where the entries of a list are, as it is written behind a blank, if it is stated. -/
def optionalListPlace : Parser String := do
  let some side ← takeOneOf ["FROM", "IN"] | return ""
  match ← takeOneOf ["ACCOUNT", "DATABASE", "SCHEMA", "TABLE", "VIEW"] with
  | some kind =>
    let unnamed ← if kind == "DATABASE" || kind == "SCHEMA" then do
        if ← peekKeywords ["STARTS", "WITH"] then pure true else keywordAt 0 "LIMIT"
      else pure false
    let n ← if unnamed then pure none else maybe pathShown
    return " " ++ side ++ " " ++ kind ++ optional " " n
  | none =>
    let n ← path
    if (← takeOneOf ["FROM", "IN"]).isSome then
      return " " ++ side ++ " " ++ pathText ((← name) :: n)
    return " " ++ side ++ " " ++ pathText n

/-- Reads which part of a list is shown, as it is written behind a blank, if it is stated. -/
def listPart (below : Level) : Parser String := do
  let place ← optionalListPlace
  let filter ← optionalListFilter below
  let starts ← behindAll ["STARTS", "WITH"] value
  let limit ← if ← takeKeyword "LIMIT" then do
      if ← takeKeyword "ALL" then pure none else some <$> expr below
    else pure none
  let first ← behind "FROM" value
  return place ++ optional " STARTS WITH " (starts.map Literal.written)
    ++ optional " LIMIT " (limit.map Expr.text) ++ optional " FROM " (first.map Literal.written) ++ filter

/-- The kinds of lists that have nothing but a filter. -/
def filteredLists : List (List String) :=
  [["COLLATION"], ["VARIABLES"], ["STATUS"], ["CHARACTER", "SET"], ["CHARSET"]]

/-- Reads what is shown behind `SHOW`. -/
def showRest (below : Level) : Parser Statement := do
  let flag (k : String) : Parser String := do
    if ← takeKeyword k then return k ++ " " else return ""
  let terse ← flag "TERSE"
  let extended ← flag "EXTENDED"
  let full ← flag "FULL"
  let session ← flag "SESSION"
  let global ← flag "GLOBAL"
  let external ← flag "EXTERNAL"
  if (← takeOneOf ["COLUMNS", "FIELDS"]).isSome then
    return .other ("SHOW " ++ extended ++ full ++ "COLUMNS" ++ (← listPart below))
  if ← takeKeyword "TABLES" then
    let history ← if external.isEmpty then optionalWord "HISTORY" else pure ""
    return .other ("SHOW " ++ terse ++ extended ++ full ++ external ++ "TABLES" ++ history ++ (← listPart below))
  if let some k ← firstOf [["MATERIALIZED", "VIEWS"], ["VIEWS"]] then
    return .other ("SHOW " ++ terse ++ k ++ (← listPart below))
  if ← takeKeyword "FUNCTIONS" then return .other ("SHOW FUNCTIONS" ++ (← optionalListFilter below))
  unless (extended ++ full).isEmpty do
    fail "EXTENDED/FULL are not supported with this type of SHOW query"
  if ← takeKeyword "CREATE" then
    let k ← oneOf ["TABLE", "TRIGGER", "FUNCTION", "PROCEDURE", "EVENT", "VIEW"]
    return .other ("SHOW CREATE " ++ k ++ " " ++ (← pathShown))
  if let some k ← firstOf filteredLists then
    let scope := if k == "VARIABLES" || k == "STATUS" then global ++ session else ""
    return .other ("SHOW " ++ scope ++ k ++ (← optionalListFilter below))
  if let some k ← takeOneOf ["DATABASES", "SCHEMAS"] then
    let history ← optionalWord "HISTORY"
    return .other ("SHOW " ++ terse ++ k ++ history ++ (← listPart below))
  return .other ("SHOW" ++ blankEach ((← looseNames).map Name.text))

end Parser
end Sql
end PolyglotSql
