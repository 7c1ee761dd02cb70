import PolyglotSql.Sql.Parser.Query

/-!
# PolyglotSql.Sql.Parser.Session

Statements on cursors, on prepared statements and on the session itself, and statements that explain
others. They are read to be written again, and are kept as text.
-/

namespace PolyglotSql
namespace Sql
namespace Parser

/-! ## Cursors -/

/-- Reads a cursor behind `DECLARE`. -/
def cursorDeclaration (below : Level) : Parser Statement := do
  let n ← name
  let binary ← optionalWord "BINARY"
  let sensitivity ← takeOneOf ["INSENSITIVE", "ASENSITIVE"]
  let still ← if ← takeKeywords ["NO", "SCROLL"] then pure " NO SCROLL" else optionalWord "SCROLL"
  keyword "CURSOR"
  let hold ← match ← takeOneOf ["WITH", "WITHOUT"] with
    | some k => do
      keyword "HOLD"
      pure (" " ++ k ++ " HOLD")
    | none => pure ""
  keyword "FOR"
  let q ← below.query
  return .other ("DECLARE " ++ n.text ++ binary ++ optional " " sensitivity ++ still ++ " CURSOR" ++ hold
    ++ " FOR " ++ q.text)

/-- Reads how many rows a cursor gives and where they are, as it is written. -/
def fetchDirection : Parser String := do
  match ← takeOneOf ["NEXT", "PRIOR", "FIRST", "LAST", "ALL", "ABSOLUTE", "RELATIVE", "FORWARD",
      "BACKWARD"] with
  | some k =>
    if ["NEXT", "PRIOR", "FIRST", "LAST", "ALL"].contains k then return k
    if ["FORWARD", "BACKWARD"].contains k then
      if ← takeKeyword "ALL" then return k ++ " ALL"
    return k ++ " " ++ (← numberValue).written
  | none => return (← numberValue).written

/-- Reads rows of a cursor behind `FETCH`. -/
def fetchRest : Parser Statement := do
  let direction ← fetchDirection
  match ← takeOneOf ["FROM", "IN"] with
  | none => failHere "Expected FROM or IN"
  | some k =>
    let n ← name
    let target ← behind "INTO" path
    return .other ("FETCH " ++ direction ++ " " ++ k ++ " " ++ n.text
      ++ optional " INTO " (target.map pathText))

/-! ## Prepared statements -/

/-- Reads a prepared statement behind `PREPARE`. -/
def prepareRest (below : Level) : Parser Statement := do
  let n ← nameShown
  let types ← if ← peekSymbol "(" then parens (separated (dataType below)) else pure []
  keyword "AS"
  let s ← statementShown below
  return .other ("PREPARE " ++ n ++ " "
    ++ (if types.isEmpty then "" else "(" ++ Text.join ", " types ++ ") ") ++ "AS " ++ s)

/-- Reads the arguments of an executed statement without parentheses, as they are written behind a
blank; there may be none before some words. -/
def bareArguments (below : Level) : Parser String := do
  let t ← peek
  let none_ := t.token == .eof || t.token == .symbol ";"
    || ["USING", "OUTPUT", "DEFAULT"].contains t.token.keyword
  if none_ then return "" else return listedExprs " " (← exprs below)

/-- Reads an executed statement behind `EXECUTE`. -/
def executeRest (below : Level) : Parser Statement := do
  let immediate ← takeKeyword "IMMEDIATE"
  let n ← if immediate then pure " IMMEDIATE" else (" " ++ ·) <$> pathShown
  let arguments ← if ← peekSymbol "(" then tupleText <$> tuple below else bareArguments below
  let into ← behind "INTO" (separated nameShown)
  let using_ ← behind "USING" (separated (aliasedExpr below))
  let output ← optionalWord "OUTPUT"
  let default_ ← optionalWord "DEFAULT"
  return .other ("EXECUTE" ++ n ++ arguments ++ listed " INTO " (into.getD [])
    ++ listed " USING " ((using_.getD []).map Phrase.text) ++ output ++ default_)

/-- Reads a called procedure behind `CALL`. -/
def callRest (below : Level) : Parser Statement := do
  let n ← path
  if ← peekSymbol "(" then return .other ("CALL " ++ (← callBehind below n).text)
  return .other ("CALL " ++ pathText n)

/-! ## Explanations -/

def explanation (below : Level) (k : String) : Parser String := do
  if k == "EXPLAIN" && (← peekSymbol "(") then
    let options ← parens <| separated do
      let n ← name
      if (← peekSymbol ",") || (← peekSymbol ")") then return n.text
      return n.text ++ " " ++ (← expr below).text
    return " (" ++ Text.join ", " options ++ ")"
  if ← takeKeywords ["QUERY", "PLAN"] then return " QUERY PLAN"
  if ← takeKeyword "ESTIMATE" then return " ESTIMATE"
  let analyze ← optionalWord "ANALYZE"
  let verbose ← optionalWord "VERBOSE"
  let format ← behind "FORMAT" do
    let sign ← takeSymbol "="
    let kind ← match ← takeOneOf ["JSON", "TEXT", "GRAPHVIZ"] with
      | some kind => pure kind
      | none => expected "fileformat"
    return (if sign then "=" else " ") ++ kind
  return analyze ++ verbose ++ optional " FORMAT" format

/-- Reads what is explained behind a keyword: a statement or a table. -/
def explainRest (below : Level) (k : String) : Parser Statement := do
  let how ← explanation below k
  let start ← peek
  match ← maybe (statementShown below) with
  | some s =>
    if ["EXPLAIN", "DESCRIBE", "DESC"].contains start.token.keyword then
      fail "Explain must be root of the plan"
    return .other (k ++ how ++ " " ++ s)
  | none =>
    let format ← takeOneOf ["EXTENDED", "FORMATTED"]
    return .other (k ++ optional " " format ++ " " ++ pathText (← path))

/-! ## The session itself -/

/-- Reads a statement of this kind behind its first word. -/
def sessionRest (below : Level) (k : String) : Parser Statement := do
  match k with
  | "DECLARE" => cursorDeclaration below
  | "FETCH" => fetchRest
  | "OPEN" => return .other ("OPEN " ++ (← nameShown))
  | "CLOSE" =>
    if ← takeKeyword "ALL" then return .other "CLOSE ALL"
    return .other ("CLOSE " ++ (← nameShown))
  | "PREPARE" => prepareRest below
  | "EXECUTE" | "EXEC" => executeRest below
  | "DEALLOCATE" =>
    let word ← optionalWord "PREPARE"
    return .other ("DEALLOCATE" ++ word ++ " " ++ (← nameShown))
  | "CALL" => callRest below
  | "USE" => return .other ("USE " ++ (← pathShown))
  | "KILL" =>
    let kind ← optionalOneOf ["CONNECTION", "QUERY", "MUTATION"]
    return .other ("KILL" ++ kind ++ " " ++ toString (← literalNumber))
  | "ASSERT" =>
    let e ← expr below
    return .other ("ASSERT " ++ e.text ++ (← optionalPart below "AS"))
  | "DISCARD" =>
    match ← takeOneOf ["ALL", "PLANS", "SEQUENCES", "TEMP", "TEMPORARY"] with
    | some k => return .other ("DISCARD " ++ if k == "TEMPORARY" then "TEMP" else k)
    | none => expected "ALL, PLANS, SEQUENCES, TEMP or TEMPORARY after DISCARD"
  | "INSTALL" | "LOAD" | "LISTEN" => return .other (k ++ " " ++ (← nameShown))
  | "UNLISTEN" =>
    if ← takeSymbol "*" then return .other "UNLISTEN *"
    match ← maybe nameShown with
    | some n => return .other ("UNLISTEN " ++ n)
    | none => expected "wildcard or identifier"
  | "NOTIFY" =>
    let n ← nameShown
    let payload ← if ← takeSymbol "," then some <$> bareLiteral else pure none
    return .other ("NOTIFY " ++ n ++ optional ", " payload)
  | k => explainRest below k

end Parser
end Sql
end PolyglotSql
