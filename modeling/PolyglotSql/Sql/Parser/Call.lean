import PolyglotSql.Sql.Parser.DataType

/-!
# PolyglotSql.Sql.Parser.Call

Function calls: their arguments with the clauses behind them, and what may follow the closing
parenthesis. Sorting terms and windows are read here too, for calls use both.
-/

namespace PolyglotSql
namespace Sql

/-- Whether an argument list states how it treats `NULL`. -/
def Arguments.treatsNulls : Arguments → Bool
  | .list _ _ clauses => clauses.any fun
    | .nulls _ => true
    | _ => false
  | _ => false

namespace Parser

/-- Reads a statement within another one, as it is written. -/
def statementShown (below : Level) : Parser String := do
  let s ← below.statement
  unless s.isComplete do throw (.broken missingPart)
  return s.text

def expr (below : Level) : Parser Expr :=
  below.subexpr 0

def exprs (below : Level) : Parser (List Expr) :=
  separated (expr below)

/-! ## Sorting -/

/-- Reads a part of a form behind its keyword, as it is written behind a blank. -/
def optionalPart (below : Level) (k : String) : Parser String := do
  match ← behind k (expr below) with
  | some e => return " " ++ k ++ " " ++ e.text
  | none => return ""

def exprBehind (below : Level) (k : String) : Parser (Option Expr) :=
  behind k (expr below)

/-- The outline of an expression that may be missing. -/
def possibleExpr (e : Option Expr) : String :=
  possible (e.map Expr.outline)

/-- Expressions behind a lead, as they are written; nothing when there are none. -/
def listedExprs (lead : String) (es : List Expr) : String :=
  listed lead (exprTexts es)

/-- Expressions in parentheses, as they are written. -/
def tupleText (es : List Expr) : String :=
  "(" ++ Text.join ", " (exprTexts es) ++ ")"

def exprsOutline (es : List Expr) : String :=
  bracketed (exprOutlines es)

def optionalDirection : Parser (Option Bool) := do
  if ← takeKeyword "ASC" then return some true
  if ← takeKeyword "DESC" then return some false
  return none

/-- Reads where `NULL` is sorted, if it is stated. -/
def optionalNulls : Parser (Option Bool) := do
  if ← takeKeywords ["NULLS", "FIRST"] then return some true
  if ← takeKeywords ["NULLS", "LAST"] then return some false
  return none

/-- Reads how an expression is sorted, behind the expression. -/
def orderRest (below : Level) (e : Expr) : Parser OrderTerm := do
  let ascending ← optionalDirection
  let nullsFirst ← optionalNulls
  let fill ← behindAll ["WITH", "FILL"] do
    let first ← exprBehind below "FROM"
    let last ← exprBehind below "TO"
    let step ← exprBehind below "STEP"
    let part (k : String) (e : Option Expr) : String := optional (" " ++ k ++ " ") (e.map Expr.text)
    return (⟨"WITH FILL" ++ part "FROM" first ++ part "TO" last ++ part "STEP" step,
      record "WithFill" [("from", possibleExpr first), ("to", possibleExpr last),
        ("step", possibleExpr step)]⟩ : Phrase)
  return { expr := e, ascending, nullsFirst, fill }

def orderTerm (below : Level) : Parser OrderTerm := do
  orderRest below (← expr below)

/-- Reads the terms behind `ORDER BY`, if there are any. -/
def optionalOrder (below : Level) : Parser (List OrderTerm) := do
  if ← takeKeywords ["ORDER", "BY"] then separated (orderTerm below) else return []

/-- Reads the terms behind `ORDER BY`, as they are written behind a blank, if there are any. -/
def orderShown (below : Level) : Parser String := do
  return listed " ORDER BY " (orderTexts (← optionalOrder below))

/-! ## Intervals -/

/-- The units of time that are written in capitals, and the names of their kinds. -/
def timeUnits : List (String × String) :=
  ["YEAR", "YEARS", "MONTH", "MONTHS", "WEEKS", "DAY", "DAYS", "HOUR", "HOURS", "MINUTE",
   "MINUTES", "SECOND", "SECONDS", "CENTURY", "DECADE", "DOW", "DOY", "EPOCH", "ISODOW", "ISOYEAR",
   "JULIAN", "MICROSECOND", "MICROSECONDS", "MILLENIUM", "MILLENNIUM", "MILLISECOND",
   "MILLISECONDS", "NANOSECOND", "NANOSECONDS", "QUARTER", "TIMEZONE"].map
      (fun k => (k, capitalized k))
    ++ [("TIMEZONE_HOUR", "TimezoneHour"), ("TIMEZONE_MINUTE", "TimezoneMinute"), ("WEEK", "Week(None)")]

/-- The parts of a date that are written in capitals, and the names of their kinds. -/
def dateParts : List (String × String) :=
  timeUnits ++ [("DAYOFWEEK", "DayOfWeek"), ("DAYOFYEAR", "DayOfYear"), ("DATE", "Date"),
    ("DATETIME", "Datetime"), ("ISOWEEK", "IsoWeek"), ("TIME", "Time"),
    ("TIMEZONE_ABBR", "TimezoneAbbr"), ("TIMEZONE_REGION", "TimezoneRegion")]

def datePart : Parser Phrase := do
  let t ← next
  match t.token with
  | .word w =>
    if w.keyword = "WEEK" then
      if ← takeSymbol "(" then
        let day ← name
        symbol ")"
        return ⟨"WEEK(" ++ day.text ++ ")", enclosed "Week" (enclosed "Some" day.outline)⟩
    match dateParts.lookup w.keyword with
    | some label => return ⟨w.keyword, label⟩
    | none =>
      let n := Name.ofWord w t.span
      return ⟨n.text, enclosed "Custom" n.outline⟩
  | .text .plain s =>
    let n := Name.ofText s
    return ⟨n.text, enclosed "Custom" n.outline⟩
  | _ => expectedAt "date/time field" t

/-- An interval: its value, its fields and their precisions. -/
def intervalShown (value : Expr) (unit last : Option Phrase) (precision fraction : Option Nat) : Phrase :=
  let seconds := unit.any (·.text == "SECOND") && last.isNone
  let text := "INTERVAL " ++ value.text ++ optional " " (unit.map Phrase.text)
    ++ (match seconds, precision, fraction with
      | true, some p, some f => " (" ++ toString p ++ ", " ++ toString f ++ ")"
      | _, some p, _ => " (" ++ toString p ++ ")"
      | _, none, _ => "")
    ++ optional " TO " (last.map Phrase.text)
    ++ (if seconds then "" else optional " (" (fraction.map (toString · ++ ")")))
  ⟨text, enclosed "Interval" (record "Interval"
    [("value", value.outline), ("leading_field", possiblePhrase unit),
      ("leading_precision", sizeOutline precision), ("last_field", possiblePhrase last),
      ("fractional_seconds_precision", sizeOutline fraction)])⟩

def interval (below : Level) : Parser Expr := do
  let value ← below.operand
  let k ← peekKeyword
  let unit ← if k != "" && (timeUnits.lookup k).isSome then some <$> datePart else pure none
  if unit.any (·.text == "SECOND") then
    let (precision, fraction) ← if ← takeSymbol "(" then do
        let precision ← literalNumber
        let fraction ← if ← takeSymbol "," then some <$> literalNumber else pure none
        symbol ")"
        pure (some precision, fraction)
      else pure (none, none)
    return .other (intervalShown value unit none precision fraction)
  let precision ← optionalSize
  let last ← behind "TO" datePart
  let fraction ← if last.any (·.text == "SECOND") then optionalSize else pure none
  return .other (intervalShown value unit last precision fraction)

/-! ## Windows -/

def frameBound (below : Level) : Parser Phrase := do
  if ← takeKeywords ["CURRENT", "ROW"] then return ⟨"CURRENT ROW", "CurrentRow"⟩
  let distance ← if ← takeKeyword "UNBOUNDED" then pure none else do
    match (← peek).token with
    | .text .plain _ => some <$> interval below
    | _ => some <$> expr below
  let shown := match distance with
    | some e => e.text
    | none => "UNBOUNDED"
  if ← takeKeyword "PRECEDING" then
    return ⟨shown ++ " PRECEDING", enclosed "Preceding" (possibleExpr distance)⟩
  if ← takeKeyword "FOLLOWING" then
    return ⟨shown ++ " FOLLOWING", enclosed "Following" (possibleExpr distance)⟩
  expected "PRECEDING or FOLLOWING"

def windowFrame (below : Level) : Parser Phrase := do
  let t ← next
  unless ["ROWS", "RANGE", "GROUPS"].contains t.token.keyword do
    expectedAt "ROWS, RANGE, GROUPS" t
  let units := t.token.keyword
  let shown (first : Phrase) (last : Option Phrase) : String :=
    record "WindowFrame" [("units", capitalized units), ("start_bound", first.outline),
      ("end_bound", possiblePhrase last)]
  if ← takeKeyword "BETWEEN" then
    let first ← frameBound below
    keyword "AND"
    let last ← frameBound below
    return ⟨units ++ " BETWEEN " ++ first.text ++ " AND " ++ last.text, shown first last⟩
  let first ← frameBound below
  return ⟨units ++ " " ++ first.text, shown first none⟩

def windowSpec (below : Level) : Parser Phrase := do
  let based ← match (← peek).token with
    | .word w =>
      if isKeyword w.keyword then pure none else some <$> name
    | _ => pure none
  let partition ← if ← takeKeywords ["PARTITION", "BY"] then exprs below else pure []
  let order ← optionalOrder below
  let frame ← if ← takeSymbol ")" then pure none else do
    let frame ← windowFrame below
    symbol ")"
    pure (some frame)
  let parts := [based.map Name.text, (if partition.isEmpty then none else some (listedExprs "PARTITION BY " partition)),
    (if order.isEmpty then none else some (listed "ORDER BY " (orderTexts order))), frame.map Phrase.text]
  return ⟨Text.join " " (parts.filterMap id), record "WindowSpec"
    [("window_name", possible (based.map Name.outline)), ("partition_by", exprsOutline partition),
      ("order_by", bracketed (orderOutlines order)), ("window_frame", possiblePhrase frame)]⟩

/-! ## Arguments -/

/-- Reads whether duplicates count, if it is stated: `true` for `DISTINCT`. -/
def optionalDuplicates : Parser (Option Bool) := do
  let start ← place
  let all ← takeKeyword "ALL"
  let distinct ← takeKeyword "DISTINCT"
  match all, distinct with
  | true, true => fail ("Cannot specify both ALL and DISTINCT" ++ start)
  | true, false => return some false
  | false, true => return some true
  | false, false => return none

/-- An expression, or an asterisk in place of one, with its place. -/
inductive Starred where
  | all (span : Span)
  | qualified (table : Path) (span : Span)
  | expr (e : Expr)

/-- Reads the rest of a dotted name behind its first parts, newest first, as far as it ends in an
asterisk, whose place is given. -/
def starredName (parts : List Name) : Parser (Option (Path × Span)) :=
  repeatUntil parts fun parts => do
    unless ← takeSymbol "." do return .inr none
    let t ← next
    match t.token with
    | .word w => return .inl (.ofWord w t.span :: parts)
    | .text .plain s => return .inl (.ofText s :: parts)
    | .placeholder s => return .inl (.bare s :: parts)
    | .symbol "*" => return .inr (some (parts.reverse, t.span))
    | _ => expectedAt "an identifier or a '*' after '.'" t

/-- Reads an expression, or an asterisk, which a dotted name may qualify. -/
def starred (below : Level) : Parser Starred := do
  let first ← peek
  if ← takeSymbol "*" then return .all first.span
  let start ← get
  let table ← match (← peekAt 0).token, (← peekAt 1).token with
    | .word _, .symbol "." | .text .plain _, .symbol "." => do
      let first ← name
      starredName [first]
    | _, _ => pure none
  match table with
  | some (table, span) => return .qualified table span
  | none =>
    set start
    .expr <$> expr below

/-- What an argument consists of. -/
def Starred.argument : Starred → Argument
  | .all _ => .wildcard
  | .qualified table _ =>
    .other ⟨pathText table ++ ".*", enclosed "Unnamed" (enclosed "QualifiedWildcard" (pathOutline table))⟩
  | .expr e => .expr e

/-- The outline of the value of an argument. -/
def Starred.outline : Starred → String
  | .all _ => "Wildcard"
  | .qualified table _ => enclosed "QualifiedWildcard" (pathOutline table)
  | .expr e => enclosed "Expr" e.outline

def namedOperator : Parser Phrase := do
  if ← takeKeyword "VALUE" then return ⟨"VALUE", "Value"⟩
  if ← takeSymbol "=>" then return ⟨"=>", "RightArrow"⟩
  if ← takeSymbol ":=" then return ⟨":=", "Assignment"⟩
  expected "argument operator"

def argument (below : Level) : Parser Argument := do
  let named ← maybe do
    let n ← name
    let operator ← namedOperator
    let value ← starred below
    return (⟨n.text ++ " " ++ operator.text ++ " " ++ value.argument.text, record "Named"
      [("name", n.outline), ("arg", value.outline), ("operator", operator.outline)]⟩ : Phrase)
  match named with
  | some shown => return .other shown
  | none => Starred.argument <$> starred below

/-- Reads how `NULL` is treated, if it is stated. -/
def optionalNullTreatment : Parser (Option Phrase) := do
  match ← takeOneOf ["RESPECT", "IGNORE"] with
  | some k =>
    keyword "NULLS"
    return some ⟨k ++ " NULLS", capitalized k ++ "Nulls"⟩
  | none => return none

/-- Reads what a function that builds JSON does with `NULL`, and the type that it returns. -/
def jsonClauses (below : Level) : Parser (List ArgumentClause) := do
  let clause (kind : String) (p : Phrase) : ArgumentClause := .other ⟨p.text, enclosed kind p.outline⟩
  let nulls ← if ← takeKeywords ["ABSENT", "ON", "NULL"] then
      pure [clause "JsonNullClause" ⟨"ABSENT ON NULL", "AbsentOnNull"⟩]
    else if ← takeKeywords ["NULL", "ON", "NULL"] then
      pure [clause "JsonNullClause" ⟨"NULL ON NULL", "NullOnNull"⟩]
    else pure []
  let returning ← behind "RETURNING" (wholeType below)
  return nulls ++ (returning.map fun type => clause "JsonReturningClause"
    ⟨"RETURNING " ++ type.text, record "JsonReturningClause" [("data_type", type.outline)]⟩).toList

/-- Reads what happens to a text that becomes too long, if it is stated. -/
def optionalOverflow (below : Level) : Parser (Option ArgumentClause) :=
  behindAll ["ON", "OVERFLOW"] do
    if ← takeKeyword "ERROR" then return .other ⟨"ON OVERFLOW ERROR", "OnOverflow(Error)"⟩
    keyword "TRUNCATE"
    let filler ← match (← peek).token with
      | .text .plain _ | .text .escaped _ | .text .unicode _ | .text .national _ | .text .hex _ =>
        some <$> expr below
      | t =>
        if t.keyword = "WITH" ∨ t.keyword = "WITHOUT" then pure none
        else expected "either filler, WITH, or WITHOUT in LISTAGG"
    match ← takeOneOf ["WITH", "WITHOUT"] with
    | some k =>
      keyword "COUNT"
      return .other ⟨"ON OVERFLOW TRUNCATE" ++ optional " " (filler.map Expr.text) ++ " " ++ k ++ " COUNT",
        enclosed "OnOverflow" (record "Truncate"
          [("filler", possibleExpr filler), ("with_count", truth (k == "WITH"))])⟩
    | none => expected "either WITH or WITHOUT in LISTAGG"

def argumentClauses (below : Level) : Parser (List ArgumentClause) := do
  let nulls ← optionalNullTreatment
  let order ← optionalOrder below
  let limit ← exprBehind below "LIMIT"
  let having ← behind "HAVING" do
    let bound ← oneOf ["MIN", "MAX"]
    let e ← expr below
    return ArgumentClause.other ⟨"HAVING " ++ bound ++ " " ++ e.text,
      enclosed "Having" (enclosed "HavingBound" (capitalized bound ++ ", " ++ e.outline))⟩
  let separator ← behind "SEPARATOR" do
    let v ← value
    return ArgumentClause.other ⟨"SEPARATOR " ++ v.written, enclosed "Separator" v.label⟩
  let overflow ← optionalOverflow below
  let json ← jsonClauses below
  return (nulls.map ArgumentClause.nulls).toList
    ++ (if order.isEmpty then [] else [.orderBy order])
    ++ (limit.map ArgumentClause.limit).toList ++ having.toList ++ separator.toList ++ overflow.toList
    ++ json

def argumentList (below : Level) : Parser Arguments := do
  let early ← jsonClauses below
  if ← takeSymbol ")" then return .list none [] early
  let duplicates ← optionalDuplicates
  let args ← separated (argument below)
  let clauses ← argumentClauses below
  symbol ")"
  return .list duplicates args (early ++ clauses)

/-! ## Calls -/

/-- A call without anything but its name and arguments. -/
def plainCall (path : Path) (arguments : Arguments) : Call :=
  { name := path, parameters := .none, arguments, withinGroup := [], filter := none,
    nullTreatment := none, overClause := none, braced := false }

/-- Reads the condition on the rows of an aggregate, if there is one. Its keyword is taken in any
case. -/
def optionalFilter (below : Level) : Parser (Option Expr) := do
  if ← takeKeyword "FILTER" then
    if ← takeSymbol "(" then
      if ← takeKeyword "WHERE" then
        let e ← expr below
        symbol ")"
        return some e
  return none

def optionalOver (below : Level) : Parser (Option Phrase) :=
  behind "OVER" do
    if ← takeSymbol "(" then
      let spec ← windowSpec below
      return ⟨"(" ++ spec.text ++ ")", enclosed "WindowSpec" spec.outline⟩
    let n ← name
    return ⟨n.text, enclosed "NamedWindow" n.outline⟩

def callBehind (below : Level) (path : Path) : Parser Call := do
  symbol "("
  let first ← argumentList below
  let (parameters, arguments) ← if ← takeSymbol "(" then do
      let arguments ← argumentList below
      pure (first, arguments)
    else pure (.none, first)
  let withinGroup ← behindAll ["WITHIN", "GROUP"] do
    parens do
      keywords ["ORDER", "BY"]
      separated (orderTerm below)
  let filter ← optionalFilter below
  let nullTreatment ← if arguments.treatsNulls then pure none else optionalNullTreatment
  let overClause ← optionalOver below
  return { name := path, parameters, arguments, withinGroup := withinGroup.getD [], filter,
           nullTreatment, overClause, braced := false }

end Parser
end Sql
end PolyglotSql
