import PolyglotSql.Sql.Parser.Pipe

/-!
# PolyglotSql.Sql.Parser.Query

Set operations between selects, and the clauses that order, limit and lock the rows of a query.
-/

namespace PolyglotSql
namespace Sql
namespace Parser

/-! ## Set operations -/

/-- The set operator that a keyword names, with its strength. -/
def setOperator? : String → Option (SetOperator × Nat)
  | "UNION" => some (.union, 10)
  | "EXCEPT" => some (.except, 10)
  | "MINUS" => some (.minus, 10)
  | "INTERSECT" => some (.intersect, 20)
  | _ => none

/-- A table as a query. -/
def tableShown (schema : Option String) (table : String) : Phrase :=
  ⟨"TABLE " ++ optional "" (schema.map (· ++ ".")) ++ table, enclosed "Table" (record "Table"
    [("table_name", enclosed "Some" (Text.quoted table)),
      ("schema_name", possible (schema.map Text.quoted))])⟩

/-- Reads a table as a query, behind its keyword. Three tokens are taken in any case. -/
def tableQuery : Parser Phrase := do
  let first ← next
  let second ← next
  let third ← next
  if second.token = .symbol "." then
    match first.token, third.token with
    | .word schema, .word table => return tableShown schema.value table.value
    | .word _, _ => expectedAt "Table name" third
    | _, _ => expectedAt "Schema name" first
  else
    match first.token with
    | .word table => return tableShown none table.value
    | _ => expectedAt "Table name" first

/-- Reads the body of a query up to its first set operator. -/
def queryOperand (below : Level) : Parser QueryBody := do
  let k ← peekKeyword
  if k == "SELECT" || k == "FROM" then .select <$> select below
  else if ← takeSymbol "(" then
    let q ← below.query
    symbol ")"
    return .nested q
  else if ← takeKeyword "VALUES" then .other <$> valuesRows below "VALUES"
  else if ← takeKeyword "VALUE" then .other <$> valuesRows below "VALUE"
  else if ← takeKeyword "TABLE" then .other <$> tableQuery
  else expected "SELECT, VALUES, or a subquery in the query body"

/-- Reads the body of a query, with the set operators stronger than given. -/
def queryBody (below : Level) (strength : Nat) : Parser QueryBody := do
  let first ← queryOperand below
  repeatUntil first fun left => do
    match setOperator? (← peekKeyword) with
    | none => return .inr left
    | some (op, next) =>
      if next ≤ strength then return .inr left
      skip
      let quantifier ← setQuantifier
      return .inl (.combined left op quantifier (← below.queryBody next))

/-! ## Queries -/

/-- Reads a named query of a `WITH` clause. -/
def namedQuery (below : Level) : Parser Phrase := do
  let n ← name
  let columns ← if ← keywordAt 0 "AS" then pure [] else aliasColumns below
  keyword "AS"
  symbol "("
  let q ← below.query
  let closing ← peek
  symbol ")"
  let origin ← behind "FROM" name
  let alias_ : TableAlias := { explicit := false, name := n, columns }
  return ⟨alias_.written ++ " AS (" ++ q.text ++ ")" ++ optional " FROM " (origin.map Name.text),
    record "Cte" [("alias", alias_.outline), ("query", q.outline),
      ("from", possible (origin.map Name.outline)), ("materialized", "None"),
      ("closing_paren_token", closing.outline)]⟩

/-- Reads a `WITH` clause, if there is one. -/
def optionalWith (below : Level) : Parser (Option Phrase) := do
  let first ← peek
  behind "WITH" do
    let recursive ← takeKeyword "RECURSIVE"
    let queries ← separated (namedQuery below)
    return ⟨"WITH " ++ (if recursive then "RECURSIVE " else "") ++ phrasesText queries,
      record "With" [("with_token", first.outline), ("recursive", truth recursive),
        ("cte_tables", phraseOutlines queries)]⟩

/-- Reads how gaps between sorted rows are filled, if it is stated. -/
def optionalInterpolate (below : Level) : Parser (Option Phrase) :=
  behind "INTERPOLATE" do
    let columns ← if ← takeSymbol "(" then do
        let columns ← separatedUntil (· == .symbol ")") do
          let n ← name
          let e ← exprBehind below "AS"
          return (⟨n.text ++ optional " AS " (e.map Expr.text),
            record "InterpolateExpr" [("column", n.outline), ("expr", possibleExpr e)]⟩ : Phrase)
        symbol ")"
        pure (some columns)
      else pure none
    return ⟨"INTERPOLATE" ++ optional " (" (columns.map (phrasesText · ++ ")")),
      record "Interpolate" [("exprs", possible (columns.map phraseOutlines))]⟩

/-- Reads the rows to skip behind `OFFSET`. -/
def offset (below : Level) : Parser Offset := do
  let value ← expr below
  match ← takeOneOf ["ROW", "ROWS"] with
  | some "ROW" => return ⟨value, .row⟩
  | some _ => return ⟨value, .rows⟩
  | none => return ⟨value, .none⟩

/-- Reads how many rows are given and how many are skipped, in either order. -/
def limitClause (below : Level) : Parser (Option LimitClause) := do
  let early ← behind "OFFSET" (offset below)
  if ← takeKeyword "LIMIT" then
    let limit ← if ← takeKeyword "ALL" then pure none else some <$> expr below
    match early, limit with
    | none, some first =>
      if ← takeSymbol "," then return some (.offsetComma first (← expr below))
    | _, _ => pure ()
    let by_ ← behind "BY" (exprs below)
    let offset ← if early.isSome then pure early else behind "OFFSET" (offset below)
    if limit.isNone && by_.isNone && offset.isNone then return none
    return some (.limitOffset limit offset (by_.getD []))
  return early.map fun offset => .limitOffset none (some offset) []

/-- Reads a `FETCH` clause behind its keyword. -/
def fetch : Parser Fetch := do
  let _ ← takeOneOf ["FIRST", "NEXT"]
  let (quantity, percent) ← if (← takeOneOf ["ROW", "ROWS"]).isSome then pure (none, false) else do
    let quantity ← valueExpr
    let percent ← takeKeyword "PERCENT"
    let _ ← takeOneOf ["ROW", "ROWS"]
    pure (some quantity, percent)
  let withTies ← if ← takeKeyword "ONLY" then pure false else takeKeywords ["WITH", "TIES"]
  return { withTies, percent, quantity }

/-- Reads a lock behind `FOR`. -/
def lock : Parser Phrase := do
  let k ← oneOf ["UPDATE", "SHARE"]
  let table ← behind "OF" path
  let wait : Option Phrase ← if ← takeKeyword "NOWAIT" then pure (some ⟨"NOWAIT", "Nowait"⟩)
    else if ← takeKeywords ["SKIP", "LOCKED"] then pure (some ⟨"SKIP LOCKED", "SkipLocked"⟩)
    else pure none
  return ⟨"FOR " ++ k ++ optional " OF " (table.map pathText) ++ Phrase.behindBlank wait,
    record "LockClause" [("lock_type", capitalized k), ("of", possible (table.map pathOutline)),
      ("nonblock", possiblePhrase wait)]⟩

/-- Reads the options behind the form of an answer, each behind a comma: some of a list of words,
and `ROOT` with a name. A comma may stand without an option. The last option comes first. -/
def answerOptions (words : List String) : Parser (List (String × String)) :=
  repeatUntil [] fun found => do
    unless ← takeSymbol "," do return .inr found
    match ← takeOneOf ("ROOT" :: words) with
    | some "ROOT" => return .inl (("ROOT", ← parens literalText) :: found)
    | some k =>
      if k == "BINARY" then keyword "BASE64"
      return .inl ((k, "") :: found)
    | none => return .inl found

/-- The name of the root that options state. -/
def rootOutline (options : List (String × String)) : String :=
  possible ((options.lookup "ROOT").map Text.quoted)

/-- Whether a word is among options. -/
def stated (options : List (String × String)) (word : String) : String :=
  truth (options.lookup word).isSome

/-- Options as they are written, each behind a comma. -/
def answerOptionsText (order : List (String × String)) (options : List (String × String)) : String :=
  String.join <| order.map fun (k, shown) =>
    match options.lookup k with
    | some argument => ", " ++ if k == "ROOT" then "ROOT('" ++ argument ++ "')" else shown
    | none => ""

def jsonAnswer : Parser Phrase := do
  let some k ← takeOneOf ["AUTO", "PATH"] | fail "Expected FOR JSON [AUTO | PATH ]"
  let options ← answerOptions ["INCLUDE_NULL_VALUES", "WITHOUT_ARRAY_WRAPPER"]
  let order := ["ROOT", "INCLUDE_NULL_VALUES", "WITHOUT_ARRAY_WRAPPER"].map fun k => (k, k)
  return ⟨"FOR JSON " ++ k ++ answerOptionsText order options,
    record "Json" [("for_json", capitalized k), ("root", rootOutline options),
      ("include_null_values", stated options "INCLUDE_NULL_VALUES"),
      ("without_array_wrapper", stated options "WITHOUT_ARRAY_WRAPPER")]⟩

def xmlAnswer : Parser Phrase := do
  let some k ← takeOneOf ["RAW", "AUTO", "EXPLICIT", "PATH"]
    | fail "Expected FOR XML [RAW | AUTO | EXPLICIT | PATH ]"
  let namable := k == "RAW" || k == "PATH"
  let element ← if namable && (← peekSymbol "(") then some <$> parens literalText else pure none
  let options ← answerOptions ["ELEMENTS", "BINARY", "TYPE"]
  let order := [("BINARY", "BINARY BASE64"), ("TYPE", "TYPE"), ("ROOT", "ROOT"), ("ELEMENTS", "ELEMENTS")]
  let label := capitalized k
  return ⟨"FOR XML " ++ k ++ optional "('" (element.map (· ++ "')")) ++ answerOptionsText order options,
    record "Xml" [("for_xml", if namable then enclosed label (possible (element.map Text.quoted)) else label),
      ("elements", stated options "ELEMENTS"), ("binary_base64", stated options "BINARY"),
      ("root", rootOutline options), ("type", stated options "TYPE")]⟩

/-- Reads the form of an answer behind `FOR`, if one is stated. -/
def answerForm? : Parser (Option Phrase) := do
  if ← takeKeyword "BROWSE" then return some ⟨"FOR BROWSE", "Browse"⟩
  if ← takeKeyword "JSON" then return some (← jsonAnswer)
  if ← takeKeyword "XML" then return some (← xmlAnswer)
  return none

/-- Reads the locks behind a query and the form of the answer that may end them. -/
def locks : Parser (List Phrase × Option Phrase) :=
  repeatUntil [] fun found => do
    if ← takeKeyword "FOR" then
      match ← answerForm? with
      | some form => return .inr (found.reverse, some form)
      | none => return .inl ((← lock) :: found)
    return .inr (found.reverse, none)

def optionalFormat : Parser (Option Phrase) :=
  behind "FORMAT" do
    if ← takeKeyword "NULL" then return ⟨"FORMAT NULL", "Null"⟩
    let n ← name
    return ⟨"FORMAT " ++ n.text, enclosed "Identifier" n.outline⟩

def queryRest (below : Level) (withClause : Option Phrase) (body : QueryBody) : Parser Query := do
  let orderBy ← optionalOrder below
  let interpolate ← if orderBy.isEmpty then pure none else optionalInterpolate below
  let limit ← limitClause below
  let settings ← optionalSettings below
  let fetch ← behind "FETCH" fetch
  let (locks, answer) ← locks
  let format ← optionalFormat
  let steps ← many do
    if ← takeSymbol "|>" then some <$> pipeStep below else return none
  return { withClause, body, orderBy, interpolate, limit, settings, fetch, locks, answer, format, steps }

/-- Reads a query. Behind `WITH` a statement that changes rows may stand in its place. -/
def query (below : Level) : Parser Query := do
  let withClause ← optionalWith below
  let k ← peekKeyword
  if ["INSERT", "UPDATE", "DELETE", "MERGE"].contains k then
    let s ← below.statement
    return { Query.plain (.other ⟨s.text, s.text⟩) with withClause }
  queryRest below withClause (← below.queryBody 0)

end Parser
end Sql
end PolyglotSql
