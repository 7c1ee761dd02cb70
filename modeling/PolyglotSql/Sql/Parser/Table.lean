import PolyglotSql.Sql.Parser.DocumentTable
import PolyglotSql.Sql.Parser.RowPattern

/-!
# PolyglotSql.Sql.Parser.Table

Tables, what stands in place of them, and the joins between them.
-/

namespace PolyglotSql
namespace Sql

def TableFactor.alias? : TableFactor → Option TableAlias
  | .table _ alias_ _ => alias_
  | .derived _ _ alias_ => alias_
  | .nested _ alias_ => alias_
  | .other _ alias_ _ _ _ => alias_

def TableFactor.withAlias (table : TableFactor) (alias_ : TableAlias) : TableFactor :=
  match table with
  | .table name _ clauses => .table name alias_ clauses
  | .derived lateral q _ => .derived lateral q alias_
  | .nested source _ => .nested source alias_
  | .other written _ afterAlias kind fields => .other written alias_ afterAlias kind fields

/-- A query that is nothing but its body. -/
def Query.plain (body : QueryBody) : Query :=
  { withClause := none, body, orderBy := [], interpolate := none, limit := none, settings := none,
    fetch := none, locks := [], answer := none, format := none, steps := [] }

namespace Parser

/-! ## Aliases -/

/-- Keywords that are no alias of a table without `AS`. -/
def notTableAliases : List String :=
  ["WITH", "EXPLAIN", "ANALYZE", "SELECT", "WHERE", "GROUP", "SORT", "HAVING", "ORDER", "PIVOT",
   "UNPIVOT", "TOP", "LATERAL", "VIEW", "LIMIT", "OFFSET", "FETCH", "UNION", "EXCEPT", "INTERSECT",
   "MINUS", "ON", "JOIN", "INNER", "CROSS", "FULL", "LEFT", "RIGHT", "NATURAL", "USING", "CLUSTER",
   "DISTRIBUTE", "GLOBAL", "ANTI", "SEMI", "RETURNING", "OUTPUT", "ASOF", "MATCH_CONDITION",
   "OUTER", "SET", "QUALIFY", "WINDOW", "END", "FOR", "PARTITION", "PREWHERE", "SETTINGS",
   "FORMAT", "START", "CONNECT", "MATCH_RECOGNIZE", "SAMPLE", "TABLESAMPLE", "FROM", "OPEN"]

/-- Keywords that are no alias of a result without `AS`. -/
def notColumnAliases : List String :=
  ["WITH", "EXPLAIN", "ANALYZE", "SELECT", "WHERE", "GROUP", "SORT", "HAVING", "ORDER", "TOP",
   "LATERAL", "VIEW", "LIMIT", "OFFSET", "FETCH", "UNION", "EXCEPT", "EXCLUDE", "INTERSECT", "MINUS",
   "CLUSTER", "DISTRIBUTE", "RETURNING", "FROM", "INTO", "END"]

/-- Reads an alias, if there is one: any word behind `AS`, or a word that is not reserved. -/
def optionalAlias (reserved : List String) : Parser (Option Name) := do
  let explicit ← takeKeyword "AS"
  let t ← peek
  match t.token with
  | .word w =>
    if explicit || !reserved.contains w.keyword then
      skip
      return some (.ofWord w t.span)
    return none
  | .text .plain s =>
    skip
    return some (.ofText s)
  | _ => if explicit then expectedAt "an identifier after AS" t else return none

/-- Reads the columns of an alias, each with an optional type, if there are any. -/
def aliasColumns (below : Level) : Parser (List Phrase) := do
  if ← takeSymbol "(" then
    let columns ← separated do
      let n ← name
      let type ← maybe (wholeType below)
      return (⟨n.text ++ optional " " (type.map Phrase.text), record "TableAliasColumnDef"
        [("name", n.outline), ("data_type", possiblePhrase type)]⟩ : Phrase)
    symbol ")"
    return columns
  return []

def optionalTableAlias (below : Level) : Parser (Option TableAlias) := do
  let explicit := (← peekKeyword) == "AS"
  match ← optionalAlias notTableAliases with
  | some name => return some { explicit, name, columns := ← aliasColumns below }
  | none => return none

/-- Reads the alias of a table that has none, if there is one. -/
def aliased (below : Level) (table : TableFactor) : Parser TableFactor := do
  match ← optionalTableAlias below with
  | some alias_ => return table.withAlias alias_
  | none => return table

/-! ## Rows and samples -/

/-- Reads rows of values behind their keyword, `VALUES` or `VALUE`. If any row is marked as one, all
are written so. -/
def valuesRows (below : Level) (k : String) : Parser Phrase := do
  let rows ← separated do
    let marked ← takeKeyword "ROW"
    return (marked, ← parens (exprs below))
  let marked := rows.any (·.1)
  let mark := if marked then "ROW" else ""
  return ⟨k ++ " " ++ Text.join ", " (rows.map fun row => mark ++ tupleText row.2),
    enclosed "Values" (record "Values" [("explicit_row", truth marked),
      ("value_keyword", truth (k == "VALUE")), ("rows", bracketed (rows.map (exprsOutline ·.2)))])⟩

def sampleQuantity (below : Level) (grouped : Bool) : Parser Phrase := do
  let amount ← match ← maybe (expr below) with
    | some e => pure e
    | none => do
      let t ← next
      match t.token with
      | .word w => pure (.literal (.placeholder w.value) t.span)
      | _ => failHere "Expecting number or byte length e.g. 100M"
  let unit ← takeOneOf ["ROWS", "PERCENT"]
  let text := amount.text ++ optional " " unit
  return ⟨" " ++ (if grouped then "(" ++ text ++ ")" else text), record "TableSampleQuantity"
    [("parenthesized", truth grouped), ("value", amount.outline),
      ("unit", possible (unit.map capitalized))]⟩

/-- Reads which of several buckets is sampled, behind `BUCKET`. -/
def sampleBucket (below : Level) : Parser Phrase := do
  let bucket ← numberValue
  keywords ["OUT", "OF"]
  let total ← numberValue
  let on ← exprBehind below "ON"
  return ⟨" (BUCKET " ++ bucket.written ++ " OUT OF " ++ total.written ++ optional " ON " (on.map Expr.text)
      ++ ")",
    record "TableSampleBucket" [("bucket", bucket.label), ("total", total.label), ("on", possibleExpr on)]⟩

def optionalSample (below : Level) : Parser (Option Phrase) := do
  match ← takeOneOf ["TABLESAMPLE", "SAMPLE"] with
  | none => return none
  | some k =>
    let method ← takeOneOf ["BERNOULLI", "ROW", "SYSTEM", "BLOCK"]
    let grouped ← takeSymbol "("
    let bucketed ← if grouped then takeKeyword "BUCKET" else pure false
    let bucket ← if bucketed then some <$> sampleBucket below else pure none
    let quantity ← if bucketed then pure none else some <$> sampleQuantity below grouped
    if grouped then symbol ")"
    let seed ← match ← takeOneOf ["REPEATABLE", "SEED"] with
      | some k => do
        let n ← parens numberValue
        pure (some (⟨" " ++ k ++ " (" ++ n.written ++ ")",
          record "TableSampleSeed" [("modifier", capitalized k), ("value", n.label)]⟩ : Phrase))
      | none => pure none
    let offset ← exprBehind below "OFFSET"
    let text (p : Option Phrase) : String := optional "" (p.map Phrase.text)
    return some ⟨k ++ optional " " method ++ text quantity ++ text seed ++ text bucket
        ++ optional " OFFSET " (offset.map Expr.text),
      record "TableSample" [("modifier", if k == "SAMPLE" then "Sample" else "TableSample"),
        ("name", possible (method.map capitalized)), ("quantity", possiblePhrase quantity),
        ("seed", possiblePhrase seed), ("bucket", possiblePhrase bucket), ("offset", possibleExpr offset)]⟩

def optionalSettings (below : Level) : Parser (Option Phrase) :=
  behind "SETTINGS" do
    let settings ← separated do
      let key ← name
      symbol "="
      let v ← expr below
      return (⟨key.text ++ " = " ++ v.text,
        record "Setting" [("key", key.outline), ("value", v.outline)]⟩ : Phrase)
    return ⟨phrasesText settings, phraseOutlines settings⟩

def tableArguments (below : Level) : Parser Phrase := do
  let shown (args : List Argument) (settings : Option Phrase) : Phrase :=
    ⟨"(" ++ Text.join ", " (argumentTexts args ++ (settings.map ("SETTINGS " ++ ·.text)).toList) ++ ")",
      record "TableFunctionArgs"
        [("args", bracketed (argumentOutlines args)), ("settings", possiblePhrase settings)]⟩
  if ← takeSymbol ")" then return shown [] none
  let (args, settings) ← repeatUntil ([] : List Argument) fun found => do
    match ← optionalSettings below with
    | some settings => return .inr (found.reverse, some settings)
    | none =>
      let found := (← argument below) :: found
      if ← takeSymbol "," then return .inl found else return .inr (found.reverse, none)
  symbol ")"
  return shown args settings

/-! ## Turned tables -/

/-- An expression with an optional alias. -/
def aliasedShown (e : Expr) (alias_ : Option Name) : Phrase :=
  ⟨e.text ++ optional " AS " (alias_.map Name.text), record "ExprWithAlias"
    [("expr", e.outline), ("alias", possible (alias_.map Name.outline))]⟩

/-- Reads an expression with an optional alias behind `AS`. -/
def aliasedExpr (below : Level) : Parser Phrase := do
  let e ← expr below
  return aliasedShown e (← behind "AS" name)

def aliasedAggregate (below : Level) : Parser Phrase := do
  match (← next).token with
  | .word w =>
    let c ← callBehind below [.bare w.value]
    return aliasedShown (.call c) (← optionalAlias ["FOR"])
  | _ => expected "a function identifier"

/-- Reads the calls of aggregates, each with an optional alias, separated by commas. -/
def aliasedAggregates (below : Level) : Parser (List Phrase) :=
  separated (aliasedAggregate below)

def pivotValues (below : Level) : Parser Phrase :=
  parens do
    if ← takeKeyword "ANY" then
      let order ← optionalOrder below
      return ⟨"ANY" ++ listed " ORDER BY " (orderTexts order),
        enclosed "Any" (bracketed (orderOutlines order))⟩
    if ← peekQuery then
      let q ← below.query
      return ⟨q.text, enclosed "Subquery" q.outline⟩
    let values ← separated (aliasedExpr below)
    return ⟨phrasesText values, enclosed "List" (phraseOutlines values)⟩

/-- Reads what follows `PIVOT`. -/
def pivotRest (below : Level) (table : TableFactor) : Parser TableFactor :=
  parens do
    let aggregates ← aliasedAggregates below
    keyword "FOR"
    let columns ← if ← peekSymbol "(" then columnList (below.subexpr comparisonStrength)
      else List.singleton <$> below.subexpr comparisonStrength
    keyword "IN"
    let values ← pivotValues below
    let fallback ← behindAll ["DEFAULT", "ON", "NULL"] (parens (expr below))
    let columnsText := match columns with
      | [column] => column.text
      | columns => tupleText columns
    return .other
      (table.text ++ " PIVOT(" ++ phrasesText aggregates ++ " FOR " ++ columnsText ++ " IN (" ++ values.text
        ++ ")" ++ optional " DEFAULT ON NULL (" (fallback.map (·.text ++ ")")) ++ ")") none ""
      "Pivot" [("table", table.outline), ("aggregate_functions", phraseOutlines aggregates),
        ("value_column", exprsOutline columns), ("value_source", values.outline),
        ("default_on_null", possibleExpr fallback), ("alias", "None")]

/-- Reads what is done with `NULL` when columns become rows, if it is stated. -/
def optionalNullInclusion : Parser (Option Phrase) := do
  match ← takeOneOf ["INCLUDE", "EXCLUDE"] with
  | some k =>
    keyword "NULLS"
    return some ⟨" " ++ k ++ " NULLS ", capitalized k ++ "Nulls"⟩
  | none => return none

/-- Reads what follows `UNPIVOT`. -/
def unpivotRest (below : Level) (table : TableFactor) : Parser TableFactor := do
  let nulls ← optionalNullInclusion
  parens do
    let v ← expr below
    keyword "FOR"
    let n ← name
    keyword "IN"
    let columns ← columnList (aliasedExpr below)
    return .other
      (table.text ++ " UNPIVOT" ++ optional "" (nulls.map Phrase.text) ++ "(" ++ v.text ++ " FOR " ++ n.text
        ++ " IN (" ++ phrasesText columns ++ "))") none ""
      "Unpivot" [("table", table.outline), ("value", v.outline), ("name", n.outline),
        ("columns", phraseOutlines columns), ("null_inclusion", possiblePhrase nulls), ("alias", "None")]

/-- Reads how a table is turned, as often as it is. -/
def turned (below : Level) (table : TableFactor) : Parser TableFactor :=
  repeatUntil table fun table => do
    match ← takeOneOf ["PIVOT", "UNPIVOT"] with
    | some "PIVOT" => return .inl (← aliased below (← pivotRest below table))
    | some _ => return .inl (← aliased below (← unpivotRest below table))
    | none => return .inr table

/-! ## Tables -/

/-- Reads a query with its closing parenthesis and alias. -/
def derivedRest (below : Level) (lateral : Bool) : Parser TableFactor := do
  let q ← below.query
  symbol ")"
  return .derived lateral q (← optionalTableAlias below)

/-- Reads what stands in parentheses in place of a table, behind the opening one. A lone table is
the same without its parentheses, and takes an alias behind them if it has none. -/
def parenTable (below : Level) : Parser TableFactor := do
  if let some table ← maybe (derivedRest below false) then return ← turned below table
  let source ← below.source
  symbol ")"
  let alias_ ← optionalTableAlias below
  match source with
  | ⟨.nested inner innerAlias, []⟩ => return .nested ⟨.nested inner innerAlias, []⟩ alias_
  | ⟨table, []⟩ =>
    match alias_, table.alias? with
    | none, _ => return table
    | some _, some inner => fail ("duplicate alias " ++ inner.written)
    | some alias_, none => return table.withAlias alias_
  | source => return .nested source alias_

/-- Reads a table function behind `LATERAL`. -/
def lateralFunction (below : Level) : Parser TableFactor := do
  let n ← path
  symbol "("
  let args ← separatedUntil (· == .symbol ")") (argument below)
  symbol ")"
  return unnamedTable ("LATERAL " ++ pathText n ++ "(" ++ Text.join ", " (argumentTexts args) ++ ")")
    "Function" [("lateral", "true"), ("name", pathOutline n), ("args", bracketed (argumentOutlines args))]

/-- Reads an array in place of a table, behind `UNNEST`. -/
def unnestRest (below : Level) : Parser TableFactor := do
  let arrays ← parens (exprs below)
  let ordinality ← takeKeywords ["WITH", "ORDINALITY"]
  let alias_ ← optionalTableAlias below
  let offset ← behindAll ["WITH", "OFFSET"] (optionalAlias notColumnAliases)
  let offsetAlias := offset.join
  return .other ("UNNEST(" ++ listedExprs "" arrays ++ ")" ++ (if ordinality then " WITH ORDINALITY" else ""))
    alias_
    ((if offset.isSome then " WITH OFFSET" else "") ++ optional " AS " (offsetAlias.map Name.text))
    "UNNEST" [("alias", "None"), ("array_exprs", exprsOutline arrays), ("with_offset", truth offset.isSome),
      ("with_offset_alias", possible (offsetAlias.map Name.outline)), ("with_ordinality", truth ordinality)]

def optionalHints (below : Level) : Parser (List Phrase) := do
  unless ← peekKeywordBefore "WITH" "(" do return []
  skip
  return (← parens (exprs below)).map fun e => ⟨e.text, e.outline⟩

def namedTable (below : Level) : Parser TableFactor := do
  let n ← path
  let partitions ← behind "PARTITION" (parens (separated name))
  let arguments ← if ← takeSymbol "(" then some <$> tableArguments below else pure none
  let ordinality ← takeKeywords ["WITH", "ORDINALITY"]
  let alias_ ← optionalTableAlias below
  let hints ← optionalHints below
  let sample ← optionalSample below
  let table ← turned below
    (.table n alias_ { partitions := partitions.getD [], arguments, ordinality, hints, sample })
  if ← takeKeyword "MATCH_RECOGNIZE" then aliased below (← matchedRows below table) else return table

/-- Reads a table or what stands in place of one. -/
def tableFactor (below : Level) : Parser TableFactor := do
  if ← takeKeyword "LATERAL" then
    if ← takeSymbol "(" then derivedRest below true else aliased below (← lateralFunction below)
  else if ← takeKeyword "TABLE" then
    let e ← parens (expr below)
    aliased below (unnamedTable ("TABLE(" ++ e.text ++ ")") "TableFunction" [("expr", e.outline)])
  else if ← takeSymbol "(" then parenTable below
  else if ← peekKeywordBefore "VALUES" "(" then
    skip
    let rows ← valuesRows below "VALUES"
    return .derived false (.plain (.other rows)) (← optionalTableAlias below)
  else if ← takeKeyword "UNNEST" then unnestRest below
  else
    match ← optionalDocumentTable below with
    | some table => aliased below table
    | none => namedTable below

/-! ## Joins -/

def joinConstraint (below : Level) (natural : Bool) : Parser JoinConstraint := do
  if natural then return .natural
  if ← takeKeyword "ON" then return .on (← expr below)
  if ← takeKeyword "USING" then return .using (← columnList path)
  return .none

def joinRest (below : Level) (global natural : Bool) (operator : JoinOperator) : Parser Join := do
  let table ← below.table
  return { global, operator, table, matching := none, constraint := ← joinConstraint below natural }

def bareJoin (below : Level) (global : Bool) (operator : JoinOperator) : Parser Join := do
  let table ← below.table
  return { global, operator, table, matching := none, constraint := .none }

/-- Reads the words of a join of one side, behind the word for the side. -/
def sideJoin (left : Bool) : Parser JoinOperator := do
  match ← takeOneOf ["OUTER", "SEMI", "ANTI", "JOIN"] with
  | some "OUTER" =>
    keyword "JOIN"
    return if left then .leftOuter else .rightOuter
  | some "SEMI" =>
    keyword "JOIN"
    return if left then .leftSemi else .rightSemi
  | some "ANTI" =>
    keyword "JOIN"
    return if left then .leftAnti else .rightAnti
  | some _ => return if left then .left else .right
  | none => fail ("expected OUTER, SEMI, ANTI or JOIN after " ++ if left then "LEFT" else "RIGHT")

/-- Reads the words of a join that may have a condition, if there are any. -/
def joinWords : Parser (Option JoinOperator) := do
  match ← takeOneOf ["INNER", "JOIN", "LEFT", "RIGHT", "FULL", "ANTI", "SEMI", "STRAIGHT_JOIN"] with
  | some "INNER" =>
    keyword "JOIN"
    return some .inner
  | some "JOIN" => return some .join
  | some "LEFT" => some <$> sideJoin true
  | some "RIGHT" => some <$> sideJoin false
  | some "FULL" =>
    let _ ← takeKeyword "OUTER"
    keyword "JOIN"
    return some .full
  | some "ANTI" =>
    keyword "JOIN"
    return some .anti
  | some "SEMI" =>
    keyword "JOIN"
    return some .semi
  | some _ => return some .straight
  | none => return none

def optionalJoin (below : Level) : Parser (Option Join) := do
  let global ← takeKeyword "GLOBAL"
  if ← takeKeyword "CROSS" then
    if ← takeKeyword "JOIN" then return some (← bareJoin below global .cross)
    if ← takeKeyword "APPLY" then return some (← bareJoin below global .crossApply)
    expected "JOIN or APPLY after CROSS"
  if ← takeKeyword "OUTER" then
    keyword "APPLY"
    return some (← bareJoin below global .outerApply)
  if ← takeKeyword "ASOF" then
    keyword "JOIN"
    let table ← below.table
    keyword "MATCH_CONDITION"
    let matching ← parens (expr below)
    return some { global, operator := .asOf, table, matching, constraint := ← joinConstraint below false }
  let natural ← takeKeyword "NATURAL"
  match ← joinWords with
  | some operator => return some (← joinRest below global natural operator)
  | none =>
    unless natural do return none
    if ← keywordAt 0 "OUTER" then expected "LEFT, RIGHT, or FULL"
    expected "a join type after NATURAL"

def source (below : Level) : Parser Source := do
  let table ← below.table
  return { table, joins := ← many (optionalJoin below) }

end Parser
end Sql
end PolyglotSql
