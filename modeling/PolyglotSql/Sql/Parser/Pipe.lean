import PolyglotSql.Sql.Parser.Select

/-!
# PolyglotSql.Sql.Parser.Pipe

Queries may be written as a pipe: each step takes the rows of those before it.
-/

namespace PolyglotSql
namespace Sql
namespace Parser

/-! ## Assignments -/

/-- Reads the target of an assignment: a column, or several in parentheses. -/
def assignmentTarget : Parser Phrase := do
  if ← peekSymbol "(" then
    let columns ← parens (separated path)
    return ⟨"(" ++ Text.join ", " (columns.map pathText) ++ ")",
      enclosed "Tuple" (bracketed (columns.map pathOutline))⟩
  let column ← path
  return ⟨pathText column, enclosed "ColumnName" (pathOutline column)⟩

def assignment (below : Level) : Parser Phrase := do
  let target ← assignmentTarget
  symbol "="
  let e ← expr below
  return ⟨target.text ++ " = " ++ e.text,
    record "Assignment" [("target", target.outline), ("value", e.outline)]⟩

/-! ## Set operations -/

/-- Reads how a set operation treats duplicates and column names, if it is stated. -/
def setQuantifier : Parser Phrase := do
  for (ks, label) in [(["DISTINCT", "BY", "NAME"], "DistinctByName"), (["BY", "NAME"], "ByName"),
      (["ALL", "BY", "NAME"], "AllByName"), (["ALL"], "All"), (["DISTINCT"], "Distinct")] do
    if ← takeKeywords ks then return ⟨Text.join " " ks, label⟩
  return ⟨"", "None"⟩

/-! ## Steps -/

def aggregateItem (below : Level) : Parser Phrase := do
  let e ← expr below
  let item := aliasedShown e (← optionalAlias ["ASC", "DESC", "GROUP"])
  let ascending ← optionalDirection
  let direction := match ascending with
    | some true => " ASC"
    | some false => " DESC"
    | none => ""
  return ⟨item.text ++ direction, record "ExprWithAliasAndOrderBy"
    [("expr", item.outline), ("order_by", sortingOutline ascending none)]⟩

def optionalStepAlias : Parser (Option Name) := do
  if ← takeKeyword "AS" then some <$> name else maybe name

def stepAlias (alias_ : Option Name) : String :=
  optional " AS " (alias_.map Name.text)

def stepAliasOutline (alias_ : Option Name) : String × String :=
  ("alias", possible (alias_.map Name.outline))

/-- Reads a set operation with queries in parentheses, behind its keyword. -/
def combiningStep (below : Level) (k : String) : Parser Phrase := do
  let quantifier ← setQuantifier
  let distinct := quantifier.outline == "Distinct" || quantifier.outline == "DistinctByName"
  unless k == "UNION" || distinct do
    fail (k ++ " pipe operator requires DISTINCT modifier")
  let queries ← separated (parens below.query)
  return ⟨k ++ (if quantifier.text.isEmpty then "" else " " ++ quantifier.text) ++ " "
      ++ Text.join ", " (queries.map ("(" ++ ·.text ++ ")")),
    record (capitalized k) [("set_quantifier", quantifier.outline),
      ("queries", bracketed (queries.map Query.outline))]⟩

/-- Reads a step that makes columns of rows, behind its keyword. -/
def pivotStep (below : Level) : Parser Phrase := do
  let (aggregates, column, values) ← parens do
    let aggregates ← aliasedAggregates below
    keyword "FOR"
    let column ← path
    keyword "IN"
    return (aggregates, column, ← pivotValues below)
  let alias_ ← optionalStepAlias
  return ⟨"PIVOT(" ++ phrasesText aggregates ++ " FOR " ++ pathText column ++ " IN (" ++ values.text ++ "))"
      ++ stepAlias alias_,
    record "Pivot" [("aggregate_functions", phraseOutlines aggregates), ("value_column", namesOutline column),
      ("value_source", values.outline), stepAliasOutline alias_]⟩

/-- Reads a step that makes rows of columns, behind its keyword. -/
def unpivotStep : Parser Phrase := do
  let (v, n, columns) ← parens do
    let v ← name
    keyword "FOR"
    let n ← name
    keyword "IN"
    return (v, n, ← parens (separated name))
  let alias_ ← optionalStepAlias
  return ⟨"UNPIVOT(" ++ v.text ++ " FOR " ++ n.text ++ " IN (" ++ namesText columns ++ "))" ++ stepAlias alias_,
    record "Unpivot" [("value_column", v.outline), ("name_column", n.outline),
      ("unpivot_columns", namesOutline columns), stepAliasOutline alias_]⟩

def joinStep (below : Level) : Parser Phrase := do
  match ← many (optionalJoin below) with
  | [j] => return ⟨j.text, enclosed "Join" j.outline⟩
  | _ => fail "Join pipe operator must have a single join"

def stepWords : List String :=
  ["SELECT", "EXTEND", "SET", "DROP", "AS", "WHERE", "LIMIT", "AGGREGATE", "ORDER", "TABLESAMPLE",
   "RENAME", "UNION", "INTERSECT", "EXCEPT", "CALL", "PIVOT", "UNPIVOT", "JOIN", "INNER", "LEFT",
   "RIGHT", "FULL", "CROSS"]

/-- Reads a step of a query that is written as a pipe, behind its arrow. -/
def pipeStep (below : Level) : Parser Phrase := do
  let start ← get
  match ← oneOf stepWords with
  | "SELECT" => items "SELECT"
  | "EXTEND" => items "EXTEND"
  | "SET" =>
    let assignments ← separated (assignment below)
    return ⟨"SET " ++ phrasesText assignments, record "Set" [("assignments", phraseOutlines assignments)]⟩
  | "DROP" =>
    let columns ← looseNames
    return ⟨"DROP " ++ namesText columns, record "Drop" [("columns", namesOutline columns)]⟩
  | "AS" =>
    let n ← name
    return ⟨"AS " ++ n.text, record "As" [("alias", n.outline)]⟩
  | "WHERE" =>
    let e ← expr below
    return ⟨"WHERE " ++ e.text, record "Where" [("expr", e.outline)]⟩
  | "LIMIT" =>
    let e ← expr below
    let offset ← exprBehind below "OFFSET"
    return ⟨"LIMIT " ++ e.text ++ optional " OFFSET " (offset.map Expr.text),
      record "Limit" [("expr", e.outline), ("offset", possibleExpr offset)]⟩
  | "AGGREGATE" =>
    let results ← if ← keywordAt 0 "GROUP" then pure [] else separated (aggregateItem below)
    let groups ← behindAll ["GROUP", "BY"] (separated (aggregateItem below))
    let groups := groups.getD []
    return ⟨"AGGREGATE" ++ listed " " (results.map Phrase.text) ++ listed " GROUP BY " (groups.map Phrase.text),
      record "Aggregate" [("full_table_exprs", phraseOutlines results), ("group_by_expr", phraseOutlines groups)]⟩
  | "ORDER" =>
    let _ ← oneOf ["BY"]
    let terms ← separated (orderTerm below)
    return ⟨"ORDER BY " ++ Text.join ", " (orderTexts terms),
      record "OrderBy" [("exprs", bracketed (orderOutlines terms))]⟩
  | "TABLESAMPLE" =>
    set start
    let sample := (← optionalSample below).getD default
    return ⟨sample.text, record "TableSample" [("sample", sample.outline)]⟩
  | "RENAME" =>
    let columns ← separated do
      let old ← name
      let _ ← takeKeyword "AS"
      return renamedShown old (← name)
    return ⟨"RENAME " ++ phrasesText columns, record "Rename" [("mappings", phraseOutlines columns)]⟩
  | "CALL" =>
    let c ← callBehind below (← path)
    let alias_ ← optionalStepAlias
    return ⟨"CALL " ++ c.text ++ stepAlias alias_,
      record "Call" [("function", c.outline), stepAliasOutline alias_]⟩
  | "PIVOT" => pivotStep below
  | "UNPIVOT" => unpivotStep
  | k =>
    if ["UNION", "INTERSECT", "EXCEPT"].contains k then combiningStep below k
    else
      set start
      joinStep below
where
  /-- The results that a step selects. -/
  items (k : String) : Parser Phrase := do
    let items ← separated (selectItem below)
    return ⟨k ++ " " ++ Text.join ", " (itemTexts items),
      record (capitalized k) [("exprs", bracketed (itemOutlines items))]⟩

end Parser
end Sql
end PolyglotSql
