import PolyglotSql.Sql.Parser.Table

/-!
# PolyglotSql.Sql.Parser.Select

Selects: their results, the tables that they read, and the clauses that choose and group rows.
-/

namespace PolyglotSql
namespace Sql
namespace Parser

/-! ## Results -/

/-- A name with another name for it. -/
def renamedShown (old new : Name) : Phrase :=
  ⟨old.text ++ " AS " ++ new.text, record "IdentWithAlias" [("ident", old.outline), ("alias", new.outline)]⟩

def renamedColumn : Parser Phrase := do
  let old ← name
  keyword "AS"
  return renamedShown old (← name)

def replacement (below : Level) : Parser Phrase := do
  let e ← expr below
  let marked ← takeKeyword "AS"
  let n ← name
  return ⟨e.text ++ (if marked then " AS " else " ") ++ n.text, record "ReplaceSelectElement"
    [("expr", e.outline), ("column_name", n.outline), ("as_keyword", truth marked)]⟩

/-- Reads what an asterisk at a place leaves out or changes. -/
def wildcardOptions (below : Level) (span : Span) : Parser WildcardOptions := do
  let pattern ← behind "ILIKE" do
    let t ← next
    match t.token with
    | .text .plain s =>
      return (⟨"ILIKE " ++ withQuotes '\'' s,
        record "IlikeSelectItem" [("pattern", Text.quoted s)]⟩ : Phrase)
    | _ => expectedAt "ilike pattern" t
  let exclude ← if pattern.isSome then pure none else behind "EXCLUDE" do
    if ← peekSymbol "(" then
      let columns ← parens (separated name)
      return (⟨"EXCLUDE (" ++ namesText columns ++ ")", enclosed "Multiple" (namesOutline columns)⟩ : Phrase)
    let n ← name
    return ⟨"EXCLUDE " ++ n.text, enclosed "Single" n.outline⟩
  let except ← behind "EXCEPT" do
    let columns ← if ← peekSymbol "(" then columnList name else List.singleton <$> name
    return (⟨"EXCEPT (" ++ namesText columns ++ ")", record "ExceptSelectItem"
      [("first_element", namesShown (columns.take 1)),
        ("additional_elements", namesOutline columns.tail)]⟩ : Phrase)
  let replace ← behind "REPLACE" do
    if ← peekSymbol "(" then
      let items ← parens (separated (replacement below))
      return (⟨"REPLACE (" ++ phrasesText items ++ ")",
        record "ReplaceSelectItem" [("items", phraseOutlines items)]⟩ : Phrase)
    expected "( after REPLACE but"
  let rename ← behind "RENAME" do
    if ← peekSymbol "(" then
      let items ← parens (separated renamedColumn)
      return (⟨"RENAME (" ++ phrasesText items ++ ")", enclosed "Multiple" (phraseOutlines items)⟩ : Phrase)
    let item ← renamedColumn
    return ⟨"RENAME " ++ item.text, enclosed "Single" item.outline⟩
  return { span, pattern, exclude, except, replace, rename }
where
  /-- The outlines of names, without brackets around them. -/
  namesShown (names : List Name) : String := Text.join ", " (names.map Name.outline)

def selectItem (below : Level) : Parser SelectItem := do
  match ← starred below with
  | .all span => return .wildcard (← wildcardOptions below span)
  | .qualified table span => return .qualifiedWildcard table (← wildcardOptions below span)
  | .expr e =>
    if let .identifier n := e then
      if n.quote.isNone && Text.lower n.value == "from" then
        fail ("Expected an expression, found: " ++ n.value ++ (← place))
    match ← optionalAlias notColumnAliases with
    | some alias_ => return .aliased e alias_
    | none => return .expr e

def endsResults : Token → Bool
  | .word w => notColumnAliases.contains w.keyword
  | .symbol s => [")", ";", "]", "\x7d"].contains s
  | .eof => true
  | _ => false

/-- Reads the results of a select; there may be none before `FROM`. -/
def selectItems (below : Level) : Parser (List SelectItem) := do
  if ← keywordAt 0 "FROM" then return []
  separatedLoosely endsResults (selectItem below)

/-! ## Clauses of a select -/

def distinct (below : Level) : Parser Distinct := do
  let start ← place
  let all ← takeKeyword "ALL"
  unless ← takeKeyword "DISTINCT" do return .none
  if all then fail ("Cannot specify both ALL and DISTINCT" ++ start)
  unless ← takeKeyword "ON" do return .rows
  .on <$> parens (separatedUntil (· == .symbol ")") (expr below))

/-- Reads how many rows are taken from the top, if it is stated. -/
def optionalTop (below : Level) : Parser (Option Phrase) :=
  behind "TOP" do
    let quantity : Phrase ← if ← peekSymbol "(" then do
        let e ← parens (expr below)
        pure ⟨"(" ++ e.text ++ ")", enclosed "Expr" e.outline⟩
      else do
        let n ← literalNumber
        pure ⟨toString n, enclosed "Constant" (toString n)⟩
    let percent ← takeKeyword "PERCENT"
    let ties ← takeKeywords ["WITH", "TIES"]
    return ⟨"TOP " ++ quantity.text ++ (if percent then " PERCENT" else "") ++ (if ties then " WITH TIES" else ""),
      record "Top" [("with_ties", truth ties), ("percent", truth percent),
        ("quantity", enclosed "Some" quantity.outline)]⟩

/-- Reads the table that takes the rows, if it is stated. -/
def optionalInto : Parser (Option Phrase) :=
  behind "INTO" do
    let temporary := (← takeOneOf ["TEMP", "TEMPORARY"]).isSome
    let unlogged ← takeKeyword "UNLOGGED"
    let table ← takeKeyword "TABLE"
    let n ← path
    return ⟨"INTO" ++ (if temporary then " TEMPORARY" else "") ++ (if unlogged then " UNLOGGED" else "")
        ++ (if table then " TABLE" else "") ++ " " ++ pathText n,
      record "SelectInto" [("temporary", truth temporary), ("unlogged", truth unlogged),
        ("table", truth table), ("name", pathOutline n)]⟩

def optionalLateralView (below : Level) : Parser (Option Phrase) :=
  behindAll ["LATERAL", "VIEW"] do
    let outer ← takeKeyword "OUTER"
    let e ← expr below
    let n ← path
    let columns ← separated (optionalAlias ["WHERE", "GROUP", "CLUSTER", "HAVING", "LATERAL"])
    let columns := columns.filterMap id
    return ⟨" LATERAL VIEW" ++ (if outer then " OUTER" else "") ++ " " ++ e.text ++ " " ++ pathText n
        ++ listed " AS " (columns.map Name.text),
      record "LateralView" [("lateral_view", e.outline), ("lateral_view_name", pathOutline n),
        ("lateral_col_alias", namesOutline columns), ("outer", truth outer)]⟩

/-- Reads expressions in parentheses; there may be none. -/
def tuple (below : Level) : Parser (List Expr) :=
  parens (separatedUntil (· == .symbol ")") (expr below))

/-- Reads expressions in parentheses, or a single expression. -/
def liftedTuple (below : Level) : Parser (List Expr) := do
  if ← peekSymbol "(" then tuple below else List.singleton <$> expr below

/-- Groups of expressions behind a keyword. -/
def groupsShown (text label : String) (groups : List (List Expr)) : Phrase :=
  ⟨text, enclosed label (bracketed (groups.map exprsOutline))⟩

/-- Groups of expressions behind `GROUPING SETS`. -/
def groupingSets (sets : List (List Expr)) : Phrase :=
  groupsShown ("GROUPING SETS (" ++ Text.join ", " (sets.map tupleText) ++ ")") "GroupingSets" sets

def groupKey (below : Level) : Parser Expr := do
  if ← takeKeywords ["GROUPING", "SETS"] then
    return .other (groupingSets (← parens (separated (tuple below))))
  match ← takeOneOf ["CUBE", "ROLLUP"] with
  | some k =>
    let sets ← parens (separated (liftedTuple below))
    let texts := sets.map fun
      | [e] => e.text
      | es => tupleText es
    return .other (groupsShown (k ++ " (" ++ Text.join ", " texts ++ ")") (capitalized k) sets)
  | none =>
    if ← takeSymbols ["(", ")"] then return .other ⟨"()", enclosed "Tuple" "[]"⟩
    expr below

def groupBy (below : Level) : Parser GroupBy := do
  unless ← takeKeywords ["GROUP", "BY"] do return .exprs [] []
  let keys ← if ← takeKeyword "ALL" then pure none else some <$> separated (groupKey below)
  let modifiers ← many <| behind "WITH" do
    let k ← oneOf ["ROLLUP", "CUBE", "TOTALS"]
    return (⟨"WITH " ++ k, capitalized k⟩ : Phrase)
  let sets ← behindAll ["GROUPING", "SETS"] do
    let sets := groupingSets (← parens (separated (liftedTuple below)))
    return (⟨sets.text, enclosed "GroupingSets" sets.outline⟩ : Phrase)
  let modifiers := modifiers ++ sets.toList
  match keys with
  | some keys => return .exprs keys modifiers
  | none => return .all modifiers

def namedWindow (below : Level) : Parser Phrase := do
  let n ← name
  keyword "AS"
  let window : Phrase ← if ← takeSymbol "(" then do
      let spec ← windowSpec below
      pure ⟨"(" ++ spec.text ++ ")", enclosed "WindowSpec" spec.outline⟩
    else do
      let base ← name
      pure ⟨base.text, enclosed "NamedWindow" base.outline⟩
  return ⟨n.text ++ " AS " ++ window.text,
    enclosed "NamedWindowDefinition" (n.outline ++ ", " ++ window.outline)⟩

def optionalWindows (below : Level) : Parser (List Phrase) := do
  return (← behind "WINDOW" (separated (namedWindow below))).getD []

/-- Reads the hierarchy of the rows, if it is stated. -/
def optionalConnectBy (below : Level) : Parser (Option Phrase) := do
  let shown (condition : Expr) (relations : List Expr) : Phrase :=
    ⟨"START WITH " ++ condition.text ++ listedExprs " CONNECT BY " relations,
      record "ConnectBy" [("condition", condition.outline), ("relationships", exprsOutline relations)]⟩
  let relations := within .connectBy (exprs below)
  if ← takeKeywords ["CONNECT", "BY"] then
    let relations ← relations
    keywords ["START", "WITH"]
    return some (shown (← expr below) relations)
  let k ← peekKeyword
  if k == "START" || k == "CONNECT" then
    keywords ["START", "WITH"]
    let condition ← expr below
    keywords ["CONNECT", "BY"]
    return some (shown condition (← relations))
  return none

/-! ## Selects -/

/-- A select with nothing but its tables, which begins with a given word. -/
def bareSelect (token : String) (flavor : SelectFlavor) (sources : List Source) : Select :=
  { token, flavor, distinct := .none, top := none, items := [], into := none, sources,
    lateralViews := [], prewhere := none, selection := none, groupBy := .exprs [] [], clusterBy := [],
    distributeBy := [], sortBy := [], having := none, windows := [], qualify := none,
    windowsFirst := false, connectBy := none }

def sources (below : Level) : Parser (List Source) :=
  separated below.source

/-- Reads the part of a select from its keyword on; the tables may have been stated before. -/
def selectRest (below : Level) (early : Option (List Source)) : Parser Select := do
  let first ← peek
  keyword "SELECT"
  let distinct ← distinct below
  let top ← optionalTop below
  let items ← selectItems below
  let into ← optionalInto
  let sources ← match early with
    | some sources => pure sources
    | none => if ← takeKeyword "FROM" then sources below else pure []
  let lateralViews ← many (optionalLateralView below)
  let prewhere ← exprBehind below "PREWHERE"
  let selection ← exprBehind below "WHERE"
  let groupBy ← groupBy below
  let clusterBy ← behindAll ["CLUSTER", "BY"] (exprs below)
  let distributeBy ← behindAll ["DISTRIBUTE", "BY"] (exprs below)
  let sortBy ← behindAll ["SORT", "BY"] (separated (orderTerm below))
  let having ← exprBehind below "HAVING"
  let windowsFirst ← keywordAt 0 "WINDOW"
  let early ← optionalWindows below
  let qualify ← exprBehind below "QUALIFY"
  let late ← if qualify.isSome && !windowsFirst then optionalWindows below else pure []
  let connectBy ← optionalConnectBy below
  return {
    token := first.outline, flavor := .standard, distinct, top, items, into, sources, lateralViews,
    prewhere, selection, groupBy, clusterBy := clusterBy.getD [], distributeBy := distributeBy.getD [],
    sortBy := sortBy.getD [], having, windows := early ++ late, qualify, windowsFirst, connectBy }

/-- Reads a select; its tables may come first. -/
def select (below : Level) : Parser Select := do
  let first ← peek
  if ← takeKeyword "FROM" then
    let tables ← sources below
    if ← keywordAt 0 "SELECT" then
      return { ← selectRest below (some tables) with flavor := .sourcesFirst }
    return bareSelect first.outline .sourcesOnly tables
  selectRest below none

end Parser
end Sql
end PolyglotSql
