import PolyglotSql.Sql.Literal

/-!
# PolyglotSql.Sql.Printer

Parsed SQL as it is written: one blank between words, keywords in capitals, names and literals as
they were, aliases of results behind `AS`.
-/

namespace PolyglotSql
namespace Sql

/-- A text behind a lead, or nothing. -/
def optional (lead : String) : Option String → String
  | some s => lead ++ s
  | none => ""

/-- Texts behind a lead, separated by commas; nothing when there are none. -/
def listed (lead : String) (parts : List String) : String :=
  if parts.isEmpty then "" else lead ++ Text.join ", " parts

/-- Texts, each behind a blank. -/
def blankEach (parts : List String) : String :=
  String.join (parts.map (" " ++ ·))

/-- Something that is written behind a blank, or nothing. -/
def Phrase.behindBlank (p : Option Phrase) : String :=
  optional " " (p.map Phrase.text)

def blankEachPhrase (parts : List Phrase) : String :=
  blankEach (parts.map Phrase.text)

/-- An operator as it is written before its operand, with the blank behind it. -/
def UnaryOperator.written : UnaryOperator → String
  | .plus => "+"
  | .minus => "-"
  | .not => "NOT "
  | .complement => "~"

def BinaryOperator.written : BinaryOperator → String
  | .eq => "="
  | .ne => "<>"
  | .lt => "<"
  | .le => "<="
  | .gt => ">"
  | .ge => ">="
  | .and => "AND"
  | .or => "OR"
  | .plus => "+"
  | .minus => "-"
  | .times => "*"
  | .divide => "/"
  | .remainder => "%"
  | .concat => "||"
  | .other shown => shown.text

/-- The keyword of a set operation. -/
def SetOperator.written : SetOperator → String
  | .union => "UNION"
  | .except => "EXCEPT"
  | .minus => "MINUS"
  | .intersect => "INTERSECT"

/-- The words before a joined table. -/
def JoinOperator.written : JoinOperator → String
  | .join => "JOIN"
  | .inner => "INNER JOIN"
  | .left => "LEFT JOIN"
  | .leftOuter => "LEFT OUTER JOIN"
  | .right => "RIGHT JOIN"
  | .rightOuter => "RIGHT OUTER JOIN"
  | .full => "FULL JOIN"
  | .cross => "CROSS JOIN"
  | .semi => "SEMI JOIN"
  | .leftSemi => "LEFT SEMI JOIN"
  | .rightSemi => "RIGHT SEMI JOIN"
  | .anti => "ANTI JOIN"
  | .leftAnti => "LEFT ANTI JOIN"
  | .rightAnti => "RIGHT ANTI JOIN"
  | .crossApply => "CROSS APPLY"
  | .outerApply => "OUTER APPLY"
  | .asOf => "ASOF JOIN"
  | .straight => "STRAIGHT_JOIN"

def TableAlias.written (a : TableAlias) : String :=
  (if a.explicit then "AS " else "") ++ a.name.text
    ++ (if a.columns.isEmpty then "" else " (" ++ Text.join ", " (a.columns.map Phrase.text) ++ ")")

/-- An alias behind a blank, or nothing. -/
def aliasText (a : Option TableAlias) : String :=
  optional " " (a.map TableAlias.written)

/-- The word for rows, behind a blank. -/
def RowsWord.written : RowsWord → String
  | .none => ""
  | .row => " ROW"
  | .rows => " ROWS"

/-- What an asterisk leaves out or changes, as it is written behind it. -/
def WildcardOptions.written (o : WildcardOptions) : String :=
  blankEachPhrase ([o.pattern, o.exclude, o.except, o.replace, o.rename].filterMap id)

def TableClauses.beforeAlias (c : TableClauses) : String :=
  (if c.partitions.isEmpty then "" else "PARTITION (" ++ namesText c.partitions ++ ")")
    ++ optional "" (c.arguments.map Phrase.text) ++ (if c.ordinality then " WITH ORDINALITY" else "")

def TableClauses.afterAlias (c : TableClauses) : String :=
  (if c.hints.isEmpty then "" else " WITH (" ++ Text.join ", " (c.hints.map Phrase.text) ++ ")")
    ++ Phrase.behindBlank c.sample

/-- `NOT` before a word, if it is negated. -/
def negation (negated : Bool) : String :=
  if negated then "NOT " else ""

mutual

def Expr.text : Expr → String
  | .identifier name => name.text
  | .compound path => pathText path
  | .literal v _ => v.written
  | .nested e => "(" ++ e.text ++ ")"
  | .subquery q => "(" ++ q.text ++ ")"
  | .unary op e => op.written ++ e.text
  | .binary left op right => left.text ++ " " ++ op.written ++ " " ++ right.text
  | .isNull negated e => e.text ++ " IS " ++ negation negated ++ "NULL"
  | .like ignoreCase negated any subject pattern escape =>
    let anyWord :=
      if !any then ""
      else if ignoreCase && escape.isSome then "ANY"
      else "ANY "
    subject.text ++ " " ++ negation negated ++ (if ignoreCase then "ILIKE " else "LIKE ") ++ anyWord
      ++ pattern.text ++ optional " ESCAPE " (escape.map Literal.written)
  | .inList negated subject list =>
    subject.text ++ " " ++ negation negated ++ "IN (" ++ Text.join ", " (exprTexts list) ++ ")"
  | .inSubquery negated subject q =>
    subject.text ++ " " ++ negation negated ++ "IN (" ++ q.text ++ ")"
  | .between negated subject low high =>
    subject.text ++ " " ++ negation negated ++ "BETWEEN " ++ low.text ++ " AND " ++ high.text
  | .exists_ negated q => negation negated ++ "EXISTS (" ++ q.text ++ ")"
  | .call c => c.text
  | .extract field comma e => "EXTRACT(" ++ field.text ++ (if comma then ", " else " FROM ") ++ e.text ++ ")"
  | .substring form short e start length =>
    let lead := fun word : String => match form with
      | .words => " " ++ word ++ " "
      | .commas => ", "
    (if short then "SUBSTR(" else "SUBSTRING(") ++ e.text ++ optional (lead "FROM") (optionText start)
      ++ optional (lead "FOR") (optionText length) ++ ")"
  | .position needle haystack => "POSITION(" ++ needle.text ++ " IN " ++ haystack.text ++ ")"
  | .trim e => "TRIM(" ++ e.text ++ ")"
  | .access root steps => root.text ++ String.join (steps.map Phrase.text)
  | .other shown => shown.text

def exprTexts : List Expr → List String
  | [] => []
  | e :: es => e.text :: exprTexts es

/-- An expression that may be missing. -/
def optionText : Option Expr → Option String
  | none => none
  | some e => some e.text

def Call.text : Call → String
  | ⟨name, parameters, arguments, withinGroup, filter, nullTreatment, overClause, braced⟩ =>
    let order := orderTexts withinGroup
    (if braced then "\x7bfn " else "") ++ pathText name ++ parameters.text ++ arguments.text
      ++ (if order.isEmpty then "" else " WITHIN GROUP (ORDER BY " ++ Text.join ", " order ++ ")")
      ++ optional " FILTER (WHERE " ((optionText filter).map (· ++ ")"))
      ++ Phrase.behindBlank nullTreatment ++ optional " OVER " (overClause.map Phrase.text) ++ (if braced then "\x7d" else "")

def Arguments.text : Arguments → String
  | .none => ""
  | .subquery q => "(" ++ q.text ++ ")"
  | .list duplicates args clauses =>
    let mark := match duplicates with
      | some true => "DISTINCT "
      | some false => "ALL "
      | none => ""
    let listed := argumentTexts args
    let clauses := clauseTexts clauses
    "(" ++ mark ++ Text.join ", " listed
      ++ (if clauses.isEmpty then "" else (if listed.isEmpty then "" else " ") ++ Text.join " " clauses)
      ++ ")"

def argumentTexts : List Argument → List String
  | [] => []
  | a :: as => a.text :: argumentTexts as

def Argument.text : Argument → String
  | .expr e => e.text
  | .wildcard => "*"
  | .other shown => shown.text

def clauseTexts : List ArgumentClause → List String
  | [] => []
  | c :: cs => c.text :: clauseTexts cs

def ArgumentClause.text : ArgumentClause → String
  | .orderBy terms => "ORDER BY " ++ Text.join ", " (orderTexts terms)
  | .limit e => "LIMIT " ++ e.text
  | .nulls shown => shown.text
  | .other shown => shown.text

def orderTexts : List OrderTerm → List String
  | [] => []
  | t :: ts => t.text :: orderTexts ts

def OrderTerm.text : OrderTerm → String
  | ⟨e, ascending, nullsFirst, fill⟩ =>
    let direction := match ascending with
      | some true => " ASC"
      | some false => " DESC"
      | none => ""
    let nulls := match nullsFirst with
      | some true => " NULLS FIRST"
      | some false => " NULLS LAST"
      | none => ""
    e.text ++ direction ++ nulls ++ Phrase.behindBlank fill

def Query.text : Query → String
  | ⟨withClause, body, orderBy, interpolate, limit, settings, fetch, locks, answer, format, steps⟩ =>
    optional "" (withClause.map (·.text ++ " ")) ++ body.text ++ listed " ORDER BY " (orderTexts orderBy)
      ++ Phrase.behindBlank interpolate ++ limitText limit
      ++ optional " SETTINGS " (settings.map Phrase.text) ++ fetchText fetch ++ blankEachPhrase locks
      ++ Phrase.behindBlank answer ++ Phrase.behindBlank format
      ++ String.join (steps.map (" |> " ++ ·.text))

def QueryBody.text : QueryBody → String
  | .select s => s.text
  | .nested q => "(" ++ q.text ++ ")"
  | .combined left op quantifier right =>
    left.text ++ " " ++ op.written ++ (if quantifier.text.isEmpty then "" else " " ++ quantifier.text)
      ++ " " ++ right.text
  | .other shown => shown.text

/-- A row limit as it is written, behind a blank. -/
def limitText : Option LimitClause → String
  | none => ""
  | some l => l.text

def LimitClause.text : LimitClause → String
  | .limitOffset limit offset by_ =>
    optional " LIMIT " (optionText limit) ++ offsetText offset ++ listed " BY " (exprTexts by_)
  | .offsetComma offset limit => " LIMIT " ++ offset.text ++ ", " ++ limit.text

/-- An offset as it is written, behind a blank. -/
def offsetText : Option Offset → String
  | none => ""
  | some o => o.text

def Offset.text : Offset → String
  | ⟨value, word⟩ => " OFFSET " ++ value.text ++ word.written

/-- A `FETCH` clause as it is written, behind a blank. -/
def fetchText : Option Fetch → String
  | none => ""
  | some f => f.text

/-- A `FETCH` clause as it is written. -/
def Fetch.text : Fetch → String
  | ⟨withTies, percent, quantity⟩ =>
    let count := match optionText quantity with
      | some n => n ++ (if percent then " PERCENT" else "") ++ " "
      | none => ""
    " FETCH FIRST " ++ count ++ "ROWS " ++ (if withTies then "WITH TIES" else "ONLY")

def Select.text : Select → String
  | ⟨_, flavor, distinct, top, items, into, sources, lateralViews, prewhere, selection, groupBy,
      clusterBy, distributeBy, sortBy, having, windows, qualify, windowsFirst, connectBy⟩ =>
    let tables := Text.join ", " (sourceTexts sources)
    let lead := match flavor with
      | .standard => "SELECT"
      | .sourcesFirst => "FROM " ++ tables ++ " SELECT"
      | .sourcesOnly => "FROM " ++ tables
    let behind := match flavor with
      | .standard => if tables.isEmpty then "" else " FROM " ++ tables
      | _ => ""
    let windows := listed " WINDOW " (windows.map Phrase.text)
    let qualify := optional " QUALIFY " (optionText qualify)
    lead ++ optional " " distinct.text? ++ Phrase.behindBlank top ++ listed " " (itemTexts items)
      ++ Phrase.behindBlank into ++ behind ++ String.join (lateralViews.map Phrase.text)
      ++ optional " PREWHERE " (optionText prewhere) ++ optional " WHERE " (optionText selection)
      ++ groupBy.text ++ listed " CLUSTER BY " (exprTexts clusterBy)
      ++ listed " DISTRIBUTE BY " (exprTexts distributeBy) ++ listed " SORT BY " (orderTexts sortBy)
      ++ optional " HAVING " (optionText having)
      ++ (if windowsFirst then windows ++ qualify else qualify ++ windows)
      ++ Phrase.behindBlank connectBy

/-- How duplicates are dropped, as it is written, if they are. -/
def Distinct.text? : Distinct → Option String
  | .none => none
  | .rows => some "DISTINCT"
  | .on keys => some ("DISTINCT ON (" ++ Text.join ", " (exprTexts keys) ++ ")")

def itemTexts : List SelectItem → List String
  | [] => []
  | i :: is => i.text :: itemTexts is

def SelectItem.text : SelectItem → String
  | .expr e => e.text
  | .aliased e alias_ => e.text ++ " AS " ++ alias_.text
  | .wildcard options => "*" ++ options.written
  | .qualifiedWildcard table options => pathText table ++ ".*" ++ options.written

def sourceTexts : List Source → List String
  | [] => []
  | s :: ss => s.text :: sourceTexts ss

def Source.text : Source → String
  | ⟨table, joins⟩ => table.text ++ joinTexts joins

/-- Joins as they are written, each behind a blank. -/
def joinTexts : List Join → String
  | [] => ""
  | j :: js => " " ++ j.text ++ joinTexts js

def Join.text : Join → String
  | ⟨global, operator, table, matching, constraint⟩ =>
    (if global then "GLOBAL " else "")
      ++ (match constraint with
        | .natural => "NATURAL "
        | _ => "")
      ++ operator.written ++ " " ++ table.text
      ++ optional " MATCH_CONDITION (" ((optionText matching).map (· ++ ")")) ++ constraint.text

/-- A join condition as it is written, behind a blank. -/
def JoinConstraint.text : JoinConstraint → String
  | .on e => " ON " ++ e.text
  | .using columns => " USING(" ++ Text.join ", " (columns.map pathText) ++ ")"
  | .natural => ""
  | .none => ""

def TableFactor.text : TableFactor → String
  | .table name alias_ clauses =>
    pathText name ++ clauses.beforeAlias ++ aliasText alias_ ++ clauses.afterAlias
  | .derived lateral q alias_ =>
    (if lateral then "LATERAL " else "") ++ "(" ++ q.text ++ ")" ++ aliasText alias_
  | .nested source alias_ => "(" ++ source.text ++ ")" ++ aliasText alias_
  | .other s alias_ afterAlias _ _ => s ++ aliasText alias_ ++ afterAlias

/-- A grouping as it is written, behind a blank. -/
def GroupBy.text : GroupBy → String
  | .exprs keys modifiers =>
    let keys := exprTexts keys
    if keys.isEmpty then "" else " GROUP BY " ++ Text.join ", " keys ++ blankEachPhrase modifiers
  | .all modifiers => " GROUP BY ALL" ++ blankEachPhrase modifiers

end

/-! ## Statements -/

def ColumnDeclaration.text (c : ColumnDeclaration) : String :=
  c.name.text ++ (if c.type.isEmpty then "" else " " ++ c.type)
    ++ blankEach (c.options.map (·.written))

def indexColumnsText (columns : List IndexColumn) : String :=
  "(" ++ Text.join ", " (columns.map (·.written)) ++ ")"

def TableConstraint.text : TableConstraint → String
  | .primaryKey lead columns tail => lead ++ indexColumnsText columns ++ tail
  | .other s => s

def TableDeclaration.text (t : TableDeclaration) : String :=
  let parts := t.columns.map ColumnDeclaration.text ++ t.constraints.map TableConstraint.text
  t.lead ++ pathText t.name ++ t.afterName
    ++ (if parts.isEmpty then (if t.emptyList then " ()" else "")
        else " (" ++ Text.join ", " parts ++ ")")
    ++ t.tail

def Statement.text : Statement → String
  | .query q => q.text
  | .insert s => s
  | .update s => s
  | .delete s => s
  | .createTable t => t.text
  | .other s => s

end Sql
end PolyglotSql
