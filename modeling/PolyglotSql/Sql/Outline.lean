import PolyglotSql.Sql.Printer
import PolyglotSql.Text.Quoted

/-!
# PolyglotSql.Sql.Outline

The outline of parsed SQL: the parts that it consists of, each by the name of its kind, with the
place of every name and literal in the script. A refusal shows the condition of a join in this way.
-/

namespace PolyglotSql
namespace Sql

/-! ## Parts -/

/-- A part with named fields. -/
def record (kind : String) (fields : List (String × String)) : String :=
  kind ++ " \x7b " ++ Text.join ", " (fields.map fun (key, shown) => key ++ ": " ++ shown) ++ " \x7d"

/-- A part that encloses others. -/
def enclosed (kind shown : String) : String :=
  kind ++ "(" ++ shown ++ ")"

def bracketed (parts : List String) : String :=
  "[" ++ Text.join ", " parts ++ "]"

/-- A part that may be missing. -/
def possible : Option String → String
  | some shown => enclosed "Some" shown
  | none => "None"

def truth (b : Bool) : String :=
  if b then "true" else "false"

def phraseOutlines (parts : List Phrase) : String :=
  bracketed (parts.map Phrase.outline)

def possiblePhrase (p : Option Phrase) : String :=
  possible (p.map Phrase.outline)

/-! ## Places and tokens -/

def Position.outline (p : Position) : String :=
  enclosed "Location" (toString p.line ++ "," ++ toString p.column)

/-- The places between which something stands. -/
def Span.outline (s : Span) : String :=
  enclosed "Span" (s.first.outline ++ ".." ++ s.last.outline)

/-- The character that quotes a name. -/
def quoteOutline (quote : Option Char) : String :=
  possible (quote.map fun c => "'" ++ (if c = '\'' then "\\'" else String.singleton c) ++ "'")

def symbolNames : List (String × String) :=
  [("*", "Mul"), (")", "RParen"), ("!", "ExclamationMark"), ("#", "Sharp"), ("[", "LBracket"),
   (".", "Period"), ("@", "AtSign")]

/-- The outline of a token; of words, those that are keywords. -/
def Token.outline : Token → String
  | .word w => enclosed "Word" (record "Word" [("value", Text.quoted w.value),
      ("quote_style", quoteOutline w.quote), ("keyword", w.keyword)])
  | .symbol s => (symbolNames.lookup s).getD s
  | .eof => "EOF"
  | t => t.describe

/-- The outline of a token that is kept for its place. -/
def tokenOutline (t : Token) (span : Span) : String :=
  record "TokenWithSpan" [("token", t.outline), ("span", span.outline)]

def Located.outline (t : Located) : String :=
  tokenOutline t.token t.span

/-! ## Names and literals -/

def Name.outline (n : Name) : String :=
  record "Ident" [("value", Text.quoted n.value), ("quote_style", quoteOutline n.quote),
    ("span", n.span.outline)]

def namesOutline (names : List Name) : String :=
  bracketed (names.map Name.outline)

def pathOutline (path : Path) : String :=
  enclosed "ObjectName" (bracketed (path.map fun n => enclosed "Identifier" n.outline))

def TextKind.label : TextKind → String
  | .plain => "SingleQuotedString"
  | .national => "NationalStringLiteral"
  | .escaped => "EscapedStringLiteral"
  | .unicode => "UnicodeStringLiteral"
  | .hex => "HexStringLiteral"
  | .bytes quote => (if quote = '"' then "Double" else "Single") ++ "QuotedByteStringLiteral"
  | .raw quote triple =>
    (if triple then "Triple" else "") ++ (if quote = '"' then "Double" else "Single")
      ++ "QuotedRawStringLiteral"

/-- The outline of a literal without its place. -/
def Literal.label : Literal → String
  | .null => "Null"
  | .boolean b => enclosed "Boolean" (truth b)
  | .number digits long => enclosed "Number" (Text.quoted digits ++ ", " ++ truth long)
  | .text kind value => enclosed kind.label (Text.quoted value)
  | .quoted value => enclosed "DoubleQuotedString" (Text.quoted value)
  | .dollar tag value =>
    enclosed "DollarQuotedString" (record "DollarQuotedString" [("value", Text.quoted value),
      ("tag", possible (if tag.isEmpty then none else some (Text.quoted tag)))])
  | .placeholder written => enclosed "Placeholder" (Text.quoted written)

/-- The outline of a literal with its place. -/
def Literal.located (l : Literal) (span : Span) : String :=
  record "ValueWithSpan" [("value", l.label), ("span", span.outline)]

/-! ## Operators and clauses -/

def UnaryOperator.label : UnaryOperator → String
  | .plus => "Plus"
  | .minus => "Minus"
  | .not => "Not"
  | .complement => "BitwiseNot"

def BinaryOperator.label : BinaryOperator → String
  | .eq => "Eq"
  | .ne => "NotEq"
  | .lt => "Lt"
  | .le => "LtEq"
  | .gt => "Gt"
  | .ge => "GtEq"
  | .and => "And"
  | .or => "Or"
  | .plus => "Plus"
  | .minus => "Minus"
  | .times => "Multiply"
  | .divide => "Divide"
  | .remainder => "Modulo"
  | .concat => "StringConcat"
  | .other shown => shown.outline

def SetOperator.label : SetOperator → String
  | .union => "Union"
  | .except => "Except"
  | .minus => "Minus"
  | .intersect => "Intersect"

def RowsWord.label : RowsWord → String
  | .none => "None"
  | .row => "Row"
  | .rows => "Rows"

/-- The name of the way in which a select states its tables. -/
def SelectFlavor.label : SelectFlavor → String
  | .standard => "Standard"
  | .sourcesFirst => "FromFirst"
  | .sourcesOnly => "FromFirstNoSelect"

def TableAlias.outline (a : TableAlias) : String :=
  record "TableAlias" [("explicit", truth a.explicit), ("name", a.name.outline),
    ("columns", phraseOutlines a.columns)]

def aliasOutline (a : Option TableAlias) : String :=
  possible (a.map TableAlias.outline)

/-- The outline of what an asterisk leaves out or changes. -/
def WildcardOptions.outline (o : WildcardOptions) : String :=
  record "WildcardAdditionalOptions" [("wildcard_token", tokenOutline (.symbol "*") o.span),
    ("opt_ilike", possiblePhrase o.pattern), ("opt_exclude", possiblePhrase o.exclude),
    ("opt_except", possiblePhrase o.except), ("opt_replace", possiblePhrase o.replace),
    ("opt_rename", possiblePhrase o.rename)]

/-- How duplicates among arguments are treated. -/
def duplicatesOutline : Option Bool → String
  | some true => "Some(Distinct)"
  | some false => "Some(All)"
  | none => "None"

/-- The options of a sorting term. -/
def sortingOutline (ascending nullsFirst : Option Bool) : String :=
  record "OrderByOptions" [("asc", possible (ascending.map truth)),
    ("nulls_first", possible (nullsFirst.map truth))]

/-- The outline of a join by its operator, what it matches and its condition. -/
def JoinOperator.outline (op : JoinOperator) (matching : Option String) (constraint : String) :
    String :=
  match op with
  | .join => enclosed "Join" constraint
  | .inner => enclosed "Inner" constraint
  | .left => enclosed "Left" constraint
  | .leftOuter => enclosed "LeftOuter" constraint
  | .right => enclosed "Right" constraint
  | .rightOuter => enclosed "RightOuter" constraint
  | .full => enclosed "FullOuter" constraint
  | .cross => enclosed "CrossJoin" constraint
  | .semi => enclosed "Semi" constraint
  | .leftSemi => enclosed "LeftSemi" constraint
  | .rightSemi => enclosed "RightSemi" constraint
  | .anti => enclosed "Anti" constraint
  | .leftAnti => enclosed "LeftAnti" constraint
  | .rightAnti => enclosed "RightAnti" constraint
  | .crossApply => "CrossApply"
  | .outerApply => "OuterApply"
  | .asOf => record "AsOf" [("match_condition", matching.getD ""), ("constraint", constraint)]
  | .straight => enclosed "StraightJoin" constraint

/-! ## Expressions and queries -/

mutual

def Expr.outline : Expr → String
  | .identifier name => enclosed "Identifier" name.outline
  | .compound path => enclosed "CompoundIdentifier" (namesOutline path)
  | .literal l span => enclosed "Value" (l.located span)
  | .nested e => enclosed "Nested" e.outline
  | .subquery q => enclosed "Subquery" q.outline
  | .unary op e => record "UnaryOp" [("op", op.label), ("expr", e.outline)]
  | .binary left op right =>
    record "BinaryOp" [("left", left.outline), ("op", op.label), ("right", right.outline)]
  | .isNull negated e => enclosed (if negated then "IsNotNull" else "IsNull") e.outline
  | .like ignoreCase negated any subject pattern escape =>
    record (if ignoreCase then "ILike" else "Like")
      [("negated", truth negated), ("any", truth any), ("expr", subject.outline),
        ("pattern", pattern.outline), ("escape_char", possible (escape.map Literal.label))]
  | .inList negated subject list =>
    record "InList" [("expr", subject.outline), ("list", bracketed (exprOutlines list)),
      ("negated", truth negated)]
  | .inSubquery negated subject q =>
    record "InSubquery" [("expr", subject.outline), ("subquery", q.outline), ("negated", truth negated)]
  | .between negated subject low high =>
    record "Between" [("expr", subject.outline), ("negated", truth negated), ("low", low.outline),
      ("high", high.outline)]
  | .exists_ negated q => record "Exists" [("subquery", q.outline), ("negated", truth negated)]
  | .call c => enclosed "Function" c.outline
  | .extract field comma e =>
    record "Extract" [("field", field.outline), ("syntax", if comma then "Comma" else "From"),
      ("expr", e.outline)]
  | .substring form short e start length =>
    record "Substring" [("expr", e.outline), ("substring_from", possible (optionOutline start)),
      ("substring_for", possible (optionOutline length)), ("special", truth (form == .commas)),
      ("shorthand", truth short)]
  | .position needle haystack =>
    record "Position" [("expr", needle.outline), ("in", haystack.outline)]
  | .trim e =>
    record "Trim" [("expr", e.outline), ("trim_where", "None"), ("trim_what", "None"),
      ("trim_characters", "None")]
  | .access root steps =>
    record "CompoundFieldAccess" [("root", root.outline), ("access_chain", phraseOutlines steps)]
  | .other shown => shown.outline

def exprOutlines : List Expr → List String
  | [] => []
  | e :: es => e.outline :: exprOutlines es

def optionOutline : Option Expr → Option String
  | none => none
  | some e => some e.outline

def Call.outline : Call → String
  | ⟨name, parameters, arguments, withinGroup, filter, nullTreatment, overClause, braced⟩ =>
    record "Function"
      [("name", pathOutline name), ("uses_odbc_syntax", truth braced),
        ("parameters", parameters.outline), ("args", arguments.outline),
        ("filter", possible (optionOutline filter)), ("null_treatment", possiblePhrase nullTreatment),
        ("over", possiblePhrase overClause), ("within_group", bracketed (orderOutlines withinGroup))]

def Arguments.outline : Arguments → String
  | .none => "None"
  | .subquery q => enclosed "Subquery" q.outline
  | .list duplicates args clauses =>
    enclosed "List" (record "FunctionArgumentList"
      [("duplicate_treatment", duplicatesOutline duplicates), ("args", bracketed (argumentOutlines args)),
        ("clauses", bracketed (clauseOutlines clauses))])

def argumentOutlines : List Argument → List String
  | [] => []
  | a :: as => a.outline :: argumentOutlines as

def Argument.outline : Argument → String
  | .expr e => enclosed "Unnamed" (enclosed "Expr" e.outline)
  | .wildcard => "Unnamed(Wildcard)"
  | .other shown => shown.outline

def clauseOutlines : List ArgumentClause → List String
  | [] => []
  | c :: cs => c.outline :: clauseOutlines cs

def ArgumentClause.outline : ArgumentClause → String
  | .orderBy terms => enclosed "OrderBy" (bracketed (orderOutlines terms))
  | .limit e => enclosed "Limit" e.outline
  | .nulls shown => enclosed "IgnoreOrRespectNulls" shown.outline
  | .other shown => shown.outline

def orderOutlines : List OrderTerm → List String
  | [] => []
  | t :: ts => t.outline :: orderOutlines ts

def OrderTerm.outline : OrderTerm → String
  | ⟨e, ascending, nullsFirst, fill⟩ =>
    record "OrderByExpr" [("expr", e.outline), ("options", sortingOutline ascending nullsFirst),
      ("with_fill", possiblePhrase fill)]

def Query.outline : Query → String
  | ⟨withClause, body, orderBy, interpolate, limit, settings, fetch, locks, answer, format, steps⟩ =>
    let order := orderOutlines orderBy
    let orderBy := if order.isEmpty then "None" else
      enclosed "Some" (record "OrderBy" [("kind", enclosed "Expressions" (bracketed order)),
        ("interpolate", possiblePhrase interpolate)])
    record "Query"
      [("with", possiblePhrase withClause), ("body", body.outline), ("order_by", orderBy),
        ("limit_clause", limitOutline limit), ("fetch", fetchOutline fetch),
        ("locks", phraseOutlines locks), ("for_clause", possiblePhrase answer),
        ("settings", possiblePhrase settings), ("format_clause", possiblePhrase format),
        ("pipe_operators", phraseOutlines steps)]

def QueryBody.outline : QueryBody → String
  | .select s => enclosed "Select" s.outline
  | .nested q => enclosed "Query" q.outline
  | .combined left op quantifier right =>
    record "SetOperation" [("op", op.label), ("set_quantifier", quantifier.outline),
      ("left", left.outline), ("right", right.outline)]
  | .other shown => shown.outline

def limitOutline : Option LimitClause → String
  | none => "None"
  | some l => enclosed "Some" l.outline

def LimitClause.outline : LimitClause → String
  | .limitOffset limit offset by_ =>
    record "LimitOffset" [("limit", possible (optionOutline limit)), ("offset", offsetOutline offset),
      ("limit_by", bracketed (exprOutlines by_))]
  | .offsetComma offset limit =>
    record "OffsetCommaLimit" [("offset", offset.outline), ("limit", limit.outline)]

def offsetOutline : Option Offset → String
  | none => "None"
  | some o => enclosed "Some" o.outline

def Offset.outline : Offset → String
  | ⟨value, word⟩ => record "Offset" [("value", value.outline), ("rows", word.label)]

/-- The outline of a `FETCH` clause that may be missing. -/
def fetchOutline : Option Fetch → String
  | none => "None"
  | some f => enclosed "Some" f.outline

/-- The outline of a `FETCH` clause. -/
def Fetch.outline : Fetch → String
  | ⟨withTies, percent, quantity⟩ =>
    record "Fetch" [("with_ties", truth withTies), ("percent", truth percent),
      ("quantity", possible (optionOutline quantity))]

def Select.outline : Select → String
  | ⟨token, flavor, distinct, top, items, into, sources, lateralViews, prewhere, selection, groupBy,
      clusterBy, distributeBy, sortBy, having, windows, qualify, windowsFirst, connectBy⟩ =>
    record "Select"
      [("select_token", token), ("distinct", distinct.outline),
        ("top", possiblePhrase top), ("top_before_distinct", "false"),
        ("projection", bracketed (itemOutlines items)), ("exclude", "None"),
        ("into", possiblePhrase into), ("from", bracketed (sourceOutlines sources)),
        ("lateral_views", phraseOutlines lateralViews), ("prewhere", possible (optionOutline prewhere)),
        ("selection", possible (optionOutline selection)), ("group_by", groupBy.outline),
        ("cluster_by", bracketed (exprOutlines clusterBy)),
        ("distribute_by", bracketed (exprOutlines distributeBy)),
        ("sort_by", bracketed (orderOutlines sortBy)), ("having", possible (optionOutline having)),
        ("named_window", phraseOutlines windows), ("qualify", possible (optionOutline qualify)),
        ("window_before_qualify", truth windowsFirst), ("value_table_mode", "None"),
        ("connect_by", possiblePhrase connectBy), ("flavor", flavor.label)]

def Distinct.outline : Distinct → String
  | .none => "None"
  | .rows => "Some(Distinct)"
  | .on keys => enclosed "Some" (enclosed "On" (bracketed (exprOutlines keys)))

def itemOutlines : List SelectItem → List String
  | [] => []
  | i :: is => i.outline :: itemOutlines is

def SelectItem.outline : SelectItem → String
  | .expr e => enclosed "UnnamedExpr" e.outline
  | .aliased e alias_ => record "ExprWithAlias" [("expr", e.outline), ("alias", alias_.outline)]
  | .wildcard options => enclosed "Wildcard" options.outline
  | .qualifiedWildcard table options =>
    enclosed "QualifiedWildcard" (enclosed "ObjectName" (pathOutline table) ++ ", " ++ options.outline)

def sourceOutlines : List Source → List String
  | [] => []
  | s :: ss => s.outline :: sourceOutlines ss

def Source.outline : Source → String
  | ⟨table, joins⟩ =>
    record "TableWithJoins" [("relation", table.outline), ("joins", bracketed (joinOutlines joins))]

def joinOutlines : List Join → List String
  | [] => []
  | j :: js => j.outline :: joinOutlines js

def Join.outline : Join → String
  | ⟨global, operator, table, matching, constraint⟩ =>
    record "Join" [("relation", table.outline), ("global", truth global),
      ("join_operator", operator.outline (optionOutline matching) constraint.outline)]

def JoinConstraint.outline : JoinConstraint → String
  | .on e => enclosed "On" e.outline
  | .using columns => enclosed "Using" (bracketed (columns.map pathOutline))
  | .natural => "Natural"
  | .none => "None"

def TableFactor.outline : TableFactor → String
  | .table name alias_ clauses =>
    record "Table"
      [("name", pathOutline name), ("alias", aliasOutline alias_),
        ("args", possiblePhrase clauses.arguments), ("with_hints", phraseOutlines clauses.hints),
        ("version", "None"), ("with_ordinality", truth clauses.ordinality),
        ("partitions", namesOutline clauses.partitions), ("json_path", "None"),
        ("sample", possible (clauses.sample.map fun p => enclosed "AfterTableAlias" p.outline)),
        ("index_hints", "[]")]
  | .derived lateral q alias_ =>
    record "Derived" [("lateral", truth lateral), ("subquery", q.outline),
      ("alias", aliasOutline alias_)]
  | .nested source alias_ =>
    record "NestedJoin" [("table_with_joins", source.outline), ("alias", aliasOutline alias_)]
  | .other _ alias_ _ kind fields =>
    record kind (fields.map fun (key, shown) =>
      (key, if key == "alias" then aliasOutline alias_ else shown))

def GroupBy.outline : GroupBy → String
  | .exprs keys modifiers =>
    enclosed "Expressions" (bracketed (exprOutlines keys) ++ ", " ++ phraseOutlines modifiers)
  | .all modifiers => enclosed "All" (phraseOutlines modifiers)

end

/-- What a refusal says about how a table is joined. -/
def Join.manner (j : Join) : String :=
  j.operator.outline (optionOutline j.matching) j.constraint.outline

end Sql
end PolyglotSql
