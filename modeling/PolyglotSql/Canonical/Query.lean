import PolyglotSql.Canonical.Literal
import PolyglotSql.Canonical.Scope
import PolyglotSql.FunctionCatalogue
import PolyglotSql.Sql.Outline
import PolyglotSql.Term.Build
import PolyglotSql.Term.Selection

/-!
# PolyglotSql.Canonical.Query

The canonical form of parsed SQL. Some constructs have one canonical spelling for several written
ones:

| written | canonical |
|---------|-----------|
| `a || b || c` | `CONCAT(a, b, c)` |
| `a % b` | `MOD(a, b)` |
| `a ILIKE b` | `UPPER(a) LIKE UPPER(b)`, ignoring case |
| `EXTRACT(DOW FROM x)` | `DAY_OF_WEEK(x)` |
| `POSITION(a IN b)` | `LOCATE(b, a)` |
| `SUBSTRING(x FROM a FOR b)` | `SUBSTRING(x, a, b)` |

Of two parts that have no canonical form, the one that is named is the first in the order in which
the parts are taken up here.
-/

namespace PolyglotSql
namespace Canonical

def refuse {α : Type} (what : String) : Except Refusal α :=
  .error (.sql what)

/-! ## Names and operators -/

/-- The canonical name of a function. -/
def functionName (written : String) : String :=
  match Text.upper written with
  | "CHAR_LENGTH" | "CHARACTER_LENGTH" | "LEN" => "LENGTH"
  | "UCASE" => "UPPER"
  | "LCASE" => "LOWER"
  | "SUBSTR" => "SUBSTRING"
  | "DAYOFMONTH" => "DAY_OF_MONTH"
  | "DAYOFWEEK" => "DAY_OF_WEEK"
  | "DAYOFYEAR" => "DAY_OF_YEAR"
  | "NOW" => "CURRENT_TIMESTAMP"
  | name => name

/-- The function that extracts a part of a date or time. -/
def extractor (part : String) : Except Refusal String :=
  match Text.upper part with
  | "DOW" | "DAYOFWEEK" => .ok "DAY_OF_WEEK"
  | "DOY" | "DAYOFYEAR" => .ok "DAY_OF_YEAR"
  | part =>
    if ["YEAR", "MONTH", "WEEK", "DAY", "HOUR", "MINUTE", "SECOND"].contains part then .ok part
    else refuse ("EXTRACT(" ++ part ++ " FROM ...)")

/-- A concatenation; one on the left is continued. -/
def concat (left right : Term) : Term :=
  if left.node.canonicalFunction? = some "CONCAT" then Term.call "CONCAT" (left.children ++ [right])
  else Term.call "CONCAT" [left, right]

def binary (op : Sql.BinaryOperator) (left right : Term) : Except Refusal Term :=
  match op with
  | .eq => .ok (.compare .eq left right)
  | .ne => .ok (.compare .ne left right)
  | .lt => .ok (.compare .lt left right)
  | .le => .ok (.compare .le left right)
  | .gt => .ok (.compare .gt left right)
  | .ge => .ok (.compare .ge left right)
  | .and => .ok (.connect .and left right)
  | .or => .ok (.connect .or left right)
  | .plus => .ok (left.operation "+" right)
  | .minus => .ok (left.operation "-" right)
  | .times => .ok (left.operation "*" right)
  | .divide => .ok (left.operation "/" right)
  | .concat => .ok (concat left right)
  | .remainder => .ok (.call "MOD" [left, right])
  | .other shown => refuse ("operator " ++ shown.text)

/-- A pattern match with the escape character that a literal states, if there is one. -/
def withEscape (like : Term) : Option Sql.Literal → Except Refusal Term
  | none => .ok like
  | some l => return like.withEscape (← l.escapeChar)

/-- A column reference by its parts, of which the last two count. -/
def columnTerm (scope : Scope) (path : Sql.Path) : Except Refusal Term :=
  match path.reverse with
  | column :: table :: _ => .ok (scope.columnTerm (some table.value) column.value)
  | [column] => .ok (scope.columnTerm none column.value)
  | [] => refuse "empty identifier"

def joinKind (join : Sql.Join) : Except Refusal JoinKind :=
  match join.operator with
  | .join | .inner => .ok .inner
  | .left | .leftOuter => .ok .left
  | .right | .rightOuter => .ok .right
  | .full => .ok .full
  | _ => refuse ("join " ++ join.manner)

/-- A table that a query reads. -/
def tableTerm (factor : Sql.TableFactor) : Except Refusal Term :=
  match factor with
  | .table path alias_ _ => .ok (.tableOf (Sql.pathText path) (alias_.map (·.name.value)))
  | .derived .. => refuse "derived tables"
  | other => refuse ("table factor " ++ other.text)

/-- The limit and the offset that a clause states; one that is missing is zero. -/
def rowLimit (s : Selection) : Option Sql.LimitClause → Except Refusal Selection
  | none => .ok s
  | some (.limitOffset limit offset _) => do
    let limit ← limit.mapM Sql.Expr.rowCount
    let offset ← offset.mapM fun o => o.value.rowCount
    return { s with limit := limit.getD 0, offset := offset.getD 0 }
  | some (.offsetComma offset limit) => do
    let limit ← limit.rowCount
    let offset ← offset.rowCount
    return { s with limit, offset }

/-! ## Expressions and queries -/

mutual

def exprTerm (scope : Scope) : Sql.Expr → Except Refusal Term
  | .identifier name => .ok (scope.columnTerm none name.value)
  | .compound path => columnTerm scope path
  | .literal l _ => return .value (← l.value)
  | .nested (.subquery q) => return (← querySelection scope q).toTerm
  | .nested e => return (← exprTerm scope e).group
  | .unary .not (.nested e) => return (← exprTerm scope e).not
  | .unary .not e => return (← exprTerm scope e).not
  | .unary .plus e => exprTerm scope e
  | .unary .minus (.literal l _) => return .value (← Sql.negated (← l.value))
  | .unary .minus e => refuse ("unary minus on " ++ e.text)
  | .unary .complement _ => refuse "operator ~"
  | .binary left op right => do
    let left ← exprTerm scope left
    let right ← exprTerm scope right
    binary op left right
  | .isNull false e => return (← exprTerm scope e).isNull
  | .isNull true e => return (← exprTerm scope e).isNotNull
  | .like ignoreCase negated false subject pattern escape => do
    let subject ← exprTerm scope subject
    let pattern ← exprTerm scope pattern
    withEscape (.matching ignoreCase negated subject pattern) escape
  | .inList negated subject list => do
    let values ← list.mapM Sql.Expr.listValue
    return .memberOf negated (← exprTerm scope subject) values
  | .inSubquery negated subject q => do
    let subject ← exprTerm scope subject
    return .member negated subject (← querySelection scope q).toTerm
  | .between negated subject low high => do
    let subject ← exprTerm scope subject
    let low ← exprTerm scope low
    let high ← exprTerm scope high
    return .inRange negated subject low high
  | .exists_ negated q => return .existsIn negated (← querySelection scope q).toTerm
  | .subquery q => return (← querySelection scope q).toTerm
  | .call c => callTerm scope c
  | .extract field _ operand => do
    let function ← extractor field.text
    return .call function [← exprTerm scope operand]
  | .substring _ _ operand start length => do
    let operand ← exprTerm scope operand
    let start ← optionalTerm scope start
    let length ← optionalTerm scope length
    return .call "SUBSTRING" (operand :: start.getD (.value (.integer 1)) :: length.toList)
  | .position needle haystack => do
    let haystack ← exprTerm scope haystack
    let needle ← exprTerm scope needle
    return .call "LOCATE" [haystack, needle]
  | .trim operand => return .call "TRIM" [← exprTerm scope operand]
  | other => refuse ("expression " ++ other.text)

/-- The term of an expression that may be missing. -/
def optionalTerm (scope : Scope) : Option Sql.Expr → Except Refusal (Option Term)
  | none => .ok none
  | some e => return some (← exprTerm scope e)

def exprTerms (scope : Scope) : List Sql.Expr → Except Refusal (List Term)
  | [] => .ok []
  | e :: es => do
    let t ← exprTerm scope e
    return t :: (← exprTerms scope es)

def callTerm (scope : Scope) : Sql.Call → Except Refusal Term
  | ⟨path, parameters, arguments, withinGroup, filter, nullTreatment, overClause, braced⟩ => do
    let refused : Except Refusal Term := refuse ("function "
      ++ Sql.Call.text ⟨path, parameters, arguments, withinGroup, filter, nullTreatment, overClause, braced⟩)
    if overClause.isSome || filter.isSome || !withinGroup.isEmpty then refused
    else
      let name := functionName (Sql.pathText path)
      match arguments with
      | .none => do
        FunctionCatalogue.checkArity name 0
        return .call name []
      | .subquery _ => refused
      | .list duplicates args _ => do
        let terms ← argumentTerms scope args
        FunctionCatalogue.checkArity name args.length
        return .call name ((if duplicates = some true then [Term.distinct] else []) ++ terms)

def argumentTerms (scope : Scope) : List Sql.Argument → Except Refusal (List Term)
  | [] => .ok []
  | a :: as => do
    let t ← argumentTerm scope a
    return t :: (← argumentTerms scope as)

def argumentTerm (scope : Scope) : Sql.Argument → Except Refusal Term
  | .expr e => exprTerm scope e
  | .wildcard => .ok (.text "*")
  | .other shown => refuse ("function argument " ++ shown.text)

def querySelection (scope : Scope) : Sql.Query → Except Refusal Selection
  | ⟨withClause, body, orderBy, _, limit, _, _, _, _, _, _⟩ => do
    if withClause.isSome then refuse "WITH clauses"
    let (s, inner) ← bodySelection scope body
    let orders ← orderTerms inner orderBy
    rowLimit (orders.foldl Selection.addOrder s) limit

/-- The select that the body of a query is, with the scope of what it is sorted by. -/
def bodySelection (scope : Scope) : Sql.QueryBody → Except Refusal (Selection × Scope)
  | .select s => do
    let inner := scope.enter s.sources
    return (← selectSelection inner s, inner)
  | .nested q => return (← querySelection scope q, scope)
  | .combined _ op _ _ => refuse (op.written ++ " set operations")
  | .other shown => refuse ("query body " ++ shown.text)

def orderTerms (scope : Scope) : List Sql.OrderTerm → Except Refusal (List Term)
  | [] => .ok []
  | ⟨e, ascending, _, _⟩ :: rest => do
    let t ← exprTerm scope e
    let direction := if ascending = some false then Direction.descending else .ascending
    return t.ordered direction :: (← orderTerms scope rest)

/-- The select of given clauses, in whose scope it stands. -/
def selectSelection (scope : Scope) : Sql.Select → Except Refusal Selection
  | ⟨_, _, distinct, _, items, _, sources, _, _, condition, groupBy, _, _, _, having, _, _, _, _⟩ => do
    let distinct ← match distinct with
      | .none => pure false
      | .rows => pure true
      | .on keys => refuse ((Sql.Distinct.on keys).text?.getD "")
    let results ← itemTerms scope items
    let sources ← sourceTerms scope sources
    let condition ← optionalTerm scope condition
    let groups ← groupTerms scope groupBy
    let having ← optionalTerm scope having
    return { Selection.empty with distinct, results, sources, condition, groups, having }

def itemTerms (scope : Scope) : List Sql.SelectItem → Except Refusal (List Term)
  | [] => .ok []
  | item :: items => do
    let t ← itemTerm scope item
    return t :: (← itemTerms scope items)

def itemTerm (scope : Scope) : Sql.SelectItem → Except Refusal Term
  | .expr e => exprTerm scope e
  | .aliased e alias_ => return (← exprTerm scope e).withAlias alias_.value
  | .wildcard _ => .ok (.text "*")
  | .qualifiedWildcard table options =>
    .ok (.text (Sql.SelectItem.text (.qualifiedWildcard table options)))

/-- The tables of sources, each followed by those joined to it. -/
def sourceTerms (scope : Scope) : List Sql.Source → Except Refusal (List Term)
  | [] => .ok []
  | source :: sources => do
    let terms ← sourceTerm scope source
    return terms ++ (← sourceTerms scope sources)

/-- The table of a source, followed by those joined to it. -/
def sourceTerm (scope : Scope) : Sql.Source → Except Refusal (List Term)
  | ⟨table, joins⟩ => do
    let t ← tableTerm table
    return t :: (← joinTerms scope joins)

def joinTerms (scope : Scope) : List Sql.Join → Except Refusal (List Term)
  | [] => .ok []
  | join :: joins => do
    let t ← joinTerm scope join
    return t :: (← joinTerms scope joins)

def joinTerm (scope : Scope) : Sql.Join → Except Refusal Term
  | ⟨global, operator, table, matching, constraint⟩ => do
    let kind ← joinKind ⟨global, operator, table, matching, constraint⟩
    let condition ← constraintTerm scope constraint
    return Term.of (.join kind) ((← tableTerm table) :: condition.toList)

/-- The condition of a join, if it has one. -/
def constraintTerm (scope : Scope) : Sql.JoinConstraint → Except Refusal (Option Term)
  | .on e => return some (← exprTerm scope e)
  | .none => .ok none
  | .using _ | .natural => refuse "join constraints other than ON"

def groupTerms (scope : Scope) : Sql.GroupBy → Except Refusal (List Term)
  | .exprs keys modifiers => do
    if !modifiers.isEmpty then refuse "GROUP BY modifiers"
    exprTerms scope keys
  | .all _ => refuse "GROUP BY ALL"

end

/-! ## Statements -/

/-- The tree of a statement, which must be a query. -/
def tree (catalog : Catalog) : Sql.Statement → Except Refusal Tree
  | .query q => return (← querySelection { catalog, frames := [] } q).toTerm.build
  | .insert _ => refuse "INSERT statements are not translated"
  | .update _ => refuse "UPDATE statements are not translated"
  | .delete _ => refuse "DELETE statements are not translated"
  | other => refuse ("only SELECT statements can be translated: " ++ other.text)

end Canonical
end PolyglotSql
