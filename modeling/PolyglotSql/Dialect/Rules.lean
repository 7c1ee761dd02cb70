import PolyglotSql.FunctionCatalogue
import PolyglotSql.Tree.Node

/-!
# PolyglotSql.Dialect.Rules

What each dialect changes in a canonical query, as data: a rule for each canonical function, a row
limiting clause, a trim function for fixed-width columns, a bound for character large objects, and
operators for pattern matches.
-/

namespace PolyglotSql

/-- What becomes of a canonical function call. -/
inductive FunctionRule where
  /-- It stays as it is. -/
  | keep
  /-- It gets another name, with or without parentheses. -/
  | rename (name : String) (parentheses : Bool)
  /-- It gets another name and its first two arguments change places. -/
  | renameSwapped (name : String)
  /-- Its arguments are joined by an infix operator. -/
  | operator (operator : String)
  /-- It becomes a call with keywords between the arguments. -/
  | keywords (name : String) (keywords : List String)
  /-- It becomes such a call, and its first two arguments change places. -/
  | keywordsSwapped (name : String) (keywords : List String)
  /-- It becomes `EXTRACT(part FROM argument)`. -/
  | extract (part : String)
  /-- It becomes `outer(inner(arguments))`. -/
  | nested (outer inner : String)
  /-- It becomes `outer(inner(arguments, 'format'))`. -/
  | nestedFormat (outer inner format : String)
  /-- It becomes `cast(strftime('format', arguments) as integer)`. -/
  | formattedCast (format : String)
  /-- The dialect has nothing for it. -/
  | refuse
deriving DecidableEq, Inhabited

namespace Dialect

/-- The rule for the functions that tell the present date or time, in the dialects that write them
without parentheses. -/
def bareCurrent (name : String) : FunctionRule :=
  if FunctionCatalogue.isCurrent name then .rename name false else .keep

/-- The format that prints a date part as digits, where a dialect extracts it from a text. -/
def strftimeFormat? : String → Option String
  | "YEAR" => some "%Y"
  | "MONTH" => some "%m"
  | "WEEK" => some "%W"
  | "DAY" | "DAY_OF_MONTH" => some "%d"
  | "DAY_OF_WEEK" => some "%w"
  | "DAY_OF_YEAR" => some "%j"
  | "HOUR" => some "%H"
  | "MINUTE" => some "%M"
  | "SECOND" => some "%S"
  | _ => none

def functionRule (d : Dialect) (name : String) : FunctionRule :=
  match d with
  | .generic => .keep
  | .derby =>
    match name with
    | "SUBSTRING" => .rename "SUBSTR" true
    | "CONCAT" => .operator "||"
    | "LOCATE" => .renameSwapped "LOCATE"
    | "DAY_OF_MONTH" => .rename "DAY" true
    | "WEEK" | "DAY_OF_WEEK" | "DAY_OF_YEAR" => .refuse
    | other => bareCurrent other
  | .postgresql =>
    match name with
    | "CONCAT" => .operator "||"
    | "LOCATE" => .keywordsSwapped "POSITION" ["IN"]
    | "YEAR" | "MONTH" | "WEEK" | "DAY" | "HOUR" | "MINUTE" | "SECOND" => .extract name
    | "DAY_OF_MONTH" => .extract "DAY"
    | "DAY_OF_WEEK" => .extract "DOW"
    | "DAY_OF_YEAR" => .extract "DOY"
    | other => bareCurrent other
  | .mysql =>
    match name with
    | "LOCATE" => .renameSwapped "LOCATE"
    | "DAY_OF_MONTH" => .rename "DAYOFMONTH" true
    | "DAY_OF_WEEK" => .rename "DAYOFWEEK" true
    | "DAY_OF_YEAR" => .rename "DAYOFYEAR" true
    | _ => .keep
  | .oracle =>
    match name with
    | "SUBSTRING" => .rename "SUBSTR" true
    | "LOCATE" => .rename "INSTR" true
    | "CONCAT" => .operator "||"
    | "YEAR" | "MONTH" | "DAY" => .extract name
    | "DAY_OF_MONTH" => .extract "DAY"
    | "HOUR" => .nestedFormat "TO_NUMBER" "TO_CHAR" "HH24"
    | "MINUTE" => .nestedFormat "TO_NUMBER" "TO_CHAR" "MI"
    | "SECOND" => .nestedFormat "TO_NUMBER" "TO_CHAR" "SS"
    | "WEEK" => .nestedFormat "TO_NUMBER" "TO_CHAR" "IW"
    | "DAY_OF_WEEK" => .nestedFormat "TO_NUMBER" "TO_CHAR" "D"
    | "DAY_OF_YEAR" => .nestedFormat "TO_NUMBER" "TO_CHAR" "DDD"
    | "CURRENT_DATE" | "CURRENT_TIMESTAMP" => .rename name false
    | "CURRENT_TIME" => .refuse
    | _ => .keep
  | .h2 =>
    match name with
    | "LOCATE" => .renameSwapped "LOCATE"
    | other => bareCurrent other
  | .hsqldb =>
    match name with
    | "LOCATE" => .renameSwapped "LOCATE"
    | "DAY_OF_MONTH" => .rename "DAYOFMONTH" true
    | "DAY_OF_WEEK" => .rename "DAYOFWEEK" true
    | "DAY_OF_YEAR" => .rename "DAYOFYEAR" true
    | other => bareCurrent other
  | .ingres =>
    match name with
    | "CONCAT" => .operator "+"
    | "TRIM" => .nested "RTRIM" "LTRIM"
    | "YEAR" | "MONTH" | "DAY" | "HOUR" | "MINUTE" | "SECOND" => .extract name
    | "DAY_OF_MONTH" => .extract "DAY"
    | "WEEK" | "DAY_OF_WEEK" | "DAY_OF_YEAR" => .refuse
    | other => bareCurrent other
  | .firebird =>
    match name with
    | "SUBSTRING" => .keywords "SUBSTRING" ["FROM", "FOR"]
    | "CONCAT" => .operator "||"
    | "LOCATE" => .renameSwapped "POSITION"
    | "LENGTH" => .rename "CHAR_LENGTH" true
    | "YEAR" | "MONTH" | "WEEK" | "DAY" | "HOUR" | "MINUTE" | "SECOND" => .extract name
    | "DAY_OF_MONTH" => .extract "DAY"
    | "DAY_OF_WEEK" => .extract "WEEKDAY"
    | "DAY_OF_YEAR" => .extract "YEARDAY"
    | other => bareCurrent other
  | .sqlite =>
    match strftimeFormat? name with
    | some format => .formattedCast format
    | none =>
      match name with
      | "SUBSTRING" => .rename "SUBSTR" true
      | "LOCATE" => .rename "INSTR" true
      | "CONCAT" => .operator "||"
      | "MOD" => .operator "%"
      | other => bareCurrent other
  | .db2 =>
    match name with
    | "SUBSTRING" => .rename "SUBSTR" true
    | "CONCAT" => .operator "||"
    | "LOCATE" => .renameSwapped "LOCATE"
    | "DAY_OF_MONTH" => .rename "DAY" true
    | "DAY_OF_WEEK" => .rename "DAYOFWEEK" true
    | "DAY_OF_YEAR" => .rename "DAYOFYEAR" true
    | other => bareCurrent other

/-- The row limiting clause that takes the place of the canonical one. -/
def pageClause? : Dialect → Option PageClause
  | .derby => some .offsetFetchNext
  | .mysql => some .limitMaxRows
  | .hsqldb => some .limitZero
  | .ingres => some .offsetFetchFirst
  | .firebird => some .rowsTo
  | .sqlite => some .limitNegativeOne
  | .db2 => some .offsetRowsFetchFirst
  | .generic | .postgresql | .oracle | .h2 => none

/-- The function that strips the padding of fixed-width columns. -/
def trimKind? : Dialect → Option TrimKind
  | .derby | .oracle | .hsqldb | .db2 => some .rtrim
  | .ingres | .firebird => some .trim
  | .generic | .postgresql | .mysql | .h2 | .sqlite => none

/-- The length given to character large objects of unstated length, in the dialects that bind them
as bounded texts: the longest text that the database accepts. -/
def clobLength? : Dialect → Option Nat
  | .derby | .db2 => some 32672
  | .firebird => some 32765
  | _ => none

/-- The operators for pattern matches that heed case and for those that do not. -/
def likeOperators? : Dialect → Option (LikeOperator × LikeOperator)
  | .postgresql => some (.like, .ilike)
  | .mysql => some (.likeBinary, .nativeLike)
  | _ => none

/-- Whether paginated selects are enclosed in selects that filter on row numbers. -/
def filtersRowNumbers (d : Dialect) : Bool :=
  d = .oracle

end Dialect
end PolyglotSql
