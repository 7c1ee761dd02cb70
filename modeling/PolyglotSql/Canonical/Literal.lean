import PolyglotSql.Binary64.Reading
import PolyglotSql.Dialect.Basic
import PolyglotSql.Sql.Printer
import PolyglotSql.Value

/-!
# PolyglotSql.Canonical.Literal

The values of literals. A number is an integer if it is written as one and fits 64 bits, and a
binary fraction otherwise.
-/

namespace PolyglotSql
namespace Sql

def numberValue? (digits : String) : Option Value :=
  match Text.readDigits? digits.toList with
  | some n => if n < Nat.pow 2 63 then some (.integer (.ofNat n)) else (Binary64.read? digits).map .float
  | none => (Binary64.read? digits).map .float

def Literal.value : Literal → Except Refusal Value
  | .null => .ok .null
  | .boolean b => .ok (.boolean b)
  | .number digits _ =>
    match numberValue? digits with
    | some v => .ok v
    | none => .error (.sql ("number " ++ digits))
  | .text .plain s => .ok (.text s)
  | .text .national s => .ok (.text s)
  | l => .error (.sql ("literal " ++ l.written))

/-- A number with its sign changed. -/
def negated : Value → Except Refusal Value
  | .integer n => .ok (.integer (-n))
  | .float x => .ok (.float x.negate)
  | v => .error (.sql ("unary minus on " ++ v.literal))

/-- A value that may stand in a list: one that is not `NULL`. -/
def scalar (v : Value) : Except Refusal Value :=
  if v.isScalar then .ok v else .error (.sql "NULL in an IN list")

/-- The value of an element of a list: a literal with or without a minus sign. -/
def Expr.listValue : Expr → Except Refusal Value
  | .literal l _ => do scalar (← l.value)
  | .unary .minus (.literal l _) => do scalar (← negated (← l.value))
  | .unary .minus e => .error (.sql ("IN list element -" ++ e.text))
  | e => .error (.sql ("IN list element " ++ e.text))

/-- The number that bounds the rows of a query: a literal of digits that fits 64 bits. -/
def Expr.rowCount (e : Expr) : Except Refusal UInt64 :=
  let refused : Except Refusal UInt64 := .error (.sql ("non-literal LIMIT/OFFSET " ++ e.text))
  match e with
  | .literal (.number digits _) _ =>
    match Text.readDigits? digits.toList with
    | some n => if n < Nat.pow 2 64 then .ok (.ofNat n) else refused
    | none => refused
  | _ => refused

/-- The escape character that a literal states: it must be a plain text of one character. -/
def Literal.escapeChar (l : Literal) : Except Refusal Char :=
  match l with
  | .text .plain s =>
    match s.toList with
    | [c] => .ok c
    | _ => .error (.sql ("ESCAPE " ++ l.written))
  | l => .error (.sql ("ESCAPE " ++ l.written))

end Sql
end PolyglotSql
