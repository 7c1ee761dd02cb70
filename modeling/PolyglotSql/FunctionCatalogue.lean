import PolyglotSql.Dialect.Basic

/-!
# PolyglotSql.FunctionCatalogue

The canonical functions, by their upper-case names, with the numbers of arguments they take.
Functions outside the catalogue reach every dialect unchanged and take any number of arguments.
-/

namespace PolyglotSql
namespace FunctionCatalogue

/-- Extractors of a part of a date or time. -/
def dateParts : List String :=
  ["YEAR", "MONTH", "WEEK", "DAY", "HOUR", "MINUTE", "SECOND", "DAY_OF_MONTH", "DAY_OF_WEEK",
   "DAY_OF_YEAR"]

/-- Functions that tell the present date or time. -/
def currents : List String :=
  ["CURRENT_DATE", "CURRENT_TIME", "CURRENT_TIMESTAMP"]

/-- Every canonical function. -/
def names : List String :=
  ["SUBSTRING", "CONCAT", "LOCATE", "TRIM", "LENGTH", "UPPER", "LOWER", "ABS", "SQRT", "MOD"]
    ++ currents ++ dateParts ++ ["COUNT", "SUM", "AVG", "MIN", "MAX"]

def isCanonical (name : String) : Bool :=
  names.contains name

/-- Whether a function extracts a part of a date or time. -/
def isDatePart (name : String) : Bool :=
  dateParts.contains name

/-- Whether a function tells the present date or time. -/
def isCurrent (name : String) : Bool :=
  currents.contains name

/-- Accepted numbers of arguments; no upper bound when `high` is missing. -/
structure Arity where
  low : Nat
  high : Option Nat
deriving DecidableEq

namespace Arity

/-- Whether a number of arguments is accepted. -/
def accepts (a : Arity) (args : Nat) : Bool :=
  decide (a.low ≤ args) && match a.high with
    | some high => decide (args ≤ high)
    | none => true

end Arity

/-- The numbers of arguments that a canonical function takes. -/
def arity? (name : String) : Option Arity :=
  if !isCanonical name then none
  else if name = "SUBSTRING" then some ⟨2, some 3⟩
  else if name = "CONCAT" then some ⟨1, none⟩
  else if name = "LOCATE" ∨ name = "MOD" then some ⟨2, some 2⟩
  else if isCurrent name then some ⟨0, some 0⟩
  else some ⟨1, some 1⟩

/-- Refuses a canonical function with a number of arguments that it does not take. -/
def checkArity (name : String) (args : Nat) : Except Refusal Unit :=
  match arity? name with
  | some a =>
    if a.accepts args then .ok ()
    else .error (.sql (name ++ "() with " ++ toString args ++ " argument(s)"))
  | none => .ok ()

end FunctionCatalogue
end PolyglotSql
