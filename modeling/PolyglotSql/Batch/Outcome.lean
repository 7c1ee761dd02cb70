import PolyglotSql.Dialect.Basic
import PolyglotSql.Rendering.Sink

/-!
# PolyglotSql.Batch.Outcome

What became of the statements of a script: for each its SQL text with bindings, or an error.
-/

namespace PolyglotSql

/-- What became of one statement of a script. -/
structure Outcome where
  /-- Position in the script, counted from one. -/
  index : Nat
  source : String
  sql : Option String
  bindings : List Binding
  error : Option String
deriving DecidableEq, Inhabited

namespace Outcome

/-- A statement with its SQL text. -/
def translated (index : Nat) (source : String) (rendered : RenderedSql) : Outcome :=
  { index, source, sql := some rendered.sql, bindings := rendered.bindings, error := none }

/-- A statement without SQL text, and why. -/
def failed (index : Nat) (source error : String) : Outcome :=
  { index, source, sql := none, bindings := [], error := some error }

def isOk (o : Outcome) : Bool :=
  o.error.isNone

end Outcome

/-- What became of a script in a dialect, statement by statement. -/
structure BatchReport where
  dialect : Dialect
  statements : List Outcome
deriving DecidableEq, Inhabited

namespace BatchReport

/-- How many statements have an error. -/
def failedCount (r : BatchReport) : Nat :=
  (r.statements.filter fun o => !o.isOk).length

def allTranslated (r : BatchReport) : Bool :=
  r.failedCount == 0

/-- The exit code of a run that ends with this report. -/
def exitCode (r : BatchReport) : Nat :=
  if r.allTranslated then 0 else 2

end BatchReport
end PolyglotSql
