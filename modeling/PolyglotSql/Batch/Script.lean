import PolyglotSql.Batch.Outcome
import PolyglotSql.Canonical.Query
import PolyglotSql.Failure
import PolyglotSql.Sql.Script
import PolyglotSql.Translator

/-!
# PolyglotSql.Batch.Script

Whole scripts in a dialect. A script that cannot be read has no report; a statement that has no
form in the dialect fails alone. Each statement gets a tree of its own, which is dropped with it.
-/

namespace PolyglotSql

/-- The statements of a script of queries, whether all of them can be written or not. -/
def readStatements (script : String) : Except Failure (List Sql.Statement) :=
  match Sql.Script.parse script with
  | .ok statements => .ok statements
  | .error e => .error (.ofScript .ofQuery e)

/-- The statements of a script of queries, all of which can be written. -/
def queryStatements (script : String) : Except Failure (List Sql.Statement) := do
  let statements ← readStatements script
  if statements.all Sql.Statement.isComplete then return statements
  throw (.ofBreak Sql.missingPart)

/-- The tree of the first statement of a script. -/
def queryTree (catalog : Catalog) (script : String) : Except Failure Tree := do
  match ← readStatements script with
  | [] => .error (.ofQuery "no statement found")
  | s :: _ =>
    unless s.isComplete do throw (.ofBreak Sql.missingPart)
    match Canonical.tree catalog s with
    | .ok tree => .ok tree
    | .error refusal => .error (.ofRefusal refusal)

namespace Translator

def translateStatement (t : Translator) (catalog : Catalog) (s : Sql.Statement) :
    Except Defect (Except Refusal RenderedSql) :=
  match Canonical.tree catalog s with
  | .ok tree => (t.translateTree.run.run tree).1
  | .error refusal => .ok (.error refusal)

/-- What becomes of a statement at a position in a script. -/
def outcome (t : Translator) (catalog : Catalog) (index : Nat) (s : Sql.Statement) :
    Except Defect Outcome :=
  match t.translateStatement catalog s with
  | .ok (.ok rendered) => .ok (.translated index s.text rendered)
  | .ok (.error refusal) => .ok (.failed index s.text refusal.message)
  | .error defect => .error defect

def report (t : Translator) (catalog : Catalog) (statements : List Sql.Statement) :
    Except Defect BatchReport := do
  let outcomes ← statements.zipIdx.mapM fun (s, i) => t.outcome catalog (i + 1) s
  return { dialect := t.dialect, statements := outcomes }

/-- What becomes of a script, if it can be read. -/
def translateScript (t : Translator) (catalog : Catalog) (script : String) :
    Except Defect (Except Failure BatchReport) :=
  match queryStatements script with
  | .ok statements => (t.report catalog statements).map .ok
  | .error failure => .ok (.error failure)

end Translator
end PolyglotSql
