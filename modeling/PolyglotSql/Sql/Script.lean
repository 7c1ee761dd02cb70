import PolyglotSql.Sql.Lexer
import PolyglotSql.Sql.Parser.Statement

/-!
# PolyglotSql.Sql.Script

A script is a list of statements separated by semicolons.
-/

namespace PolyglotSql
namespace Sql

namespace Parser

/-- All forms of SQL, as read at most so many levels deep. Expressions, queries and statements also
count against the limit on nesting. -/
def level : Nat → Level
  | 0 => {
    subexpr := fun _ => throw .recursionLimit
    operand := throw .recursionLimit
    query := throw .recursionLimit
    queryBody := fun _ => throw .recursionLimit
    statement := throw .recursionLimit
    dataType := throw .recursionLimit
    column := throw .recursionLimit
    source := throw .recursionLimit
    table := throw .recursionLimit }
  | n + 1 => {
    subexpr := fun strength c => nested (subexpr (level n) strength) c
    operand := fun c => operand (level n) c
    query := fun c => nested (query (level n)) c
    queryBody := fun strength c => queryBody (level n) strength c
    statement := fun c => nested (statement (level n)) c
    dataType := fun c => dataTypeBody (level n) c
    column := fun c => (ColumnDeclaration.text <$> columnDeclaration (level n)) c
    source := fun c => source (level n) c
    table := fun c => tableFactor (level n) c }

/-- The level at which a script of so many tokens is read. Between two tokens only a few forms begin
within each other, and without tokens none. -/
def topLevel (size : Nat) : Level :=
  level (16 * size + 400)

/-- Reads the statements of a script. A semicolon must stand between two of them; one may be missing
before `END`, which then ends the script. -/
def statements (size : Nat) : Parser (List Statement) :=
  repeatUntil ([], false) fun (found, delimiterDue) => do
    if ← takeSymbol ";" then return .inl (found, false)
    let t ← peek
    if t.token == .eof then return .inr found.reverse
    if delimiterDue then
      if t.token.keyword == "END" then return .inr found.reverse
      expected "end of statement"
    let s ← (topLevel size).statement
    return .inl (s :: found, true)

end Parser

namespace Script

def parse (script : String) : Except ParseError (List Statement) :=
  match tokens script with
  | .error (message, position) => .error (.other (message ++ position.describe))
  | .ok found =>
    let cursor : Cursor :=
      { rest := found, size := found.length, depth := Parser.maximalDepth, setting := .general }
    (Parser.statements found.length cursor).map (·.1)

end Script

end Sql
end PolyglotSql
