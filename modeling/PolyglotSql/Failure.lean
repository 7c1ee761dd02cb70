import PolyglotSql.Dialect.Basic
import PolyglotSql.Sql.Parser.Basic

/-!
# PolyglotSql.Failure

What can keep a whole run from giving an answer, and how it is worded. Messages of the SQL reader
end with the place of the error; it is repeated at the front, where there is one.
-/

namespace PolyglotSql

/-- Whose fault a failure is. -/
inductive FailureKind where
  | badRequest | internal | service
  /-- The program itself breaks off. -/
  | broken
deriving DecidableEq, Inhabited

structure Failure where
  kind : FailureKind
  message : String
deriving DecidableEq, Inhabited

namespace Failure

/-- A place in a text, lines and columns counted from one. -/
structure Place where
  line : Nat
  column : Nat
deriving DecidableEq

/-- Reads a number that fits 64 bits off the front of a text. -/
def readNumber (s : List Char) : Option (Nat × List Char) :=
  let (digits, rest) := s.span Char.isDigit
  match Text.readDigits? digits with
  | some n => if n < Nat.pow 2 64 then some (n, rest) else none
  | none => none

/-- The place that a message states: the number behind the first `Line: `, which must not end the
message, and the number behind the next `Column`, colons and blanks skipped. -/
def statedPlace? (message : String) : Option Place := do
  let (_, rest) ← Text.cutAt "Line: ".toList message.toList
  let (line, rest) ← readNumber rest
  if rest.isEmpty then none
  let (_, rest) ← Text.cutAt "Column".toList rest
  let (column, _) ← readNumber (rest.dropWhile fun c => c == ':' || c == ' ')
  some { line, column }

/-- A message of the SQL reader under a heading. -/
def locate (heading message : String) : String :=
  match statedPlace? message with
  | some place =>
    heading ++ " at line " ++ toString place.line ++ ", column " ++ toString place.column ++ ":\n  "
      ++ message
  | none => heading ++ ":\n  " ++ message

def ofQuery (message : String) : Failure :=
  ⟨.badRequest, locate "Query parse error" message⟩

def ofSchema (message : String) : Failure :=
  ⟨.badRequest, locate "Schema parse error" message⟩

/-- Something that the program relies on is missing. -/
def ofBreak (message : String) : Failure :=
  ⟨.broken, message⟩

/-- A script that is not SQL, with its message as told for what the script is. -/
def ofScript (told : String → Failure) : Sql.ParseError → Failure
  | .broken message => ofBreak message
  | e => told e.message

def ofFile (path cause : String) : Failure :=
  ⟨.internal, "Failed to read file '" ++ path ++ "': " ++ cause⟩

/-- A query without a form in a dialect. -/
def ofRefusal (refusal : Refusal) : Failure :=
  ⟨.badRequest, "Translation error: " ++ refusal.message⟩

def ofOutput (message : String) : Failure :=
  ⟨.service, message⟩

def ofSettings (message : String) : Failure :=
  ⟨.badRequest, message⟩

end Failure
end PolyglotSql
