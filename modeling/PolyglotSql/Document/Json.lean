import PolyglotSql.Document.Basic

/-!
# PolyglotSql.Document.Json

Structured data as JSON text, on one line or laid out with two blanks per level.
-/

namespace PolyglotSql
namespace Json

/-- The digit of a value below sixteen, in lower case. -/
def hexDigit (n : Nat) : Char :=
  (Nat.digitChar n)

/-- A character inside a JSON string: quotes, backslashes and control characters are escaped. -/
def escapeChar (c : Char) : List Char :=
  match c with
  | '"' => ['\\', '"']
  | '\\' => ['\\', '\\']
  | '\x08' => ['\\', 'b']
  | '\x0c' => ['\\', 'f']
  | '\n' => ['\\', 'n']
  | '\r' => ['\\', 'r']
  | '\t' => ['\\', 't']
  | c =>
    if c.toNat < 32 then ['\\', 'u', '0', '0', hexDigit (c.toNat / 16), hexDigit (c.toNat % 16)]
    else [c]

def quote (s : String) : String :=
  String.ofList ('"' :: s.toList.flatMap escapeChar ++ ['"'])

/-- Where the parts of a list or record stand. -/
inductive Layout where
  /-- Everything on one line, without blanks. -/
  | compact
  /-- One part a line, indented by its level. -/
  | indented
deriving DecidableEq

namespace Layout

/-- A line break and the indentation of a level. -/
def newline (layout : Layout) (level : Nat) : String :=
  match layout with
  | .compact => ""
  | .indented => "\n" ++ String.ofList (List.replicate (2 * level) ' ')

/-- What stands between a field's name and its value. -/
def colon : Layout → String
  | .compact => ":"
  | .indented => ": "

/-- The parts of a list or record between brackets. -/
def enclose (layout : Layout) (level : Nat) (opening closing : String) (parts : List String) :
    String :=
  if parts.isEmpty then opening ++ closing
  else
    opening ++ layout.newline (level + 1)
      ++ Text.join ("," ++ layout.newline (level + 1)) parts
      ++ layout.newline level ++ closing

end Layout

mutual

/-- Structured data at a level of nesting as JSON text. -/
def write (layout : Layout) (level : Nat) : Document → String
  | .null => "null"
  | .boolean b => if b then "true" else "false"
  | .integer n => toString n
  | .float x => x.format Binary64.jsonStyle
  | .text s => quote s
  | .list items => layout.enclose level "[" "]" (writeItems layout (level + 1) items)
  | .record fields => layout.enclose level "\x7b" "\x7d" (writeFields layout (level + 1) fields)

def writeItems (layout : Layout) (level : Nat) : List Document → List String
  | [] => []
  | item :: items => write layout level item :: writeItems layout level items

/-- The fields of a record. -/
def writeFields (layout : Layout) (level : Nat) : List (String × Document) → List String
  | [] => []
  | (name, value) :: fields =>
    (quote name ++ layout.colon ++ write layout level value) :: writeFields layout level fields

end
end Json

namespace Document

def json (d : Document) : String :=
  Json.write .compact 0 d

/-- JSON text laid out over lines. -/
def prettyJson (d : Document) : String :=
  Json.write .indented 0 d

end Document
end PolyglotSql
