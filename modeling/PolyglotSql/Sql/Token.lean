import PolyglotSql.Text.Basic

/-!
# PolyglotSql.Sql.Token

The words of SQL: names and keywords, numbers, quoted texts, placeholders and symbols, each with
its place in the script.

A word is compared with keywords in capitals. Quoted words are never keywords.
-/

namespace PolyglotSql
namespace Sql

/-- A place in a script; lines and columns count from one. -/
structure Position where
  line : Nat
  column : Nat
deriving DecidableEq, Inhabited

namespace Position

def start : Position := ⟨1, 1⟩

/-- The place after one more character. -/
def after (p : Position) (c : Char) : Position :=
  if c = '\n' then ⟨p.line + 1, 1⟩ else ⟨p.line, p.column + 1⟩

/-- The place after the first characters of a text, as many as given. -/
def advance (p : Position) : (count : Nat) → List Char → Position
  | 0, _ => p
  | _, [] => p
  | count + 1, c :: cs => (p.after c).advance count cs

def describe (p : Position) : String :=
  " at Line: " ++ toString p.line ++ ", Column: " ++ toString p.column

end Position

/-- The places between which a part of a script stands. -/
structure Span where
  first : Position
  last : Position
deriving DecidableEq, Inhabited

namespace Span

/-- The span of what stands nowhere in a script. -/
def empty : Span := ⟨⟨0, 0⟩, ⟨0, 0⟩⟩

/-- The smallest span around two. -/
def around (s t : Span) : Span := ⟨s.first, t.last⟩

end Span

/-- A name or keyword. -/
structure Word where
  value : String
  quote : Option Char
  /-- The word in capitals; empty when it is quoted. -/
  keyword : String
deriving DecidableEq, Inhabited

namespace Word

/-- The capitals of a letter as far as they matter for keywords, which are ASCII: ASCII letters,
and the few others whose capitals are ASCII letters. -/
def capitals (c : Char) : List Char :=
  match c with
  | 'ß' => ['S', 'S']
  | 'ı' => ['I']
  | 'ſ' => ['S']
  | 'ﬀ' => ['F', 'F']
  | 'ﬁ' => ['F', 'I']
  | 'ﬂ' => ['F', 'L']
  | 'ﬃ' => ['F', 'F', 'I']
  | 'ﬄ' => ['F', 'F', 'L']
  | 'ﬅ' => ['S', 'T']
  | 'ﬆ' => ['S', 'T']
  | c => [c.toUpper]

/-- A word without quotes. -/
def bare (s : List Char) : Word :=
  { value := String.ofList s, quote := none, keyword := String.ofList (s.flatMap capitals) }

/-- A word between quotes, given without them. -/
def quoted (quote : Char) (s : List Char) : Word :=
  { value := String.ofList s, quote := some quote, keyword := "" }

end Word

inductive TextKind where
  | plain | national | escaped | unicode | hex
  | bytes (quote : Char)
  | raw (quote : Char) (triple : Bool)
deriving DecidableEq, Inhabited

namespace TextKind

/-- What stands before the first quote. -/
def lead : TextKind → String
  | .plain => ""
  | .national => "N"
  | .escaped => "E"
  | .unicode => "U&"
  | .hex => "X"
  | .bytes _ => "B"
  | .raw _ _ => "R"

/-- The quotes at either end. -/
def quotes : TextKind → String
  | .bytes quote => String.singleton quote
  | .raw quote true => String.ofList [quote, quote, quote]
  | .raw quote false => String.singleton quote
  | _ => "'"

/-- A text of a kind between its quotes. -/
def enclose (kind : TextKind) (s : String) : String :=
  kind.lead ++ kind.quotes ++ s ++ kind.quotes

end TextKind

/-- One word of a script. -/
inductive Token where
  | word (w : Word)
  | number (digits : String) (long : Bool)
  | text (kind : TextKind) (value : String)
  /-- A text between dollar signs, with the tag between them, if there is one. -/
  | dollar (tag : String) (value : String)
  | placeholder (name : String)
  | symbol (spelling : String)
  | eof
deriving DecidableEq, Inhabited

namespace Token

/-- The keyword that a token spells; empty for all other tokens. -/
def keyword : Token → String
  | .word w => w.keyword
  | _ => ""

def describe : Token → String
  | .word ⟨value, some quote, _⟩ => String.singleton quote ++ value ++ String.singleton quote
  | .word ⟨value, none, _⟩ => value
  | .number digits long => digits ++ (if long then "L" else "")
  | .text kind value => kind.enclose value
  | .dollar tag value => "$" ++ tag ++ "$" ++ value ++ "$" ++ tag ++ "$"
  | .placeholder name => name
  | .symbol spelling => spelling
  | .eof => "EOF"

end Token

structure Located where
  token : Token
  position : Position
  /-- The place behind it. -/
  ending : Position
  /-- The blanks and comments between the token before it and itself, with their places. -/
  blanks : List (String × Position)
deriving DecidableEq, Inhabited

namespace Located

/-- What follows the last token. -/
def eof : Located :=
  { token := .eof, position := .start, ending := .start, blanks := [] }

/-- The places between which a token stands; the end of a script has none. -/
def span (t : Located) : Span :=
  if t.token = .eof then .empty else ⟨t.position, t.ending⟩

/-- How a message states where a token is; the end of a script has no place. -/
def place (t : Located) : String :=
  if t.token = .eof then "" else t.position.describe

end Located
end Sql
end PolyglotSql
