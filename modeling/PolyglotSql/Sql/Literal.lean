import PolyglotSql.Sql.Syntax

/-!
# PolyglotSql.Sql.Literal

How names and literals are written. A quote within quotes is doubled, unless it is doubled or
behind a backslash already.
-/

namespace PolyglotSql
namespace Sql

/-- Doubles the quotes of a text that stand alone; `last` is the character before it. -/
def doubleQuotes (quote : Char) : (last : Char) → List Char → List Char
  | _, [] => []
  | last, [c] => if c = quote ∧ last ≠ '\\' then [c, c] else [c]
  | last, c :: d :: cs =>
    if c = quote then
      if last = '\\' then c :: doubleQuotes quote last (d :: cs)
      else if d = quote then c :: d :: doubleQuotes quote c cs
      else c :: c :: doubleQuotes quote c (d :: cs)
    else c :: doubleQuotes quote c (d :: cs)

/-- A text between quotes, the quotes within doubled. -/
def withQuotes (quote : Char) (s : String) : String :=
  String.singleton quote ++ String.ofList (doubleQuotes quote '\x00' s.toList)
    ++ String.singleton quote

namespace Name

/-- A name without quotes that stands nowhere in a script. -/
def bare (value : String) : Name := ⟨value, none, .empty⟩

/-- The name that a word spells. -/
def ofWord (w : Word) (span : Span) : Name := ⟨w.value, w.quote, span⟩

/-- The name that a text in single quotes spells, wherever it stands. -/
def ofText (value : String) : Name := ⟨value, some '\'', .empty⟩

def text (n : Name) : String :=
  match n.quote with
  | some quote => withQuotes quote n.value
  | none => n.value

end Name

/-- A dotted name as it is written. -/
def pathText (path : Path) : String :=
  Text.join "." (path.map Name.text)

/-- Names as they are written in a list. -/
def namesText (names : List Name) : String :=
  Text.join ", " (names.map Name.text)

/-- A character as an escaped text writes it. -/
def escapedChar : Char → List Char
  | '\'' => ['\\', '\'']
  | '\\' => ['\\', '\\']
  | '\n' => ['\\', 'n']
  | '\t' => ['\\', 't']
  | '\r' => ['\\', 'r']
  | c => [c]

/-- Hexadecimal digits in upper case, as many as given at least. -/
def hexDigits (width n : Nat) : List Char :=
  let digits := (Nat.toDigits 16 n).map Char.toUpper
  List.replicate (width - digits.length) '0' ++ digits

/-- A character as a text with code points writes it. -/
def codePointText : Char → List Char
  | '\'' => ['\'', '\'']
  | '\\' => ['\\', '\\']
  | c =>
    if c.toNat < 0x80 then [c]
    else if c.toNat ≤ 0xffff then '\\' :: hexDigits 4 c.toNat
    else '\\' :: '+' :: hexDigits 6 c.toNat

namespace TextKind

/-- A text of a kind as it is written. -/
def literal (kind : TextKind) (s : String) : String :=
  match kind with
  | .plain => withQuotes '\'' s
  | .escaped => kind.enclose (String.ofList (s.toList.flatMap escapedChar))
  | .unicode => kind.enclose (String.ofList (s.toList.flatMap codePointText))
  | _ => kind.enclose s

end TextKind

def Literal.written : Literal → String
  | .null => "NULL"
  | .boolean true => "true"
  | .boolean false => "false"
  | .number digits long => digits ++ (if long then "L" else "")
  | .text kind s => kind.literal s
  | .quoted s => withQuotes '"' s
  | .dollar tag s => "$" ++ tag ++ "$" ++ s ++ "$" ++ tag ++ "$"
  | .placeholder s => s

end Sql
end PolyglotSql
