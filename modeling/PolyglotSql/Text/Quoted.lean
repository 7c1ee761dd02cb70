import PolyglotSql.Text.Basic

/-!
# PolyglotSql.Text.Quoted

Texts between double quotes, as messages show them to programmers: quotes, backslashes, line breaks
and other control characters are escaped.
-/

namespace PolyglotSql
namespace Text

/-- Lower-case hexadecimal digits of a number, without leading zeros. -/
def hexadecimal (n : Nat) : List Char :=
  Nat.toDigits 16 n

/-- A character between double quotes. -/
def escapeQuoted (c : Char) : List Char :=
  match c with
  | '"' => ['\\', '"']
  | '\\' => ['\\', '\\']
  | '\n' => ['\\', 'n']
  | '\r' => ['\\', 'r']
  | '\t' => ['\\', 't']
  | '\x00' => ['\\', '0']
  | c =>
    if c.toNat < 32 ∨ (127 ≤ c.toNat ∧ c.toNat < 160) then
      '\\' :: 'u' :: '\x7b' :: hexadecimal c.toNat ++ ['\x7d']
    else [c]

/-- A text between double quotes. -/
def quoted (s : String) : String :=
  String.ofList ('"' :: s.toList.flatMap escapeQuoted ++ ['"'])

end Text
end PolyglotSql
