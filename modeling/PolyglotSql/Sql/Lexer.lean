import PolyglotSql.Sql.Token

/-!
# PolyglotSql.Sql.Lexer

A script cut into tokens. Blanks and comments separate tokens and are dropped; a comment between
`/*` and `*/` may hold further ones. Among the symbols that begin alike the longest one is taken.

A text that does not close, or a character that cannot stand where it is, is a fault at a place.
-/

namespace PolyglotSql
namespace Sql

/-- Why a script cannot be cut, and the characters from there on. -/
structure Fault where
  what : String
  rest : List Char

/-- What a scanner finds, and the characters behind it. -/
abbrev Scan (α : Type) := Except Fault (α × List Char)

/-- A piece of a script: a token, or something that only separates tokens. -/
inductive Piece where
  | blank (shown : String)
  | token (t : Token)

namespace Lexer

def beginsName (c : Char) : Bool :=
  CharClass.isLetter c || c == '_' || c == '#' || c == '@'

def continuesName (c : Char) : Bool :=
  CharClass.isLetter c || c.isDigit || c == '@' || c == '$' || c == '#' || c == '_'

/-- A word that begins with given characters. -/
def wordFrom (first rest : List Char) : Token × List Char :=
  let (more, rest) := rest.span continuesName
  (.word (.bare (first ++ more)), rest)

/-! ## Quoted texts -/

/-- Puts a character in front of what was found. -/
def found (c : Char) : List Char × List Char → List Char × List Char
  | (s, rest) => (c :: s, rest)

/-- What a backslash makes of the character behind it. -/
def backslashed : Char → Char
  | '0' => '\x00'
  | 'a' => '\x07'
  | 'b' => '\x08'
  | 'f' => '\x0c'
  | 'n' => '\n'
  | 'r' => '\r'
  | 't' => '\t'
  | 'Z' => '\x1a'
  | c => c

/-- The text up to the closing quote; a quote is written twice within, and a backslash may stand
for another character. Nothing if the text does not close. -/
def untilQuote (quote : Char) (backslashes : Bool) : List Char → Option (List Char × List Char)
  | [] => none
  | [c] => if c = quote then some ([], []) else none
  | c :: d :: cs =>
    if c = quote then
      if d = quote then (untilQuote quote backslashes cs).map (found quote) else some ([], d :: cs)
    else if c = '\\' ∧ backslashes then
      (untilQuote quote backslashes cs).map (found (backslashed d))
    else (untilQuote quote backslashes (d :: cs)).map (found c)

/-- A quoted text, its opening quote included. -/
def quotedText (kind : TextKind) (quote : Char) (backslashes : Bool) (cs : List Char) :
    Scan Token :=
  match untilQuote quote backslashes cs.tail with
  | some (s, rest) => .ok (.text kind (String.ofList s), rest)
  | none => .error ⟨"Unterminated string literal", cs⟩

/-- A raw text, its opening quotes included: one, or three, or two around nothing. -/
def rawText (quote : Char) (cs : List Char) : Scan Token :=
  match Text.dropLeading [quote, quote, quote] cs, Text.dropLeading [quote, quote] cs with
  | some inner, _ =>
    match Text.cutAt [quote, quote, quote] inner with
    | some (s, rest) => .ok (.text (.raw quote true) (String.ofList s), rest)
    | none => .error ⟨"Unterminated string literal", inner⟩
  | none, some rest => .ok (.text (.raw quote false) "", rest)
  | none, none =>
    match untilQuote quote false cs.tail with
    | some (s, rest) => .ok (.text (.raw quote false) (String.ofList s), rest)
    | none => .error ⟨"Unterminated string literal", cs.tail⟩

/-- The value of a hexadecimal digit. -/
def hexDigit? (c : Char) : Option Nat :=
  if c.isDigit then some (c.toNat - 48)
  else if 'a' ≤ c ∧ c ≤ 'f' then some (c.toNat - 87)
  else if 'A' ≤ c ∧ c ≤ 'F' then some (c.toNat - 55)
  else none

/-- The number that hexadecimal digits write. -/
def hexNumber? (s : List Char) : Option Nat :=
  if s.isEmpty then none
  else s.foldl (fun acc c => acc.bind fun n => (hexDigit? c).map (16 * n + ·)) (some 0)

/-- The character of a code point. -/
def charOf? (n : Nat) : Option Char :=
  if n.isValidChar then some (Char.ofNat n) else none

/-- A character of a text that is not the end mark. -/
def nonNull? (c : Char) : Option Char :=
  if c = '\x00' then none else some c

/-- The character written by a byte below 128. -/
def asciiOf? (byte : Nat) : Option Char :=
  if byte % 256 < 128 then some (Char.ofNat (byte % 256)) else none

/-- The character that an escape stands for, behind its backslash, and how many characters write
it. -/
def escape? : List Char → Option (Char × Nat)
  | [] => none
  | 'b' :: _ => some ('\x08', 1)
  | 'f' :: _ => some ('\x0c', 1)
  | 'n' :: _ => some ('\n', 1)
  | 'r' :: _ => some ('\r', 1)
  | 't' :: _ => some ('\t', 1)
  | 'u' :: rest => (codePoint? rest 4).map (·, 5)
  | 'U' :: rest => (codePoint? rest 8).map (·, 9)
  | 'x' :: rest =>
    let digits := (rest.take 2).takeWhile fun c => (hexDigit? c).isSome
    if digits.isEmpty then some ('x', 1)
    else ((hexNumber? digits).bind asciiOf?).map (·, digits.length + 1)
  | c :: rest =>
    let octal := fun d : Char => '0' ≤ d ∧ d ≤ '7'
    if octal c then
      let digits := c :: (rest.take 2).takeWhile fun d => decide (octal d)
      (asciiOf? (digits.foldl (fun n d => 8 * n + (d.toNat - 48)) 0)).map (·, digits.length)
    else some (c, 1)
where
  /-- A code point in a fixed number of places; a plus sign may stand in the first. -/
  codePoint? (rest : List Char) (places : Nat) : Option Char :=
    let digits := rest.take places
    if digits.length < places then none
    else
      match digits with
      | '+' :: digits => (hexNumber? digits).bind charOf?
      | digits => (hexNumber? digits).bind charOf?

/-- An escaped text up to its closing quote, in at most as many steps as given. -/
def untilEscapedQuote : (steps : Nat) → List Char → Option (List Char × List Char)
  | 0, _ => none
  | _, [] => none
  | steps + 1, '\'' :: cs =>
    match cs with
    | '\'' :: rest => (untilEscapedQuote steps rest).map (found '\'')
    | _ => some ([], cs)
  | steps + 1, '\\' :: cs =>
    match escape? cs with
    | some (c, count) =>
      match nonNull? c with
      | some c => (untilEscapedQuote steps (cs.drop count)).map (found c)
      | none => none
    | none => none
  | steps + 1, c :: cs => (untilEscapedQuote steps cs).map (found c)

/-- Reads a number of hexadecimal digits of a text with code points. -/
def codePointDigits : (count : Nat) → (value : Nat) → List Char → Scan Nat
  | 0, value, cs => .ok (value, cs)
  | _ + 1, _, [] =>
    .error ⟨"Unexpected EOF while parsing hex digit in escaped unicode string.", []⟩
  | count + 1, value, c :: cs =>
    match hexDigit? c with
    | some digit => codePointDigits count (16 * value + digit) cs
    | none =>
      .error ⟨"Invalid hex digit in escaped unicode string: " ++ String.singleton c, cs⟩

/-- Hexadecimal digits of a number, in lower case. -/
def hexText (n : Nat) : String :=
  String.ofList (Nat.toDigits 16 n)

def codePointChar (count : Nat) (cs : List Char) : Scan Char :=
  match codePointDigits count 0 cs with
  | .error fault => .error fault
  | .ok (value, rest) =>
    match charOf? value with
    | some c => .ok (c, rest)
    | none => .error ⟨"Invalid unicode character: " ++ hexText value, rest⟩

/-- A text with code points up to its closing quote, in at most as many steps as given. -/
def untilUnicodeQuote : (steps : Nat) → List Char → Scan (List Char)
  | 0, cs => .error ⟨"Unterminated unicode encoded string literal", cs⟩
  | _, [] => .error ⟨"Unterminated unicode encoded string literal", []⟩
  | steps + 1, c :: cs =>
    let next : Scan (Option Char) :=
      match c, cs with
      | '\'', '\'' :: rest => .ok (some '\'', rest)
      | '\'', _ => .ok (none, cs)
      | '\\', '\\' :: rest => .ok (some '\\', rest)
      | '\\', '+' :: rest => (codePointChar 6 rest).map fun (c, rest) => (some c, rest)
      | '\\', _ => (codePointChar 4 cs).map fun (c, rest) => (some c, rest)
      | _, _ => .ok (some c, cs)
    match next with
    | .ok (some c, rest) => (untilUnicodeQuote steps rest).map (found c)
    | .ok (none, rest) => .ok ([], rest)
    | .error fault => .error fault

/-! ## Dollar signs -/

/-- The text up to two dollar signs in a row. A single dollar sign is kept when another character
follows it. -/
def untilDollars : (afterDollar : Bool) → List Char → Option (List Char × List Char)
  | _, [] => none
  | afterDollar, c :: cs =>
    if c = '$' then
      if afterDollar then some ([], cs) else untilDollars true cs
    else
      (untilDollars false cs).map fun (s, rest) =>
        (if afterDollar then '$' :: c :: s else c :: s, rest)

/-- What a dollar sign begins: a placeholder, or a text between two tags. -/
def dollar (cs : List Char) : Scan Token :=
  match cs with
  | '$' :: inner =>
    match untilDollars false inner with
    | some (s, rest) => .ok (.dollar "" (String.ofList s), rest)
    | none => .error ⟨"Unterminated dollar-quoted string", []⟩
  | _ =>
    let (tag, rest) := cs.span fun c => CharClass.isLetter c || CharClass.isNumber c || c == '_'
    match rest with
    | '$' :: inner =>
      match Text.cutAt ('$' :: tag ++ ['$']) inner with
      | some (s, rest) => .ok (.dollar (String.ofList tag) (String.ofList s), rest)
      | none => .error ⟨"Unterminated dollar-quoted, expected $", []⟩
    | _ => .ok (.placeholder ("$" ++ String.ofList tag), rest)

/-! ## Numbers -/

/-- The exponent that follows a number, if digits stand behind its mark. -/
def exponent (cs : List Char) : List Char × List Char :=
  let (mark, digits) :=
    match cs with
    | e :: s :: rest =>
      if s = '+' ∨ s = '-' then ([e, s], rest) else ([e], s :: rest)
    | [e] => ([e], [])
    | [] => ([], [])
  if mark.head? = some 'e' ∨ mark.head? = some 'E' then
    match digits.span Char.isDigit with
    | ([], _) => ([], cs)
    | (digits, rest) => (mark ++ digits, rest)
  else ([], cs)

/-- A number or a period. A period behind a word and before an underscore belongs to a name. -/
def number (afterWord : Bool) (cs : List Char) : Scan Token :=
  match cs with
  | '.' :: '_' :: rest =>
    if afterWord then .ok (.symbol ".", '_' :: rest)
    else .error ⟨"Unexpected character '_'", cs⟩
  | _ =>
    let (whole, rest) := cs.span Char.isDigit
    match whole, rest with
    | ['0'], 'x' :: rest =>
      let (digits, rest) := rest.span fun c => (hexDigit? c).isSome
      .ok (.text .hex (String.ofList digits), rest)
    | _, _ =>
      let (period, rest) := match rest with
        | '.' :: rest => (['.'], rest)
        | _ => ([], rest)
      let (fraction, rest) := rest.span Char.isDigit
      let mantissa := whole ++ period ++ fraction
      if mantissa = ['.'] then .ok (.symbol ".", rest)
      else
        let (power, rest) := exponent rest
        let digits := String.ofList (mantissa ++ power)
        match rest with
        | 'L' :: rest => .ok (.number digits true, rest)
        | _ => .ok (.number digits false, rest)

/-! ## Comments -/

/-- What follows a comment that began with so many openings; nothing if it does not close. -/
def afterComment : (openings : Nat) → List Char → Option (List Char)
  | _, [] => none
  | _, [_] => none
  | openings, c :: d :: cs =>
    if c = '/' ∧ d = '*' then afterComment (openings + 1) cs
    else if c = '*' ∧ d = '/' then
      if openings ≤ 1 then some cs else afterComment (openings - 1) cs
    else afterComment openings (d :: cs)

/-- What follows the end of the line. -/
def afterLine (cs : List Char) : List Char :=
  (cs.dropWhile (· ≠ '\n')).drop 1

/-- The characters in front of what follows. -/
def before (cs rest : List Char) : String :=
  String.ofList (cs.take (cs.length - rest.length))

/-! ## Symbols -/

/-- The symbols, each before every other that it begins with. -/
def symbols : List String :=
  ["->>", "->", "-", "//", "/", "+", "*", "%", "||/", "||", "|/", "|>", "|", "=>", "==", "=",
   "!=", "!!", "!~~*", "!~~", "!~*", "!~", "!", "<=>", "<=", "<>", "<<", "<@", "<", ">=", ">>", ">",
   "::", ":=", ":", ";", "\\", "[", "]", "&&", "&", "^@", "^", "\x7b", "\x7d", "~~*", "~~", "~*", "~",
   "(", ")", ","]

/-- A symbol at the front of a text. Two spellings of inequality are one symbol. -/
def symbol? (cs : List Char) : Option (Token × List Char) :=
  symbols.findSome? fun s =>
    (Text.dropLeading s.toList cs).map fun rest => (.symbol (if s = "!=" then "<>" else s), rest)

/-- What a number sign begins. -/
def hash (cs : List Char) : Token × List Char :=
  match cs with
  | '-' :: rest => (.symbol "#-", rest)
  | '>' :: '>' :: rest => (.symbol "#>>", rest)
  | '>' :: rest => (.symbol "#>", rest)
  | [] => (.symbol "#", [])
  | ' ' :: _ => (.symbol "#", cs)
  | c :: rest => wordFrom ['#', c] rest

/-- What an at sign begins. -/
def atSign (cs : List Char) : Token × List Char :=
  match cs with
  | '>' :: rest => (.symbol "@>", rest)
  | '?' :: rest => (.symbol "@?", rest)
  | '@' :: rest =>
    match rest with
    | [] => (.symbol "@@", [])
    | ' ' :: _ => (.symbol "@@", rest)
    | c :: rest => wordFrom ['@', '@', c] rest
  | [] => (.symbol "@", [])
  | c :: rest =>
    if c = ' ' ∨ c = '\'' ∨ c = '"' ∨ c = '`' then (.symbol "@", cs) else wordFrom ['@', c] rest

/-! ## Pieces -/

/-- A quoted name, its opening quote included. -/
def quotedName (quote : Char) (cs : List Char) : Scan Token :=
  match untilQuote quote false cs.tail with
  | some (s, rest) => .ok (.word (.quoted quote s), rest)
  | none =>
    .error ⟨"Expected close delimiter '" ++ String.singleton quote ++ "' before EOF.", cs⟩

/-- What a letter begins that may announce a quoted text. -/
def letter (c : Char) (cs : List Char) : Scan Token :=
  let word : Scan Token := .ok (wordFrom [c] cs)
  match c.toUpper, cs with
  | 'B', '\'' :: _ => quotedText (.bytes '\'') '\'' false cs
  | 'B', '"' :: _ => quotedText (.bytes '"') '"' false cs
  | 'R', '\'' :: _ => rawText '\'' cs
  | 'R', '"' :: _ => rawText '"' cs
  | 'N', '\'' :: _ => quotedText .national '\'' false cs
  | 'X', '\'' :: _ => quotedText .hex '\'' true cs
  | 'E', '\'' :: inner =>
    match untilEscapedQuote (inner.length + 1) inner with
    | some (s, rest) => .ok (.text .escaped (String.ofList s), rest)
    | none => .error ⟨"Unterminated encoded string literal", c :: cs⟩
  | 'U', '&' :: '\'' :: inner =>
    (untilUnicodeQuote (inner.length + 1) inner).map fun (s, rest) =>
      (.text .unicode (String.ofList s), rest)
  | _, _ => word

/-- The piece at the front of a text that is not empty. -/
def piece (afterWord : Bool) (c : Char) (cs : List Char) : Scan Piece :=
  let token : Scan Token → Scan Piece := Except.map fun (t, rest) => (.token t, rest)
  match c, cs with
  | '\t', _ => .ok (.blank "\t", cs)
  | '\n', _ => .ok (.blank "\n", cs)
  | '\r', '\n' :: rest => .ok (.blank "\n", rest)
  | '\r', _ => .ok (.blank "\n", cs)
  | '-', '-' :: _ =>
    let rest := afterLine cs
    .ok (.blank (before (c :: cs) rest), rest)
  | '/', '*' :: inner =>
    match afterComment 1 inner with
    | some rest => .ok (.blank (before (c :: cs) rest), rest)
    | none => .error ⟨"Unexpected EOF while in a multi-line comment", []⟩
  | '\'', _ => token (quotedText .plain '\'' false (c :: cs))
  | '"', _ => token (quotedName '"' (c :: cs))
  | '`', _ => token (quotedName '`' (c :: cs))
  | '.', _ => token (number afterWord (c :: cs))
  | '$', _ => token (dollar cs)
  | '?', _ =>
    let (digits, rest) := cs.span CharClass.isNumber
    token (.ok (.placeholder ("?" ++ String.ofList digits), rest))
  | '#', _ => token (.ok (hash cs))
  | '@', _ => token (.ok (atSign cs))
  | _, _ =>
    if c.isDigit then token (number afterWord (c :: cs))
    else if beginsName c then token (letter c cs)
    else if CharClass.isSpace c then .ok (.blank " ", cs)
    else token (.ok ((symbol? (c :: cs)).getD (.symbol (String.singleton c), cs)))

/-- Cuts a text into tokens in at most as many steps as given; each piece takes one character at
least. The end of the text is the last token. The blanks since the last token are given in reverse. -/
def tokensFrom : (steps : Nat) → (afterWord : Bool) → Position → List (String × Position) →
    List Char → Except (String × Position) (List Located)
  | 0, _, position, blanks, _ | _, _, position, blanks, [] =>
    .ok [{ token := .eof, position, ending := position, blanks := blanks.reverse }]
  | steps + 1, afterWord, position, blanks, c :: cs =>
    let size := cs.length + 1
    let placeOf := fun rest : List Char => position.advance (size - rest.length) (c :: cs)
    match piece afterWord c cs with
    | .error fault => .error (fault.what, placeOf fault.rest)
    | .ok (.blank shown, rest) =>
      tokensFrom steps false (placeOf rest) ((shown, position) :: blanks) rest
    | .ok (.token token, rest) => do
      let isWord := match token with
        | .word _ => true
        | _ => false
      let more ← tokensFrom steps isWord (placeOf rest) [] rest
      .ok ({ token, position, ending := placeOf rest, blanks := blanks.reverse } :: more)

end Lexer

/-- The tokens of a script, its end included, or why it cannot be cut and where. -/
def tokens (script : String) : Except (String × Position) (List Located) :=
  let cs := script.toList
  Lexer.tokensFrom cs.length false .start [] cs

end Sql
end PolyglotSql
