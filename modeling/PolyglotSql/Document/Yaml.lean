import PolyglotSql.Binary64.Reading
import PolyglotSql.Document.Basic

/-!
# PolyglotSql.Document.Yaml

Structured data as YAML text in block style. A text is written plain where it cannot be taken for
anything else, in single quotes where it could be, in double quotes where it has characters that
need escapes, and as a literal block where it has line breaks.
-/

namespace PolyglotSql
namespace Yaml

/-! ## What a plain text would be read as -/

/-- A sign and leading zero before nothing but digits: no number, and not to be taken for one. -/
def hasIdleZero (s : List Char) : Bool :=
  let unsigned := match s with
    | '-' :: rest | '+' :: rest => rest
    | _ => s
  match unsigned with
  | '0' :: c :: rest => (c :: rest).all Char.isDigit
  | _ => false

/-- The digit values that an integer's radix marker admits. -/
def isRadixDigit (radix : Nat) (c : Char) : Bool :=
  if radix = 16 then c.isDigit || ('a' ≤ c && c ≤ 'f') || ('A' ≤ c && c ≤ 'F')
  else '0' ≤ c && decide (c.toNat < 48 + radix)

/-- The value of a digit in any radix up to sixteen. -/
def digitValue (c : Char) : Nat :=
  if c.isDigit then c.toNat - 48 else c.toLower.toNat - 87

/-- Whether digits in a radix stay below a bound. -/
def isInteger (radix bound : Nat) (digits : List Char) : Bool :=
  !digits.isEmpty && digits.all (isRadixDigit radix)
    && decide (digits.foldl (fun n c => radix * n + digitValue c) 0 < bound)

/-- Whether a text without plus sign is an integer with a radix marker, of at most 128 bits. -/
def isMarkedInteger (s : List Char) : Bool :=
  let (bound, unsigned) := match s with
    | '-' :: rest => (Nat.pow 2 127 + 1, rest)
    | _ => (Nat.pow 2 128, s)
  match unsigned with
  | '0' :: 'x' :: digits => isInteger 16 bound digits
  | '0' :: 'o' :: digits => isInteger 8 bound digits
  | '0' :: 'b' :: digits => isInteger 2 bound digits
  | _ => false

/-- Whether a text would be read as a number. -/
def isNumber (s : String) : Bool :=
  let unpositive := match s.toList with
    | '+' :: rest => rest
    | cs => cs
  let doubled := s.toList.head? = some '+'
    && (unpositive.head? = some '+' || unpositive.head? = some '-')
  if doubled then false
  else if isMarkedInteger unpositive then true
  else if hasIdleZero s.toList then false
  else if [".inf", ".Inf", ".INF"].contains (String.ofList unpositive) then true
  else if ["-.inf", "-.Inf", "-.INF", ".nan", ".NaN", ".NAN"].contains s then true
  else
    match Binary64.read? (String.ofList unpositive) with
    | some x => !x.isNaN && !x.isInfinite
    | none => false

/-- Texts that stand for `null` or a truth value. -/
def keywords : List String :=
  ["", "null", "Null", "NULL", "~", "true", "True", "TRUE", "false", "False", "FALSE"]

/-- Whether a plain text would be read as something other than a text, or nearly so. -/
def isMisleading (s : String) : Bool :=
  keywords.contains s || isNumber s || hasIdleZero s.toList

/-! ## What the characters of a text admit -/

def isBreak (c : Char) : Bool :=
  c == '\n' || c == '\r' || c == '\u0085' || c == '\u2028' || c == '\u2029'

/-- Blanks, breaks and the end of the text. -/
def isBlankOrEnd : Option Char → Bool
  | none => true
  | some c => c == ' ' || c == '\t' || isBreak c

/-- Characters that may stand outside escapes. -/
def isPrintable (c : Char) : Bool :=
  c == '\n' || (' ' ≤ c && c ≤ '~')
    || ('\u00a0' ≤ c && c ≠ '\ufeff' && c ≠ '\ufffe' && c ≠ '\uffff')

/-- Characters with a meaning of their own at the start of a plain text. -/
def startIndicators : List Char :=
  ['#', ',', '[', ']', '\x7b', '\x7d', '&', '*', '!', '|', '>', '\'', '"', '%', '@', '`']

/-- Whether some character, seen with its neighbours, would be taken for structure. -/
def hasIndicator : (before : Option Char) → List Char → Bool
  | _, [] => false
  | before, c :: rest =>
    let blankAhead := isBlankOrEnd rest.head?
    let here := match before with
      | none =>
        startIndicators.contains c || ((c == '?' || c == ':' || c == '-') && blankAhead)
      | some b => (c == ':' && blankAhead) || (c == '#' && isBlankOrEnd (some b))
    here || hasIndicator (some c) rest

/-- Whether a text begins like a document marker. -/
def hasMarker (s : List Char) : Bool :=
  s.take 3 == ['-', '-', '-'] || s.take 3 == ['.', '.', '.']

/-- Whether a character of one class is directly followed by one of another. -/
def hasPair (first second : Char → Bool) : List Char → Bool
  | a :: b :: rest => (first a && second b) || hasPair first second (b :: rest)
  | _ => false

/-- The ways to write a text. -/
inductive ScalarStyle where
  | plain | single | double | literal
deriving DecidableEq

/-- The style of a text: a literal block if it has line feeds and admits one, otherwise the first
of plain, single and double quotes that it admits. -/
def styleOf (s : String) : ScalarStyle :=
  let cs := s.toList
  let isSpace := fun c => c == ' '
  let spaceBreak := hasPair isSpace isBreak cs
  let breakSpace := hasPair isBreak isSpace cs
  let special := cs.any fun c => !isPrintable c
  let edge := fun c => isSpace c || isBreak c
  let ragged := (cs.head?.map edge).getD false || (cs.getLast?.map edge).getD false
  let endsInSpace := cs.getLast? = some ' '
  if cs.contains '\n' then
    if spaceBreak || special || endsInSpace then .double else .literal
  else
    let plainAllowed := !ragged && !breakSpace && !spaceBreak && !special && !cs.any isBreak
      && !hasMarker cs && !hasIndicator none cs
    if plainAllowed && !isMisleading s then .plain
    else if !breakSpace && !spaceBreak && !special then .single
    else .double

/-! ## Writing -/

def blanks (n : Nat) : List Char :=
  List.replicate n ' '

/-- Characters line by line, each line that is not empty indented; `fresh` tells whether a line
begins. -/
def indentLines (indent : Nat) : (fresh : Bool) → List Char → List Char
  | _, [] => []
  | fresh, c :: rest =>
    if isBreak c then c :: indentLines indent true rest
    else (if fresh then blanks indent else []) ++ c :: indentLines indent false rest

/-- The header of a literal block: an explicit indentation where the text begins with a blank, and
what becomes of the breaks at its end. -/
def literalHeader (s : List Char) : List Char :=
  let hint := match s with
    | c :: _ => if c == ' ' || isBreak c then ['2'] else []
    | [] => []
  let chomp := match s.reverse with
    | [] => ['-']
    | [last] => if isBreak last then ['+'] else ['-']
    | last :: before :: _ => if !isBreak last then ['-'] else if isBreak before then ['+'] else []
  '|' :: hint ++ chomp ++ ['\n']

/-- A digit of an escape, in upper case. -/
def hexDigit (n : Nat) : Char :=
  (Nat.digitChar n).toUpper

/-- A number in a fixed count of digits of an escape. -/
def hexDigits : (count : Nat) → Nat → List Char
  | 0, _ => []
  | count + 1, n => hexDigits count (n / 16) ++ [hexDigit (n % 16)]

/-- A character between double quotes. -/
def escapeChar (c : Char) : List Char :=
  if isPrintable c && !isBreak c && c ≠ '"' && c ≠ '\\' then [c]
  else
    '\\' :: match c with
      | '\x00' => ['0']
      | '\x07' => ['a']
      | '\x08' => ['b']
      | '\t' => ['t']
      | '\n' => ['n']
      | '\x0b' => ['v']
      | '\x0c' => ['f']
      | '\r' => ['r']
      | '\x1b' => ['e']
      | '"' => ['"']
      | '\\' => ['\\']
      | '\u0085' => ['N']
      | '\u2028' => ['L']
      | '\u2029' => ['P']
      | c =>
        if c.toNat ≤ 0xFF then 'x' :: hexDigits 2 c.toNat
        else if c.toNat ≤ 0xFFFF then 'u' :: hexDigits 4 c.toNat
        else 'U' :: hexDigits 8 c.toNat

/-- A text below an entry of a given indentation. -/
def writeText (indent : Nat) (s : String) : String :=
  let cs := s.toList
  match styleOf s with
  | .plain => s
  | .single =>
    let doubled := cs.flatMap fun c => if c = '\'' then [c, c] else [c]
    let closing := if (cs.getLast?.map isBreak).getD false then blanks (indent + 2) else []
    String.ofList ('\'' :: indentLines (indent + 2) false doubled ++ closing ++ ['\''])
  | .double => String.ofList ('"' :: cs.flatMap escapeChar ++ ['"'])
  | .literal => String.ofList (literalHeader cs ++ indentLines (indent + 2) true cs)

/-- A scalar below an entry of a given indentation; nothing for lists and records with content. -/
def writeScalar? (indent : Nat) : Document → Option String
  | .null => some "null"
  | .boolean b => some (if b then "true" else "false")
  | .integer n => some (toString n)
  | .float x => some (x.format Binary64.yamlStyle)
  | .text s => some (writeText indent s)
  | .list [] => some "[]"
  | .record [] => some "\x7b\x7d"
  | .list _ | .record _ => none

/-- A text with a line break at its end, unless it ends with one. -/
def endLine (s : String) : String :=
  match s.toList.getLast? with
  | some c => if isBreak c then s else s.push '\n'
  | none => "\n"

/-- The blanks in front of an entry; the first entry of a list or record inside a list goes on in
the line of its dash. -/
def lead (indent : Nat) (inline : Bool) : String :=
  if inline then "" else String.ofList (blanks indent)

mutual

/-- Lists and records in block style. -/
def writeBlock (indent : Nat) (inline : Bool) : Document → String
  | .list items => writeItems indent inline items
  | .record fields => writeFields indent inline fields
  | scalar => ((writeScalar? indent scalar).map endLine).getD ""

/-- The items of a list, each behind a dash. -/
def writeItems (indent : Nat) (inline : Bool) : List Document → String
  | [] => ""
  | item :: items =>
    lead indent inline ++ "- "
      ++ (match writeScalar? indent item with
        | some scalar => endLine scalar
        | none => writeBlock (indent + 2) true item)
      ++ writeItems indent false items

/-- The fields of a record. A list as a field's value is not indented further. -/
def writeFields (indent : Nat) (inline : Bool) : List (String × Document) → String
  | [] => ""
  | (name, value) :: fields =>
    lead indent inline ++ name ++ ":"
      ++ (match writeScalar? indent value with
        | some scalar => " " ++ endLine scalar
        | none =>
          match value with
          | .list items => "\n" ++ writeItems indent false items
          | value => "\n" ++ writeBlock (indent + 2) false value)
      ++ writeFields indent false fields

end
end Yaml

namespace Document

/-- YAML text in block style. -/
def yaml (d : Document) : String :=
  match Yaml.writeScalar? 0 d with
  | some scalar => Yaml.endLine scalar
  | none => Yaml.writeBlock 0 false d

end Document
end PolyglotSql
