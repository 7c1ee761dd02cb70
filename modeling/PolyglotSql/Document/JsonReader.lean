import PolyglotSql.Binary64.Scaling
import PolyglotSql.Document.Basic

/-!
# PolyglotSql.Document.JsonReader

Reading JSON text. Integers of at most 64 bits are kept exactly; other numbers become floating
point numbers, and one beyond their range is an error. Lists and records nest to a fixed depth.
-/

namespace PolyglotSql
namespace Json

/-- What is left of a text after reading something off its front. -/
abbrev Reader (α : Type) := List Char → Option (α × List Char)

/-- White space between tokens. -/
def isBlank (c : Char) : Bool :=
  c == ' ' || c == '\n' || c == '\t' || c == '\r'

/-- Drops white space. -/
def skipBlanks (s : List Char) : List Char :=
  s.dropWhile isBlank

/-! ## Numbers -/

/-- Largest unsigned 64-bit integer. -/
def unsignedMax : Nat := Nat.pow 2 64 - 1

/-- Takes digits into a significand as long as it stays within 64 bits: the significand, how many
digits were taken, how many more there were, and what follows them. -/
def takeDigits : (significand : Nat) → List Char → Nat × Nat × Nat × List Char
  | n, c :: rest =>
    if !c.isDigit then (n, 0, 0, c :: rest)
    else
      let grown := 10 * n + (c.toNat - 48)
      if unsignedMax < grown then
        let (more, rest) := (c :: rest).span Char.isDigit
        (n, 0, more.length, rest)
      else
        let (n, taken, dropped, rest) := takeDigits grown rest
        (n, taken + 1, dropped, rest)
  | n, [] => (n, 0, 0, [])

/-- Largest exponent that is told apart from larger ones. -/
def exponentMax : Nat := Nat.pow 2 31 - 1

/-- Reads an optional sign and digits after `e`, and scales the significand. -/
def readExponent (significand : Nat) (start : Int) (s : List Char) :
    Option (Binary64 × List Char) :=
  let (negative, s) := match s with
    | '+' :: rest => (false, rest)
    | '-' :: rest => (true, rest)
    | rest => (false, rest)
  let (digits, rest) := s.span Char.isDigit
  if digits.isEmpty then none
  else
    let e := Binary64.digitsValue 0 digits
    if exponentMax < e then
      if significand ≠ 0 ∧ !negative then none else some (.zero, rest)
    else
      (Binary64.scaled significand (start + (if negative then -(e : Int) else e))).map (·, rest)

/-- Goes on after the digits of a number with an exponent, if one follows. -/
def readScale (significand : Nat) (exponent : Int) : Reader Binary64
  | c :: rest =>
    if c = 'e' ∨ c = 'E' then readExponent significand exponent rest
    else (Binary64.scaled significand exponent).map (·, c :: rest)
  | [] => (Binary64.scaled significand exponent).map (·, [])

/-- Reads a magnitude: an integer, or a number with a fraction, an exponent or too many digits. -/
def readMagnitude (s : List Char) : Option ((Nat ⊕ Binary64) × List Char) :=
  match s with
  | [] => none
  | c :: more =>
    if !c.isDigit then none
    else if c = '0' ∧ (more.head?.map Char.isDigit).getD false then none
    else
      let (n, _, dropped, rest) := takeDigits 0 s
      match rest with
      | '.' :: fraction =>
        if !(fraction.head?.map Char.isDigit).getD false then none
        else
          let (n, taken, _, rest) := takeDigits n fraction
          (readScale n (dropped - taken) rest).map fun (x, rest) => (.inr x, rest)
      | rest =>
        let exponent := rest.head? = some 'e' ∨ rest.head? = some 'E'
        if dropped = 0 ∧ ¬ exponent then some (.inl n, rest)
        else (readScale n dropped rest).map fun (x, rest) => (.inr x, rest)

/-- Reads a number. A negative integer beyond 64 bits and a negative zero are floating point
numbers. -/
def readNumber : Reader Document
  | '-' :: s =>
    (readMagnitude s).map fun (number, rest) =>
      match number with
      | .inl n =>
        if 0 < n ∧ n ≤ Nat.pow 2 63 then (.integer (-n), rest)
        else (.float (Binary64.ofNat n).negate, rest)
      | .inr x => (.float x.negate, rest)
  | s =>
    (readMagnitude s).map fun (number, rest) =>
      match number with
      | .inl n => (.integer n, rest)
      | .inr x => (.float x, rest)

/-! ## Texts -/

def hexValue? (c : Char) : Option Nat :=
  if c.isDigit then some (c.toNat - 48)
  else if 'a' ≤ c ∧ c ≤ 'f' then some (c.toNat - 87)
  else if 'A' ≤ c ∧ c ≤ 'F' then some (c.toNat - 55)
  else none

/-- The value of four hexadecimal digits. -/
def readHex : Reader Nat
  | a :: b :: c :: d :: rest => do
    let a ← hexValue? a
    let b ← hexValue? b
    let c ← hexValue? c
    let d ← hexValue? d
    some (((a * 16 + b) * 16 + c) * 16 + d, rest)
  | _ => none

/-- Reads the digits of a `\u` escape; a leading half of a pair needs the other half behind it. -/
def readUnicode : Reader Char := fun s => do
  let (unit, rest) ← readHex s
  if 0xDC00 ≤ unit ∧ unit ≤ 0xDFFF then none
  else if 0xD800 ≤ unit ∧ unit ≤ 0xDBFF then
    match rest with
    | '\\' :: 'u' :: rest =>
      let (low, rest) ← readHex rest
      if 0xDC00 ≤ low ∧ low ≤ 0xDFFF then
        some (Char.ofNat (0x10000 + (unit - 0xD800) * 0x400 + (low - 0xDC00)), rest)
      else none
    | _ => none
  else some (Char.ofNat unit, rest)

/-- What an escape other than `\u` stands for. -/
def escaped? : Char → Option Char
  | '"' => some '"'
  | '\\' => some '\\'
  | '/' => some '/'
  | 'b' => some '\x08'
  | 'f' => some '\x0c'
  | 'n' => some '\n'
  | 'r' => some '\r'
  | 't' => some '\t'
  | _ => none

/-- Reads the characters of a text up to its closing quote. -/
def readChars : (steps : Nat) → Reader (List Char)
  | 0, _ => none
  | _, [] => none
  | steps + 1, c :: rest =>
    if c = '"' then some ([], rest)
    else if c.toNat < 32 then none
    else do
      let (c, rest) ← match c, rest with
        | '\\', 'u' :: rest => readUnicode rest
        | '\\', e :: rest => (escaped? e).map (·, rest)
        | '\\', [] => none
        | c, rest => some (c, rest)
      let (cs, rest) ← readChars steps rest
      some (c :: cs, rest)

def readText : Reader String := fun s =>
  (readChars s.length s).map fun (cs, rest) => (String.ofList cs, rest)

/-! ## Values -/

/-- Lists and records may be nested this deep. -/
def nestingLimit : Nat := 127

def readWord (word : String) (d : Document) : Reader Document := fun s =>
  (Text.dropLeading word.toList s).map (d, ·)

mutual

/-- Reads a value; `depth` more lists and records may be open, and no more than `steps` values,
items and fields are read in a row. -/
def readValue : (steps depth : Nat) → Reader Document
  | 0, _, _ => none
  | steps + 1, depth, s =>
    match skipBlanks s with
    | [] => none
    | 'n' :: rest => readWord "ull" .null rest
    | 't' :: rest => readWord "rue" (.boolean true) rest
    | 'f' :: rest => readWord "alse" (.boolean false) rest
    | '"' :: rest => (readText rest).map fun (t, rest) => (.text t, rest)
    | '[' :: rest =>
      match depth with
      | 0 => none
      | depth + 1 =>
        match skipBlanks rest with
        | ']' :: rest => some (.list [], rest)
        | rest => (readItems steps depth rest).map fun (items, rest) => (.list items, rest)
    | '\x7b' :: rest =>
      match depth with
      | 0 => none
      | depth + 1 =>
        match skipBlanks rest with
        | '\x7d' :: rest => some (.record [], rest)
        | rest => (readFields steps depth rest).map fun (fields, rest) => (.record fields, rest)
    | rest => readNumber rest

/-- Reads the items of a list up to its closing bracket. -/
def readItems : (steps depth : Nat) → Reader (List Document)
  | 0, _, _ => none
  | steps + 1, depth, s => do
    let (item, rest) ← readValue steps depth s
    match skipBlanks rest with
    | ']' :: rest => some ([item], rest)
    | ',' :: rest =>
      let (items, rest) ← readItems steps depth rest
      some (item :: items, rest)
    | _ => none

/-- Reads the fields of a record up to its closing brace. -/
def readFields : (steps depth : Nat) → Reader (List (String × Document))
  | 0, _, _ => none
  | steps + 1, depth, s => do
    match skipBlanks s with
    | '"' :: rest =>
      let (name, rest) ← readText rest
      match skipBlanks rest with
      | ':' :: rest =>
        let (value, rest) ← readValue steps depth rest
        match skipBlanks rest with
        | '\x7d' :: rest => some ([(name, value)], rest)
        | ',' :: rest =>
          let (fields, rest) ← readFields steps depth rest
          some ((name, value) :: fields, rest)
        | _ => none
      | _ => none
    | _ => none

end

/-- Reads a text that holds one value and nothing else. -/
def read? (s : String) : Option Document :=
  match readValue (2 * s.length + 2) nestingLimit s.toList with
  | some (d, rest) => if (skipBlanks rest).isEmpty then some d else none
  | none => none

end Json

/-- Structured data as a literal value: no records, and integers beyond 64 bits as floating point
numbers. -/
def Document.value? : Document → Option Value
  | .null => some .null
  | .boolean b => some (.boolean b)
  | .integer n =>
    if -(Nat.pow 2 63) ≤ n ∧ n < Nat.pow 2 63 then some (.integer (Int64.ofInt n))
    else some (.float (Binary64.ofNat n.toNat))
  | .float x => some (.float x)
  | .text s => some (.text s)
  | .list items => (items.mapM value?).map .list
  | .record _ => none

end PolyglotSql
