import PolyglotSql.Schema.SqlType
import PolyglotSql.Value

/-!
# PolyglotSql.Schema.Attribute

Columns of a table: their name, their type with an optional length, and whether they belong to
the primary key or reject `NULL`. A declared type such as `DECIMAL(10, 2)` is a name of letters,
digits and blanks, optionally followed by a length and a second number in parentheses; any other
text declares the type `other`.
-/

namespace PolyglotSql

/-- What is known about a column. -/
structure Attribute where
  name : String
  sqlType : SqlType
  /-- Declared length of character and binary columns. -/
  maxLength : Option Nat
  primaryKey : Bool
  mandatory : Bool
deriving DecidableEq, Inhabited

namespace Attribute

/-- Largest length that a declaration can state. -/
def lengthLimit : Nat := Nat.pow 2 32 - 1

/-- A column with a type and nothing else stated. -/
def ofType (name : String) (sqlType : SqlType) : Attribute :=
  { name, sqlType, maxLength := none, primaryKey := false, mandatory := false }

/-- The items that a column feeds to a hash. -/
def hashItems (a : Attribute) : List Value.HashItem :=
  let length : List Value.HashItem := match a.maxLength with
    | none => [.word 0]
    | some n => [.word 1, .number n]
  .text a.name :: .word (UInt64.ofNat a.sqlType.position) :: (length
    ++ [.byte (if a.primaryKey then 1 else 0), .byte (if a.mandatory then 1 else 0)])

/-! ## Declared types -/

/-- Drops leading white space. -/
def skipSpaces (s : List Char) : List Char :=
  s.dropWhile CharClass.isSpace

/-- Reads digits of any script, one at least, and the white space after them. -/
def readNumber (s : List Char) : Option (List Char × List Char) :=
  match s.span CharClass.isDecimalDigit with
  | ([], _) => none
  | (digits, rest) => some (digits, skipSpaces rest)

/-- Reads `(length)` or `(length, scale)` up to the end of the text; gives the length's digits. -/
def readLength (s : List Char) : Option (List Char) :=
  match s with
  | '(' :: inner =>
    match readNumber (skipSpaces inner) with
    | some (digits, ')' :: rest) => if (skipSpaces rest).isEmpty then some digits else none
    | some (digits, ',' :: more) =>
      match readNumber (skipSpaces more) with
      | some (_, ')' :: rest) => if (skipSpaces rest).isEmpty then some digits else none
      | _ => none
    | _ => none
  | _ => none

/-- A declared type cut into its name and the digits of its length. -/
def splitDeclared (declared : String) : Option (String × Option (List Char)) :=
  match skipSpaces declared.toList with
  | [] => none
  | c :: cs =>
    if !c.isAlpha then none
    else
      let (more, rest) := cs.span fun d => d.isAlphanum || d == ' '
      let name := String.ofList (c :: more)
      let rest := skipSpaces rest
      if rest.isEmpty then some (name, none)
      else (readLength rest).map fun digits => (name, some digits)

/-- A length that the declaration states in ASCII digits, up to the limit. -/
def lengthOfDigits (digits : List Char) : Option Nat :=
  match Text.readDigits? digits with
  | some n => if n ≤ lengthLimit then some n else none
  | none => none

def ofDeclared (name declared : String) : Attribute :=
  match splitDeclared declared with
  | none => ofType name .other
  | some (typeName, length) =>
    { ofType name (SqlType.ofDeclaredName typeName) with maxLength := length.bind lengthOfDigits }

end Attribute
end PolyglotSql
