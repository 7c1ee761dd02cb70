import PolyglotSql.Text.CharClass

/-!
# PolyglotSql.Text.Basic

Text operations shared by the whole library: letter case of ASCII, search and replacement,
trimming, and cutting a dotted name. They are functions on lists of characters, lifted to strings.
-/

namespace PolyglotSql
namespace Text

/-- The part of a text after a given beginning, if it begins so. -/
def dropLeading : List Char → List Char → Option (List Char)
  | [], text => some text
  | _ :: _, [] => none
  | p :: ps, c :: cs => if p = c then dropLeading ps cs else none

/-- Cuts a text at the first place where `pattern` begins: what stands before, what follows it. -/
def cutAt (pattern : List Char) : List Char → Option (List Char × List Char)
  | [] => if pattern.isEmpty then some ([], []) else none
  | c :: cs =>
    match dropLeading pattern (c :: cs) with
    | some rest => some ([], rest)
    | none =>
      match cutAt pattern cs with
      | some (before, rest) => some (c :: before, rest)
      | none => none

/-- Every occurrence of one character replaced by a text. -/
def replaceChar (c : Char) (by_ : String) (s : String) : String :=
  String.ofList (s.toList.flatMap fun d => if d = c then by_.toList else [d])

/-- A dotted name cut at its last dot; nothing when there is none. -/
def cutLastDot (s : String) : Option (String × String) :=
  match s.toList.reverse.span (· ≠ '.') with
  | (_, []) => none
  | (last, _ :: qualifier) => some (String.ofList qualifier.reverse, String.ofList last.reverse)

/-- Drops the characters of a class at both ends. -/
def trimBy (drop : Char → Bool) (s : String) : String :=
  String.ofList ((s.toList.dropWhile drop).reverse.dropWhile drop).reverse

/-- Drops white space at both ends. -/
def trim (s : String) : String :=
  trimBy CharClass.isSpace s

/-- ASCII letters in lower case, all else unchanged. -/
def lower (s : String) : String :=
  String.ofList (s.toList.map Char.toLower)

/-- ASCII letters in upper case, all else unchanged. -/
def upper (s : String) : String :=
  String.ofList (s.toList.map Char.toUpper)

/-- Equality up to the case of ASCII letters. -/
def sameIgnoringCase (a b : String) : Bool :=
  lower a == lower b

def join (separator : String) (parts : List String) : String :=
  separator.intercalate parts

/-- Reads a sequence of ASCII digits; nothing for an empty text or any other character. -/
def readDigits? (s : List Char) : Option Nat :=
  if s.isEmpty then none
  else s.foldl (fun acc c => acc.bind fun n =>
    if c.isDigit then some (10 * n + (c.toNat - 48)) else none) (some 0)

/-- The pieces of a text between the occurrences of a pattern that is not empty. -/
def splitAt (pattern s : String) : List String :=
  pieces (s.length + 1) s.toList
where
  pieces : (steps : Nat) → List Char → List String
    | 0, rest => [String.ofList rest]
    | steps + 1, rest =>
      match cutAt pattern.toList rest with
      | some (before, rest) => String.ofList before :: pieces steps rest
      | none => [String.ofList rest]

/-- Pads a text with blanks on the right up to a width. -/
def padRight (width : Nat) (s : String) : String :=
  s ++ String.ofList (List.replicate (width - s.length) ' ')

end Text
end PolyglotSql
