import PolyglotSql.Text.Basic
import PolyglotSql.Binary64.Notation

/-!
# PolyglotSql.Value

Literal values of a query.

A scalar is bound to one placeholder of the rendered text, `null` is written as a keyword, and a
list stands for a parenthesised list of placeholders. Numbers are 64-bit integers and floating
point numbers; the latter are compared bit by bit, so equality is an equivalence.
-/

namespace PolyglotSql

/-- A literal value. -/
inductive Value where
  | null
  | boolean (b : Bool)
  | integer (n : Int64)
  | float (x : Binary64)
  | text (s : String)
  | list (items : List Value)
deriving Inhabited

namespace Value

mutual

def decEq : (a b : Value) → Decidable (a = b)
  | .null, .null => isTrue rfl
  | .boolean a, .boolean b => decidable_of_iff (a = b) (by simp)
  | .integer a, .integer b => decidable_of_iff (a = b) (by simp)
  | .float a, .float b => decidable_of_iff (a = b) (by simp)
  | .text a, .text b => decidable_of_iff (a = b) (by simp)
  | .list as, .list bs =>
    match decEqList as bs with
    | isTrue h => isTrue (by rw [h])
    | isFalse h => isFalse (by simpa using h)
  | .null, .boolean _ | .null, .integer _ | .null, .float _ | .null, .text _ | .null, .list _
  | .boolean _, .null | .boolean _, .integer _ | .boolean _, .float _ | .boolean _, .text _
  | .boolean _, .list _ | .integer _, .null | .integer _, .boolean _ | .integer _, .float _
  | .integer _, .text _ | .integer _, .list _ | .float _, .null | .float _, .boolean _
  | .float _, .integer _ | .float _, .text _ | .float _, .list _ | .text _, .null
  | .text _, .boolean _ | .text _, .integer _ | .text _, .float _ | .text _, .list _
  | .list _, .null | .list _, .boolean _ | .list _, .integer _ | .list _, .float _
  | .list _, .text _ => isFalse (by simp)

def decEqList : (as bs : List Value) → Decidable (as = bs)
  | [], [] => isTrue rfl
  | [], _ :: _ | _ :: _, [] => isFalse (by simp)
  | a :: as, b :: bs =>
    match decEq a b, decEqList as bs with
    | isTrue h, isTrue hs => isTrue (by rw [h, hs])
    | isFalse h, _ => isFalse (by simp [h])
    | _, isFalse hs => isFalse (by simp [hs])

end

instance : DecidableEq Value := decEq

/-- Whether this is SQL's `NULL`. -/
def isNull : Value → Bool
  | .null => true
  | _ => false

/-- Whether the value can be bound to a single placeholder. -/
def isScalar : Value → Bool
  | .null | .list _ => false
  | _ => true

def asText : Value → Option String
  | .text s => some s
  | _ => none

/-- The value as an SQL literal; a quote inside a text is written twice. -/
def literal : Value → String
  | .null => "NULL"
  | .boolean true => "TRUE"
  | .boolean false => "FALSE"
  | .integer n => toString n.toInt
  | .float x => x.plain
  | .text s => "'" ++ Text.replaceChar '\'' "''" s ++ "'"
  | .list items => "(" ++ Text.join ", " (items.map literal) ++ ")"

/-- A unit of what a hash is computed from. -/
inductive HashItem where
  | word (w : UInt64)
  | byte (b : UInt8)
  | text (s : String)
  /-- A length, as it is declared. -/
  | number (n : Nat)
deriving DecidableEq

/-- The items that a value feeds to a hash: a number for its kind, then its contents; a list is
preceded by its length. -/
def hashItems : Value → List HashItem
  | .null => [.word 0]
  | .boolean b => [.word 1, .byte (if b then 1 else 0)]
  | .integer n => [.word 2, .word n.toUInt64]
  | .float x => [.word 3, .word x.bits]
  | .text s => [.word 4, .text s]
  | .list items => .word 5 :: .word (UInt64.ofNat items.length) :: items.flatMap hashItems

end Value
end PolyglotSql
