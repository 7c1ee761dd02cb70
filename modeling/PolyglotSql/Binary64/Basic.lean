/-!
# PolyglotSql.Binary64.Basic

Floating point numbers as their 64-bit pattern: one sign bit, eleven exponent bits, fifty-two
fraction bits. A finite pattern denotes `± significand · 2 ^ scale`. Patterns are compared bit by
bit, so a not-a-number equals itself and the two zeros differ.
-/

namespace PolyglotSql

/-- A floating point number of 64 bits, told apart by its bit pattern. -/
structure Binary64 where
  bits : UInt64
deriving DecidableEq, Inhabited

namespace Binary64

def isNegative (x : Binary64) : Bool :=
  x.bits.toNat / Nat.pow 2 63 == 1

def exponentField (x : Binary64) : Nat :=
  x.bits.toNat / Nat.pow 2 52 % Nat.pow 2 11

/-- The fifty-two fraction bits. -/
def fraction (x : Binary64) : Nat :=
  x.bits.toNat % Nat.pow 2 52

/-- Not a number: all exponent bits set over a fraction that is not zero. -/
def isNaN (x : Binary64) : Bool :=
  x.exponentField == 2047 && x.fraction != 0

/-- An infinity: all exponent bits set over a zero fraction. -/
def isInfinite (x : Binary64) : Bool :=
  x.exponentField == 2047 && x.fraction == 0

/-- The integer that `2 ^ scale` multiplies; it has a hidden leading bit unless the exponent
field is zero. -/
def significand (x : Binary64) : Nat :=
  if x.exponentField = 0 then x.fraction else x.fraction + Nat.pow 2 52

/-- The power of two that multiplies the significand. -/
def scale (x : Binary64) : Int :=
  (max x.exponentField 1 : Nat) - 1075

/-- The same number with the other sign. -/
def negate (x : Binary64) : Binary64 :=
  ⟨x.bits ^^^ 0x8000000000000000⟩

/-- The largest pattern below the sign bit that is not a not-a-number. -/
def infinity : Binary64 := ⟨0x7FF0000000000000⟩

/-- The canonical not-a-number. -/
def nan : Binary64 := ⟨0x7FF8000000000000⟩

def zero : Binary64 := ⟨0⟩

end Binary64
end PolyglotSql
