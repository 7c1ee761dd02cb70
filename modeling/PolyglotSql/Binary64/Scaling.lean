import PolyglotSql.Binary64.Reading

/-!
# PolyglotSql.Binary64.Scaling

A second way to read a decimal: the significand is rounded first, then multiplied or divided by a
rounded power of ten. Short decimals come out the same as by `ofDecimal`; long ones may end up on
the neighbouring number.
-/

namespace PolyglotSql
namespace Binary64

/-- The nearest number to a natural number. -/
def ofNat (n : Nat) : Binary64 :=
  if n = 0 then zero else ofFraction n 1

def toFraction (x : Binary64) : Nat × Nat :=
  (x.significand * Nat.pow 2 x.scale.toNat, Nat.pow 2 (-x.scale).toNat)

/-- The rounded product of two magnitudes. -/
def times (x y : Binary64) : Binary64 :=
  let (a, b) := x.toFraction
  let (c, d) := y.toFraction
  if a * c = 0 then zero else ofFraction (a * c) (b * d)

/-- The rounded quotient of two magnitudes, the second not zero. -/
def dividedBy (x y : Binary64) : Binary64 :=
  let (a, b) := x.toFraction
  let (c, d) := y.toFraction
  if a = 0 then zero else ofFraction (a * d) (b * c)

/-- Largest exponent of a finite power of ten. -/
def largestPower : Int := 308

/-- Scales a magnitude by a power of ten; nothing when it leaves the range. Powers too small for
the format are applied in steps, of which the third meets zero. -/
def scaleBy : (steps : Nat) → Binary64 → Int → Option Binary64
  | 0, _, _ => some zero
  | steps + 1, x, e =>
    if largestPower < e then if x.significand = 0 then some x else none
    else if 0 ≤ e then
      let y := x.times (ofDecimal 1 e)
      if y.isInfinite then none else some y
    else if -largestPower ≤ e then some (x.dividedBy (ofDecimal 1 (-e)))
    else if x.significand = 0 then some x
    else scaleBy steps (x.dividedBy (ofDecimal 1 largestPower)) (e + largestPower)

/-- `n · 10 ^ e` in two roundings; nothing when it leaves the range. -/
def scaled (n : Nat) (e : Int) : Option Binary64 :=
  scaleBy 4 (ofNat n) e

end Binary64
end PolyglotSql
