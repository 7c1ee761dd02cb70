import PolyglotSql.Binary64.Basic

/-!
# PolyglotSql.Binary64.Shortest

The shortest decimal that reads back as a given floating point number.

A finite number `m · 2 ^ q` is the reading of every real nearer to it than to its neighbours (the
two end points included when `m` is even). Among the decimals with one digit, two digits, and so
on, the two nearest on the grid of that precision are tried; the first precision with a hit wins,
and of two hits the one nearer to the number, the upper one on an exact tie.
-/

namespace PolyglotSql

/-- A positive decimal `significand · 10 ^ exponent`. -/
structure Decimal where
  significand : Nat
  exponent : Int
deriving DecidableEq, Inhabited

namespace Decimal

def digits (d : Decimal) : List Char :=
  Nat.toDigits 10 d.significand

/-- The exponent of the leading digit. -/
def leadingExponent (d : Decimal) : Int :=
  d.exponent + d.digits.length - 1

/-- Moves trailing zeros of the significand into the exponent, at most `fuel` of them. -/
def strip : Nat → Decimal → Decimal
  | 0, d => d
  | fuel + 1, d =>
    if d.significand ≠ 0 ∧ d.significand % 10 = 0 then
      strip fuel ⟨d.significand / 10, d.exponent + 1⟩
    else d

end Decimal

namespace Binary64

/-- The reals that read as `x`, on a scale where they are `low / unit … high / unit` around
`value / unit`; `closed` says whether the end points belong to them. -/
structure Neighbourhood where
  low : Nat
  value : Nat
  high : Nat
  unit : Nat
  closed : Bool

/-- The neighbourhood of a finite number: half the gap to each neighbour, a quarter below a power
of two. -/
def neighbourhood (x : Binary64) : Neighbourhood :=
  let m := x.significand
  let below := if x.fraction = 0 ∧ 1 < x.exponentField then 1 else 2
  let q := x.scale - 2
  let up := Nat.pow 2 q.toNat
  { low := (4 * m - below) * up, value := 4 * m * up, high := (4 * m + 2) * up
    unit := Nat.pow 2 (-q).toNat, closed := m % 2 == 0 }

/-- The exponent of the leading decimal digit of the positive fraction `num / den`. -/
def leadingDigitExponent (num den : Nat) : Int :=
  let guess : Int := (Nat.toDigits 10 num).length - (Nat.toDigits 10 den).length
  let reached := den * Nat.pow 10 guess.toNat ≤ num * Nat.pow 10 (-guess).toNat
  if reached then guess else guess - 1

namespace Neighbourhood

/-- Whether the decimal `n · 10 ^ e` reads as the number. -/
def holds (b : Neighbourhood) (n : Nat) (e : Int) : Bool :=
  let point := n * Nat.pow 10 e.toNat * b.unit
  let stretch := Nat.pow 10 (-e).toNat
  if b.closed then b.low * stretch ≤ point && point ≤ b.high * stretch
  else b.low * stretch < point && point < b.high * stretch

/-- The best decimal whose last digit stands for `10 ^ e`, if one reads as the number. -/
def onGrid (b : Neighbourhood) (e : Int) : Option Nat :=
  let num := b.value * Nat.pow 10 (-e).toNat
  let den := b.unit * Nat.pow 10 e.toNat
  let lower := num / den
  match b.holds lower e && 0 < lower, b.holds (lower + 1) e with
  | true, true => if 2 * (num % den) < den then some lower else some (lower + 1)
  | true, false => some lower
  | false, true => some (lower + 1)
  | false, false => none

/-- Tries ever finer grids, the leading digit standing for `10 ^ lead`. -/
def search (b : Neighbourhood) (lead : Int) : (grids : Nat) → (digits : Nat) → Decimal
  | 0, digits => ⟨b.value / b.unit, lead - digits⟩
  | grids + 1, digits =>
    let e := lead - digits
    match b.onGrid e with
    | some n => ⟨n, e⟩
    | none => search b lead grids (digits + 1)

end Neighbourhood

/-- The shortest decimal that reads as a finite number other than zero (its sign left out). -/
def shortest (x : Binary64) : Decimal :=
  let b := x.neighbourhood
  ((b.search (leadingDigitExponent b.value b.unit) 17 0)).strip 20

end Binary64
end PolyglotSql
