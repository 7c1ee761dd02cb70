import PolyglotSql.Binary64.Shortest

/-!
# PolyglotSql.Binary64.Reading

Reading a written number as the nearest floating point number, the even significand winning a tie.
The written form is an optional sign, then `inf`, `infinity` or `nan` in any case, or digits with
an optional point and an optional exponent; a point needs a digit on one side of it at least.
-/

namespace PolyglotSql
namespace Binary64

/-- The nearest integer to `num / den`, the even one on a tie. -/
def roundToEven (num den : Nat) : Nat :=
  let lower := num / den
  let rest := num % den
  if 2 * rest < den then lower
  else if den < 2 * rest then lower + 1
  else if lower % 2 = 0 then lower else lower + 1

/-- The nearest number to the positive fraction `num / den`. -/
def ofFraction (num den : Nat) : Binary64 :=
  let guess : Int := (num.log2 : Int) - den.log2
  let reached := den * Nat.pow 2 guess.toNat ≤ num * Nat.pow 2 (-guess).toNat
  let lead := if reached then guess else guess - 1
  let q := max (lead - 52) (-1074)
  let m := roundToEven (num * Nat.pow 2 (-q).toNat) (den * Nat.pow 2 q.toNat)
  let pattern := m + (q + 1074).toNat * Nat.pow 2 52
  if pattern < infinity.bits.toNat then ⟨UInt64.ofNat pattern⟩ else infinity

/-- The nearest number to `n · 10 ^ e`. Beyond the range of the format the answer is known from
the exponent of the leading digit alone. -/
def ofDecimal (n : Nat) (e : Int) : Binary64 :=
  if n = 0 then zero
  else
    let lead := e + (Nat.toDigits 10 n).length
    if 310 < lead then infinity
    else if lead < -330 then zero
    else ofFraction (n * Nat.pow 10 e.toNat) (Nat.pow 10 (-e).toNat)

/-- The value of a digit sequence, continuing from `acc`. -/
def digitsValue (acc : Nat) (digits : List Char) : Nat :=
  digits.foldl (fun n c => 10 * n + (c.toNat - 48)) acc

/-- Reads `e` and a signed exponent up to the end of the text; no exponent counts as zero. -/
def readExponent : List Char → Option Int
  | [] => some 0
  | c :: rest =>
    if c = 'e' ∨ c = 'E' then
      let (negative, digits) := match rest with
        | '-' :: ds => (true, ds)
        | '+' :: ds => (false, ds)
        | ds => (false, ds)
      if digits.isEmpty || !digits.all Char.isDigit then none
      else
        let n : Int := digitsValue 0 digits
        some (if negative then -n else n)
    else none

def readMagnitude (text : List Char) : Option Binary64 :=
  let word := String.ofList (text.map Char.toLower)
  if word = "inf" ∨ word = "infinity" then some infinity
  else if word = "nan" then some nan
  else
    let (whole, rest) := text.span Char.isDigit
    let (fraction, rest) := match rest with
      | '.' :: more => more.span Char.isDigit
      | more => ([], more)
    if whole.isEmpty && fraction.isEmpty then none
    else
      match readExponent rest with
      | some e => some (ofDecimal (digitsValue (digitsValue 0 whole) fraction) (e - fraction.length))
      | none => none

/-- Reads a number; nothing if the text is not one. -/
def read? (s : String) : Option Binary64 :=
  match s.toList with
  | '-' :: text => (readMagnitude text).map negate
  | '+' :: text => readMagnitude text
  | text => readMagnitude text

end Binary64
end PolyglotSql
