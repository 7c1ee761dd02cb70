import PolyglotSql.Binary64.Shortest

/-!
# PolyglotSql.Binary64.Notation

Written forms of floating point numbers: the plain form of SQL literals, which never has an
exponent, and the forms of two data formats, which have one outside a range of magnitudes.
-/

namespace PolyglotSql
namespace Binary64

def zeros (n : Nat) : List Char :=
  List.replicate n '0'

/-- The digits of a decimal with its point in place: whole part and fractional part. -/
def positional (d : Decimal) : List Char × List Char :=
  let digits := d.digits
  let point := d.leadingExponent + 1
  if point ≤ 0 then (['0'], zeros (-point).toNat ++ digits)
  else
    let whole := point.toNat
    (digits.take whole ++ zeros (whole - digits.length), digits.drop whole)

/-- The sign of a number, as written in front of its magnitude. -/
def sign (x : Binary64) : String :=
  if x.isNegative then "-" else ""

/-- The plain form: no exponent, no point unless a fraction follows. -/
def plain (x : Binary64) : String :=
  if x.isNaN then "NaN"
  else if x.isInfinite then x.sign ++ "inf"
  else if x.significand = 0 then x.sign ++ "0"
  else
    match positional x.shortest with
    | (whole, []) => x.sign ++ String.ofList whole
    | (whole, fraction) => x.sign ++ String.ofList (whole ++ '.' :: fraction)

/-- How a data format spells numbers that have no positional form, and its other choices. -/
structure Style where
  nan : String
  infinity : String
  negativeInfinity : String
  /-- What stands before an exponent that is not negative. -/
  exponentSign : String

/-- JSON has no infinities and no not-a-number, and signs each exponent. -/
def jsonStyle : Style := ⟨"null", "null", "null", "+"⟩

/-- YAML spells the special numbers with a leading dot and signs negative exponents only. -/
def yamlStyle : Style := ⟨".nan", ".inf", "-.inf", ""⟩

/-- The form in a data format: positional with at least one fractional digit when the leading
digit stands for `10 ^ -5` to `10 ^ 15`, with an exponent otherwise. -/
def format (style : Style) (x : Binary64) : String :=
  if x.isNaN then style.nan
  else if x.isInfinite then (if x.isNegative then style.negativeInfinity else style.infinity)
  else if x.significand = 0 then x.sign ++ "0.0"
  else
    let d := x.shortest
    let lead := d.leadingExponent
    if -5 ≤ lead ∧ lead ≤ 15 then
      match positional d with
      | (whole, []) => x.sign ++ String.ofList whole ++ ".0"
      | (whole, fraction) => x.sign ++ String.ofList (whole ++ '.' :: fraction)
    else
      let mantissa := match d.digits with
        | [] => []
        | [c] => [c]
        | c :: more => c :: '.' :: more
      let exponent := if lead < 0 then toString lead else style.exponentSign ++ toString lead
      x.sign ++ String.ofList mantissa ++ "e" ++ exponent

end Binary64
end PolyglotSql
