import Mathlib
import PolyglotSql.Canonical.Query
import PolyglotSql.Proofs.Rendering.Windows

/-!
# PolyglotSql.Proofs.Canonical.Integers

What becomes of integers that are written in SQL. Digits are read first and a sign is applied to
what they are read as, and digits are a 64-bit integer only if they are below `2 ^ 63`. So every
64-bit integer is carried as itself but the least one (`carried`): its digits are those of `2 ^ 63`,
which are read as a binary fraction before the sign is looked at.
-/

namespace PolyglotSql

/-- Decimal digits of a number; there may be zeros in front. -/
structure Sql.IsDecimal (digits : String) (n : Nat) : Prop where
  ne : digits ≠ ""
  digit : ∀ c ∈ digits.toList, c.isDigit = true
  value : Nat.ofDigitChars 10 digits.toList 0 = n

namespace Sql.IsDecimal

variable {digits : String} {n : Nat}

theorem toList_ne (h : IsDecimal digits n) : digits.toList ≠ [] := by
  simpa using h.ne

theorem readDigits (h : IsDecimal digits n) : Text.readDigits? digits.toList = some n := by
  rw [Page.readDigits_digits h.digit h.toList_ne, h.value]

end Sql.IsDecimal

/-- The digits of a number are those that it is printed with. -/
theorem Sql.isDecimal_toString (n : Nat) : IsDecimal (toString n) n where
  ne := by
    intro h
    have hdigits := congrArg String.toList h
    rw [Nat.toString_eq_ofList_toDigits, String.toList_ofList] at hdigits
    exact Nat.toDigits_ne_nil hdigits
  digit := by
    intro c hc
    rw [Nat.toString_eq_ofList_toDigits, String.toList_ofList] at hc
    exact Nat.isDigit_of_mem_toDigits (by decide) (by decide) hc
  value := by
    rw [Nat.toString_eq_ofList_toDigits, String.toList_ofList, Nat.ofDigitChars_ten_toDigits]

namespace Binary64

theorem digitsValue_eq (n : Nat) (ds : List Char) : digitsValue n ds = Nat.ofDigitChars 10 ds n :=
  Nat.ofDigitChars_eq_foldl.symm

theorem toLower_digit {c : Char} (h : c.isDigit = true) : c.toLower = c := by
  apply Char.toLower_eq_of_not_isUpper
  intro hupper
  simp only [Char.isDigit, Char.isUpper, Bool.and_eq_true, decide_eq_true_eq,
    UInt32.le_iff_toNat_le] at h hupper
  have hnine : '9'.val.toNat = 57 := rfl
  have ha : 'A'.val.toNat = 65 := rfl
  omega

/-- A text of digits is read as digits, and not as the name of a special number. -/
theorem readMagnitude_digits {ds : List Char} (h : ∀ c ∈ ds, c.isDigit = true) (hne : ds ≠ []) :
    readMagnitude ds = some (ofDecimal (Nat.ofDigitChars 10 ds 0) 0) := by
  have hlower : ds.map Char.toLower = ds :=
    (List.map_congr_left fun c hc => toLower_digit (h c hc)).trans (List.map_id ds)
  have hword {word : String} {c : Char} (hmem : c ∈ word.toList) (hc : c.isDigit = false) :
      String.ofList ds ≠ word := by
    rintro rfl
    rw [String.toList_ofList] at hmem
    rw [h c hmem] at hc
    cases hc
  have hinf : ¬ (String.ofList ds = "inf" ∨ String.ofList ds = "infinity") :=
    not_or.2 ⟨hword (List.mem_cons_self (a := 'i')) rfl, hword (List.mem_cons_self (a := 'i')) rfl⟩
  have hnan : String.ofList ds ≠ "nan" := hword (List.mem_cons_self (a := 'n')) rfl
  have hspan : ds.span Char.isDigit = (ds, []) := by
    rw [List.span_eq_takeWhile_dropWhile, List.takeWhile_eq_self_iff.2 h,
      List.dropWhile_eq_nil_iff.2 h]
  have hsome : ds.isEmpty = false := by simpa using hne
  rw [readMagnitude, hlower]
  simp only [if_neg hinf, if_neg hnan, hspan, hsome, Bool.false_and, readExponent, digitsValue_eq,
    Nat.ofDigitChars_nil]
  rfl

theorem read?_digits {digits : String} {n : Nat} (h : Sql.IsDecimal digits n) :
    read? digits = some (ofDecimal n 0) := by
  have hsign {c : Char} (hc : c.isDigit = false) (text : List Char) :
      digits.toList ≠ c :: text := by
    intro he
    have := h.digit c (by simp [he])
    rw [hc] at this
    cases this
  rw [← h.value, ← readMagnitude_digits h.digit h.toList_ne, read?]
  split
  · rename_i text he
    exact absurd he (hsign (by decide) text)
  · rename_i text he
    exact absurd he (hsign (by decide) text)
  · rfl

end Binary64

namespace Sql

/-- The value that is carried for a 64-bit integer: `-2 ^ 63` as a binary fraction, and any other
as it is. -/
def carried (k : Int64) : Value :=
  if k = Int64.minValue then .float ⟨0xC3E0000000000000⟩ else .integer k

/-- An expression that writes an integer: a literal of decimal digits, with a minus sign in front if
the integer is negative. -/
inductive Expr.Writes : Expr → Int → Prop
  | digits {digits : String} {n : Nat} (h : IsDecimal digits n) (long : Bool) (span : Span) :
    Writes (.literal (.number digits long) span) n
  | minus {digits : String} {n : Nat} (h : IsDecimal digits n) (long : Bool) (span : Span) :
    Writes (.unary .minus (.literal (.number digits long) span)) (-n)

variable {digits : String} {n : Nat} {e : Expr} {k : Int64}

theorem numberValue_small (h : IsDecimal digits n) (hn : n < 2 ^ 63) :
    numberValue? digits = some (.integer (.ofNat n)) := by
  rw [numberValue?, h.readDigits]
  exact if_pos hn

theorem numberValue_large (h : IsDecimal digits n) (hn : 2 ^ 63 ≤ n) :
    numberValue? digits = some (.float (Binary64.ofDecimal n 0)) := by
  rw [numberValue?, h.readDigits]
  have hlarge : ¬ n < Nat.pow 2 63 := Nat.not_lt.2 hn
  simp only [if_neg hlarge, Binary64.read?_digits h, Option.map_some]

theorem ofNat_eq (hk : (n : Int) = k.toInt) : Int64.ofNat n = k := by
  rw [← Int64.ofInt_eq_ofNat, hk, Int64.ofInt_toInt]

theorem neg_ofNat_eq (hk : -(n : Int) = k.toInt) : -Int64.ofNat n = k := by
  rw [← Int64.ofInt_eq_ofNat, ← Int64.ofInt_neg, hk, Int64.ofInt_toInt]

theorem carried_of_lt (h : -2 ^ 63 < k.toInt) : carried k = .integer k := by
  apply if_neg
  rintro rfl
  exact absurd h (by decide)

theorem carried_eq_integer_iff : carried k = .integer k ↔ k ≠ Int64.minValue := by
  unfold carried
  split <;> simp [*]

theorem literal_value (h : IsDecimal digits n) (hk : (n : Int) = k.toInt) (long : Bool) :
    (Literal.number digits long).value = .ok (carried k) := by
  have hlt := k.toInt_lt
  have hsmall : n < 2 ^ 63 := by omega
  have hcarried : carried k = .integer k := carried_of_lt (by omega)
  rw [Literal.value, numberValue_small h hsmall, ofNat_eq hk, hcarried]

/-- The sign is applied to what the digits are read as. -/
theorem negated_literal (h : IsDecimal digits n) (hk : -(n : Int) = k.toInt) (long : Bool) :
    ((Literal.number digits long).value >>= negated) = .ok (carried k) := by
  have hle := k.le_toInt
  by_cases hsmall : n < 2 ^ 63
  · have hcarried : carried k = .integer k := carried_of_lt (by omega)
    rw [Literal.value, numberValue_small h hsmall, hcarried, ← neg_ofNat_eq hk]
    rfl
  · -- Of what 64 bits hold, only the least integer is left, and it has the digits of `2 ^ 63`.
    obtain rfl : n = 2 ^ 63 := by omega
    have hleast : k = Int64.minValue := Int64.toInt_inj.1 (hk.symm.trans (by decide))
    have hfloat : (Binary64.ofDecimal (2 ^ 63) 0).negate = ⟨0xC3E0000000000000⟩ := by
      decide +kernel
    rw [Literal.value, numberValue_large h (Nat.le_refl _), carried, if_pos hleast, ← hfloat]
    rfl

theorem exprTerm_integer (scope : Scope) (h : e.Writes k.toInt) :
    Canonical.exprTerm scope e = .ok (.value (carried k)) := by
  generalize hi : k.toInt = i at h
  cases h with
  | digits h long span =>
    rw [Canonical.exprTerm, literal_value h hi.symm]
    rfl
  | minus h long span =>
    rw [Canonical.exprTerm, ← bind_assoc, negated_literal h hi.symm]
    rfl

theorem scalar_carried (k : Int64) : scalar (carried k) = .ok (carried k) := by
  unfold carried
  split <;> rfl

theorem listValue_integer (h : e.Writes k.toInt) : e.listValue = .ok (carried k) := by
  generalize hi : k.toInt = i at h
  cases h with
  | digits h long span =>
    rw [Expr.listValue, literal_value h hi.symm]
    exact scalar_carried k
  | minus h long span =>
    rw [Expr.listValue, ← bind_assoc, negated_literal h hi.symm]
    exact scalar_carried k

end Sql
end PolyglotSql
