import AlertConsole.Proofs.Number.Binary64
import AlertConsole.Proofs.Number.Numeral

/-!
# Correct rounding of decimal text

A decimal number is rounded like the quotient that it is: the shortcuts for powers of ten far
outside the range of doubles change nothing (`ofDecimal?_eq`). So a text is read as a double exactly
if it denotes a number that does not round to infinity, and then as the double that this number
rounds to (`binary64?_eq_some_iff`, `binary64?_eq_none_iff`).
-/

namespace AlertConsole

open Number

variable {x : Binary64} {negative : Bool} {digits : Nat} {exponent : Int}

/-! ## The length of a number -/

namespace Number

theorem decimalLength_pos (n : Nat) : 0 < decimalLength n :=
  Nat.length_toDigits_pos

theorem lt_pow_decimalLength (n : Nat) : n < 10 ^ decimalLength n :=
  (Nat.length_toDigits_le_iff (by decide) (decimalLength_pos n)).1 le_rfl

theorem pow_le_of_decimalLength {n : Nat} (hn : 0 < n) : 10 ^ (decimalLength n - 1) ≤ n := by
  rcases Nat.eq_zero_or_pos (decimalLength n - 1) with h | h
  · rw [h]
    exact hn
  · rw [← not_lt, ← Nat.length_toDigits_le_iff (by decide) h]
    exact not_le.2 (Nat.sub_one_lt (decimalLength_pos n).ne')

end Number

namespace Binary64

/-! ## Powers of ten far outside the range -/

theorem ofRatio?_of_small {num den : Nat} (h : num * unitsPerOne * 2 < den) :
    ofRatio? negative num den = some (zero negative) := by
  have hquotient : num * unitsPerOne / den = 0 := Nat.div_eq_of_lt (by omega)
  have hexponent : roundingExponent (num * unitsPerOne) den = 0 := by
    rw [roundingExponent, hquotient]
    rfl
  have hbits : roundedBits (num * unitsPerOne) den = 0 := by
    rw [roundedBits, hexponent, Nat.zero_mul, Nat.zero_add, Nat.pow_zero, Nat.mul_one,
      roundHalfEven, hquotient, Nat.mod_eq_of_lt (by omega), if_pos (by omega)]
  rw [ofRatio?_eq, hbits, if_pos (by decide), zero]

theorem cast_ratio (digits : Nat) (exponent : Int) :
    ((digits * 10 ^ exponent.toNat : Nat) / (10 ^ (-exponent).toNat : Nat) : ℚ) =
      digits * 10 ^ exponent := by
  push_cast
  rcases Int.le_total 0 exponent with h | h
  · obtain ⟨n, rfl⟩ := Int.eq_ofNat_of_zero_le h
    rw [Int.toNat_natCast, Int.toNat_neg_natCast, pow_zero, div_one, zpow_natCast]
  · obtain ⟨n, hn⟩ := Int.eq_ofNat_of_zero_le (Int.neg_nonneg.2 h)
    obtain rfl : exponent = -n := by omega
    rw [neg_neg, Int.toNat_natCast, Int.toNat_neg_natCast, pow_zero, mul_one, zpow_neg,
      zpow_natCast, div_eq_mul_inv]

theorem two_units_lt : unitsPerOne * 2 < 10 ^ 331 := by decide +kernel

theorem ratio_small (h : exponent + decimalLength digits < -330) :
    digits * 10 ^ exponent.toNat * unitsPerOne * 2 < 10 ^ (-exponent).toNat := by
  have hexponent : exponent.toNat = 0 := by omega
  rw [hexponent, pow_zero, mul_one, mul_assoc]
  calc digits * (unitsPerOne * 2) < 10 ^ decimalLength digits * 10 ^ 331 :=
        Nat.mul_lt_mul_of_lt_of_lt (lt_pow_decimalLength digits) two_units_lt
    _ = 10 ^ (decimalLength digits + 331) := (pow_add ..).symm
    _ ≤ 10 ^ (-exponent).toNat := Nat.pow_le_pow_right (by decide) (by omega)

theorem overflow_le_of_large (hdigits : 0 < digits) (h : 310 < exponent + decimalLength digits) :
    overflow ≤ digits * 10 ^ exponent := by
  have hlength := decimalLength_pos digits
  have hfirst : (10 : ℚ) ^ ((decimalLength digits : Int) - 1) ≤ digits := by
    have hle : ((10 ^ (decimalLength digits - 1) : Nat) : ℚ) ≤ digits :=
      Nat.cast_le.2 (pow_le_of_decimalLength hdigits)
    rwa [Nat.cast_pow, ← zpow_natCast, Nat.cast_pred hlength] at hle
  calc overflow ≤ 2 ^ 1024 := sub_le_self _ (by positivity)
    _ ≤ 10 ^ 310 := by exact_mod_cast (by decide +kernel : 2 ^ 1024 ≤ 10 ^ 310)
    _ = (10 : ℚ) ^ (310 : Int) := (zpow_natCast 10 310).symm
    _ ≤ 10 ^ ((decimalLength digits : Int) - 1 + exponent) :=
      zpow_le_zpow_right₀ (by norm_num) (by omega)
    _ = 10 ^ ((decimalLength digits : Int) - 1) * 10 ^ exponent := zpow_add₀ (by norm_num) ..
    _ ≤ digits * 10 ^ exponent := mul_le_mul_of_nonneg_right hfirst (zpow_nonneg (by norm_num) _)

/-- The shortcuts for powers of ten far outside the range agree with the quotient. -/
theorem ofDecimal?_eq (negative : Bool) (digits : Nat) (exponent : Int) :
    ofDecimal? negative digits exponent =
      ofRatio? negative (digits * 10 ^ exponent.toNat) (10 ^ (-exponent).toNat) := by
  have hden : 0 < 10 ^ (-exponent).toNat := Nat.pow_pos (by decide)
  rw [ofDecimal?]
  split_ifs with hsmall hlarge
  · symm
    apply ofRatio?_of_small
    rcases hsmall with rfl | hsmall
    · rwa [Nat.zero_mul, Nat.zero_mul, Nat.zero_mul]
    · exact ratio_small hsmall
  · symm
    refine Option.eq_none_iff_forall_ne_some.2 fun x hx => ?_
    obtain ⟨hlt, -⟩ := (ofRatio?_eq_some_iff hden).1 hx
    rw [cast_ratio] at hlt
    have hdigits : 0 < digits := Nat.pos_of_ne_zero fun h => hsmall (.inl h)
    exact absurd hlt (not_lt.2 (overflow_le_of_large hdigits hlarge))
  · rfl

theorem ofDecimal?_eq_some_iff : ofDecimal? negative digits exponent = some x ↔
    (digits * 10 ^ exponent : ℚ) < overflow ∧ x.Rounds negative (digits * 10 ^ exponent) := by
  rw [ofDecimal?_eq, ofRatio?_eq_some_iff (Nat.pow_pos (by decide)), cast_ratio]

theorem ofDecimal?_eq_none_iff : ofDecimal? negative digits exponent = none ↔
    overflow ≤ (digits * 10 ^ exponent : ℚ) := by
  rw [ofDecimal?_eq, ofRatio?_eq_none_iff (Nat.pow_pos (by decide)), cast_ratio]

end Binary64

/-! ## Reading a double -/

namespace Number

/-- The meaning is a number, and it does not round to infinity. -/
def Denoted.RoundsFinitely : Denoted → Prop
  | finite _ magnitude => magnitude < Binary64.overflow
  | infinity _ => False
  | notANumber => False

/-- The meaning is a number, and `x` is the finite double that it rounds to. -/
def Denoted.RoundsTo : Denoted → Binary64 → Prop
  | finite negative magnitude, x => x.Rounds negative magnitude
  | infinity _, _ => False
  | notANumber, _ => False

theorem Denoted.RoundsTo.finite {d : Denoted} (h : d.RoundsTo x) : x.isFinite := by
  cases d with
  | finite => exact Binary64.Rounds.finite h
  | infinity => exact h.elim
  | notANumber => exact h.elim

variable {cs : List Char}

theorem binary64?_eq_some_iff : binary64? cs = some x ↔
    ∃ d, Denotes cs d ∧ d.RoundsFinitely ∧ d.RoundsTo x := by
  rw [binary64?, Option.bind_eq_some_iff]
  constructor
  · rintro ⟨n, hn, hx⟩
    exact ⟨_, .number (Numeral.ofChars?_eq_some_iff.1 hn), Binary64.ofDecimal?_eq_some_iff.1 hx⟩
  · rintro ⟨d, hd, hx⟩
    cases hd with
    | number hn =>
      exact ⟨_, Numeral.ofChars?_eq_some_iff.2 hn, Binary64.ofDecimal?_eq_some_iff.2 hx⟩
    | infinity => exact hx.1.elim
    | notANumber => exact hx.1.elim

theorem binary64?_eq_none_iff : binary64? cs = none ↔ ∀ d, Denotes cs d → ¬d.RoundsFinitely := by
  rw [binary64?, Option.bind_eq_none_iff]
  constructor
  · intro h d hd
    cases hd with
    | number hn =>
      exact not_lt.2 (Binary64.ofDecimal?_eq_none_iff.1 (h _ (Numeral.ofChars?_eq_some_iff.2 hn)))
    | infinity => exact id
    | notANumber => exact id
  · intro h n hn
    exact Binary64.ofDecimal?_eq_none_iff.2
      (not_lt.1 (h _ (.number (Numeral.ofChars?_eq_some_iff.1 hn))))

end Number

end AlertConsole
