import AlertConsole.Number.Binary64
import AlertConsole.Proofs.Number.Nearest

/-!
# Correct rounding to a double

The magnitudes of the doubles are points of a grid that ascends with the lower 63 bits
(`gridValue_strictMono`) and goes on past the finite doubles as if exponents had no bound. Rounding
a quotient finds the nearest point of this grid (`nearestEven_gridValue`). So it gives a double
exactly if the quotient is below `overflow`, and then the one that the quotient rounds to
(`ofRatio?_eq_some_iff`, `ofRatio?_eq_none_iff`).
-/

namespace AlertConsole.Binary64

open Number

variable {x y : Binary64} {negative : Bool} {m e r : Nat} {q : ℚ}

/-! ## Sign and magnitude -/

/-- The lower 63 bits. -/
def magnitudeBits (x : Binary64) : Nat :=
  x.bits.toNat % signBit

theorem magnitudeBits_lt (x : Binary64) : x.magnitudeBits < 2048 * hiddenBit :=
  Nat.mod_lt _ (by decide)

theorem biasedExponent_eq (x : Binary64) : x.biasedExponent = x.magnitudeBits / hiddenBit := by
  simp only [biasedExponent, magnitudeBits, hiddenBit, signBit]
  omega

theorem fraction_eq (x : Binary64) : x.fraction = x.magnitudeBits % hiddenBit := by
  simp only [fraction, magnitudeBits, hiddenBit, signBit]
  omega

theorem isFinite_iff : x.isFinite ↔ x.magnitudeBits < 2047 * hiddenBit := by
  have hlt := x.magnitudeBits_lt
  rw [isFinite, bne_iff_ne, biasedExponent_eq]
  simp only [hiddenBit] at hlt ⊢
  omega

theorem bits_ofMagnitude (negative : Bool) (h : m < signBit) :
    (ofMagnitude negative m).bits.toNat = if negative then signBit + m else m := by
  rw [ofMagnitude, UInt64.toNat_ofNat']
  simp only [signBit] at h ⊢
  split <;> omega

theorem magnitudeBits_ofMagnitude (negative : Bool) (h : m < signBit) :
    (ofMagnitude negative m).magnitudeBits = m := by
  rw [magnitudeBits, bits_ofMagnitude negative h]
  split
  · rw [Nat.add_mod_left, Nat.mod_eq_of_lt h]
  · exact Nat.mod_eq_of_lt h

theorem isNegative_ofMagnitude (negative : Bool) (h : m < signBit) :
    (ofMagnitude negative m).isNegative = negative := by
  rw [isNegative, bits_ofMagnitude negative h]
  cases negative with
  | false => exact decide_eq_false (not_le.2 h)
  | true => exact decide_eq_true (Nat.le_add_right ..)

theorem eq_of_magnitudeBits (hsign : x.isNegative = y.isNegative)
    (hmagnitude : x.magnitudeBits = y.magnitudeBits) : x = y := by
  obtain ⟨a⟩ := x
  obtain ⟨b⟩ := y
  have ha := a.toNat_lt
  have hb := b.toNat_lt
  have hnegative : signBit ≤ a.toNat ↔ signBit ≤ b.toNat := decide_eq_decide.1 hsign
  have hbits : a.toNat = b.toNat := by
    simp only [magnitudeBits, signBit] at hnegative hmagnitude
    omega
  rw [UInt64.toNat_inj.1 hbits]

/-! ## The grid of magnitudes -/

/-- The units of a double with the lower 63 bits `m`. The grid goes on past the finite doubles, as
if exponents had no bound. -/
def gridUnits (m : Nat) : Nat :=
  (if m / hiddenBit = 0 then m % hiddenBit else hiddenBit + m % hiddenBit) *
    2 ^ (m / hiddenBit - 1)

theorem units_eq (x : Binary64) : x.units = gridUnits x.magnitudeBits := by
  rw [units, significand, exponent, biasedExponent_eq, fraction_eq]
  rfl

theorem gridUnits_add (hnormal : e = 0 ∨ hiddenBit ≤ r) (hr : r ≤ 2 * hiddenBit) :
    gridUnits (e * hiddenBit + r) = r * 2 ^ e := by
  have hpos : 0 < hiddenBit := by decide
  rcases hr.lt_or_eq with hlt | rfl
  · rcases Nat.lt_or_ge r hiddenBit with hsmall | hlarge
    · -- Below the hidden bit the exponent is least.
      obtain rfl : e = 0 := hnormal.resolve_right (not_le.2 hsmall)
      rw [Nat.zero_mul, Nat.zero_add, gridUnits, Nat.div_eq_of_lt hsmall, if_pos rfl,
        Nat.mod_eq_of_lt hsmall]
    · have hsplit : e * hiddenBit + r = (r - hiddenBit) + hiddenBit * (e + 1) := by
        rw [Nat.mul_succ, Nat.mul_comm]
        omega
      have hbelow : r - hiddenBit < hiddenBit := by omega
      rw [hsplit, gridUnits, Nat.add_mul_div_left _ _ hpos, Nat.div_eq_of_lt hbelow,
        Nat.zero_add, if_neg e.succ_ne_zero, Nat.add_mul_mod_self_left, Nat.mod_eq_of_lt hbelow,
        Nat.add_sub_cancel' hlarge, Nat.add_sub_cancel]
  · -- The carry into the next exponent.
    rw [← Nat.add_mul, gridUnits, Nat.mul_div_cancel _ hpos, if_neg (Nat.succ_ne_zero _),
      Nat.mul_mod_left, Nat.add_zero, show e + 2 - 1 = e + 1 from rfl, Nat.pow_succ]
    ring

/-- Every point of the grid has a significand below twice the hidden bit, with the hidden bit set
unless the exponent is least. -/
theorem exists_significand (m : Nat) : ∃ e r, (e = 0 ∨ hiddenBit ≤ r) ∧ r < 2 * hiddenBit ∧
    m = e * hiddenBit + r := by
  refine ⟨m / hiddenBit - 1, m - (m / hiddenBit - 1) * hiddenBit, ?_⟩
  simp only [hiddenBit]
  omega

theorem gridUnits_strictMono : StrictMono gridUnits := by
  refine strictMono_nat_of_lt_succ fun m => ?_
  obtain ⟨e, r, hnormal, hr, rfl⟩ := exists_significand m
  rw [add_assoc, gridUnits_add hnormal hr.le,
    gridUnits_add (hnormal.imp_right Nat.le_succ_of_le) (Nat.succ_le_of_lt hr)]
  exact Nat.mul_lt_mul_of_pos_right r.lt_succ_self (Nat.two_pow_pos e)

/-- Counted in `2 ^ e`, a point of the grid is a whole number or has less than the hidden bit. -/
theorem gridUnits_cases (m e : Nat) : (∃ j, gridUnits m = j * 2 ^ e) ∨
    e ≠ 0 ∧ gridUnits m < hiddenBit * 2 ^ e := by
  obtain ⟨f, r, hnormal, hr, rfl⟩ := exists_significand m
  rw [gridUnits_add hnormal hr.le]
  rcases Nat.lt_or_ge f e with hlt | hge
  · refine .inr ⟨Nat.ne_zero_of_lt hlt, ?_⟩
    calc r * 2 ^ f < 2 * hiddenBit * 2 ^ f := Nat.mul_lt_mul_of_pos_right hr (Nat.two_pow_pos f)
      _ = hiddenBit * 2 ^ (f + 1) := by ring
      _ ≤ hiddenBit * 2 ^ e := Nat.mul_le_mul_left _ (Nat.pow_le_pow_right two_pos hlt)
  · refine .inl ⟨r * 2 ^ (f - e), ?_⟩
    rw [mul_assoc, ← pow_add, Nat.sub_add_cancel hge]

theorem even_mul_hiddenBit_add (e r : Nat) (hr : Even r) : Even (e * hiddenBit + r) :=
  ((by decide : Even hiddenBit).mul_left e).add hr

/-! ## Rounding a quotient -/

/-- The exponent that `ofRatio?` gives a number of units. -/
def roundingExponent (units den : Nat) : Nat :=
  Nat.log2 (units / den) - 52

theorem quotient_lt (s d : Nat) : s / (d * 2 ^ roundingExponent s d) < 2 * hiddenBit := by
  rw [← Nat.div_div_eq_div_mul, Nat.div_lt_iff_lt_mul (Nat.two_pow_pos _)]
  calc s / d < 2 ^ (Nat.log2 (s / d) + 1) := Nat.lt_log2_self
    _ ≤ 2 ^ (53 + roundingExponent s d) :=
      Nat.pow_le_pow_right two_pos (by unfold roundingExponent; omega)
    _ = 2 * hiddenBit * 2 ^ roundingExponent s d := pow_add ..

theorem hiddenBit_le_quotient {s d : Nat} (he : roundingExponent s d ≠ 0) :
    hiddenBit ≤ s / (d * 2 ^ roundingExponent s d) := by
  rw [← Nat.div_div_eq_div_mul, Nat.le_div_iff_mul_le (Nat.two_pow_pos _)]
  have hne : s / d ≠ 0 := by
    intro h
    rw [roundingExponent, h] at he
    exact he rfl
  calc hiddenBit * 2 ^ roundingExponent s d = 2 ^ (52 + roundingExponent s d) :=
      (pow_add 2 52 _).symm
    _ = 2 ^ Nat.log2 (s / d) := by
      congr 1
      unfold roundingExponent at he ⊢
      omega
    _ ≤ s / d := Nat.log2_self_le hne

/-- The lower 63 bits of the double nearest to `s / d` units. -/
def roundedBits (s d : Nat) : Nat :=
  roundingExponent s d * hiddenBit + roundHalfEven s (d * 2 ^ roundingExponent s d)

theorem gridUnits_roundedBits (s d : Nat) : gridUnits (roundedBits s d) =
    roundHalfEven s (d * 2 ^ roundingExponent s d) * 2 ^ roundingExponent s d := by
  refine gridUnits_add ?_ ?_
  · rcases Nat.eq_zero_or_pos (roundingExponent s d) with h | h
    · exact .inl h
    · exact .inr ((hiddenBit_le_quotient h.ne').trans (le_roundHalfEven ..))
  · exact (roundHalfEven_le ..).trans (quotient_lt s d)

theorem gridUnits_cast_strictMono : StrictMono fun k => (gridUnits k : ℚ) :=
  fun _ _ h => Nat.cast_lt.2 (gridUnits_strictMono h)

theorem nearestEven_roundedBits (s : Nat) {d : Nat} (hd : 0 < d) :
    NearestEven (fun k => (gridUnits k : ℚ)) (s / d) (roundedBits s d) := by
  have hgrid := gridUnits_roundedBits s d
  have heven := even_mul_hiddenBit_add (roundingExponent s d)
    (roundHalfEven s (d * 2 ^ roundingExponent s d))
  have hlarge := hiddenBit_le_quotient (s := s) (d := d)
  have hnearest := nearestEven_roundHalfEven s
    (Nat.mul_pos hd (Nat.two_pow_pos (roundingExponent s d)))
  unfold roundedBits at hgrid ⊢
  generalize roundingExponent s d = e at *
  generalize roundHalfEven s (d * 2 ^ e) = r at *
  have hd' : (0 : ℚ) < d := by exact_mod_cast hd
  have hpow : (0 : ℚ) < 2 ^ e := by positivity
  -- In multiples of `2 ^ e` the number is rounded to the nearest integer.
  have hcoarse : NearestEven (fun k => 2 ^ e * (k : ℚ)) (s / d) r := by
    have h := hnearest.scale hpow
    rwa [Nat.cast_mul, Nat.cast_pow, Nat.cast_two, mul_comm (d : ℚ), ← mul_div_assoc,
      mul_div_mul_left _ _ hpow.ne'] at h
  have hcast : ∀ {k j : Nat}, gridUnits k = j * 2 ^ e → (gridUnits k : ℚ) = 2 ^ e * (j : ℚ) := by
    intro k j h
    rw [h, Nat.cast_mul, Nat.cast_pow, Nat.cast_two, mul_comm]
  refine hcoarse.of_coarse gridUnits_cast_strictMono (hcast hgrid) heven fun k => ?_
  rcases gridUnits_cases k e with ⟨j, hj⟩ | ⟨he, hk⟩
  · exact .inl ⟨j, hcast hj⟩
  · refine .inr ⟨hiddenBit, ?_, ?_⟩
    · rw [mul_comm]
      exact_mod_cast hk
    · have hle := (Nat.le_div_iff_mul_le (Nat.mul_pos hd (Nat.two_pow_pos e))).1 (hlarge he)
      have hle' : (hiddenBit : ℚ) * (d * 2 ^ e) ≤ s := by exact_mod_cast hle
      rw [le_div_iff₀ hd']
      linarith

/-! ## Overflow -/

/-- The value of the double with the lower 63 bits `m`. -/
def gridValue (m : Nat) : ℚ :=
  (unitsPerOne : ℚ)⁻¹ * gridUnits m

/-- The absolute value of a double. -/
def magnitude (x : Binary64) : ℚ :=
  x.units / unitsPerOne

/-- The least magnitude that rounds to infinity: half-way between the greatest double and the power
of two above it. -/
def overflow : ℚ :=
  2 ^ 1024 - 2 ^ 970

theorem unitsPerOne_eq : unitsPerOne = 2 ^ 1074 := by
  -- The power is not to be computed.
  delta unitsPerOne
  generalize 1074 = n
  rfl

theorem unitsPerOne_pos : 0 < unitsPerOne := by
  rw [unitsPerOne_eq]
  positivity

theorem inv_unitsPerOne_pos : (0 : ℚ) < (unitsPerOne : ℚ)⁻¹ :=
  inv_pos.2 (Nat.cast_pos.2 unitsPerOne_pos)

theorem magnitude_eq (x : Binary64) : x.magnitude = gridValue x.magnitudeBits := by
  rw [magnitude, gridValue, units_eq, div_eq_inv_mul]

theorem gridValue_strictMono : StrictMono gridValue :=
  fun _ _ h => mul_lt_mul_of_pos_left (gridUnits_cast_strictMono h) inv_unitsPerOne_pos

/-- The lower 63 bits of the greatest double. -/
def greatestBits : Nat :=
  2047 * hiddenBit - 1

theorem not_even_greatestBits : ¬Even greatestBits := by decide

theorem gridUnits_greatestBits : gridUnits greatestBits = (2 * hiddenBit - 1) * 2 ^ 2045 := by
  have hsplit : greatestBits = 2045 * hiddenBit + (2 * hiddenBit - 1) := by decide
  rw [hsplit, gridUnits_add (.inr (by decide)) (by decide)]

theorem gridUnits_greatestBits_succ : gridUnits (greatestBits + 1) = 2 * hiddenBit * 2 ^ 2045 := by
  have hsplit : greatestBits + 1 = 2045 * hiddenBit + 2 * hiddenBit := by decide
  rw [hsplit, gridUnits_add (.inr (by decide)) le_rfl]

theorem overflow_eq : (gridValue greatestBits + gridValue (greatestBits + 1)) / 2 = overflow := by
  have hunits : (unitsPerOne : ℚ) = 2 ^ 1074 := by
    rw [unitsPerOne_eq, Nat.cast_pow, Nat.cast_two]
  have hpow : (2 : ℚ) ^ 2045 = 2 ^ 1074 * (2 * 2 ^ 970) := by rw [← pow_succ', ← pow_add]
  have htop : (2 : ℚ) ^ 1024 = 2 ^ 54 * 2 ^ 970 := (pow_add 2 54 970)
  have hbits : ((2 * hiddenBit - 1 : Nat) : ℚ) + (2 * hiddenBit : Nat) = 2 ^ 54 - 1 := by
    norm_num [hiddenBit]
  rw [gridValue, gridValue, gridUnits_greatestBits, gridUnits_greatestBits_succ, overflow, hunits,
    htop, ← mul_add, ← Nat.cast_add, ← Nat.add_mul, Nat.cast_mul, Nat.cast_add, hbits, Nat.cast_pow,
    Nat.cast_two, hpow]
  have hne : (2 : ℚ) ^ 1074 ≠ 0 := by positivity
  generalize (2 : ℚ) ^ 1074 = u at *
  generalize (2 : ℚ) ^ 970 = v at *
  field_simp

/-! ## Correct rounding -/

/-- `x` has this sign and is the finite double whose magnitude is nearest to `q`; if two are, it is
the one with an even significand. -/
structure Rounds (negative : Bool) (q : ℚ) (x : Binary64) : Prop where
  finite : x.isFinite
  sign : x.isNegative = negative
  nearest : ∀ y : Binary64, y.isFinite → |q - x.magnitude| ≤ |q - y.magnitude|
  even : ∀ y : Binary64, y.isFinite → y.magnitude ≠ x.magnitude →
    |q - y.magnitude| = |q - x.magnitude| → Even x.significand

theorem even_significand_iff (x : Binary64) : Even x.significand ↔ Even x.magnitudeBits := by
  have hfraction : Even x.fraction ↔ Even x.magnitudeBits := by
    rw [fraction_eq, Nat.even_iff, Nat.even_iff, Nat.mod_mod_of_dvd _ (by decide)]
  unfold significand
  split_ifs
  · exact hfraction
  · have heven : Even hiddenBit := by decide
    rw [Nat.even_add, iff_true_left heven, hfraction]

theorem le_greatestBits_iff : m ≤ greatestBits ↔ m < 2047 * hiddenBit :=
  Nat.le_sub_one_iff_lt (by decide)

theorem isFinite_ofMagnitude (negative : Bool) (hm : m ≤ greatestBits) :
    (ofMagnitude negative m).isFinite ∧ (ofMagnitude negative m).isNegative = negative ∧
      (ofMagnitude negative m).magnitudeBits = m := by
  have hlt : m < 2047 * hiddenBit := le_greatestBits_iff.1 hm
  have hbits : m < signBit := hlt.trans (by decide)
  rw [isFinite_iff, magnitudeBits_ofMagnitude negative hbits]
  exact ⟨hlt, isNegative_ofMagnitude negative hbits, rfl⟩

/-- Below the overflow bound the finite doubles are nearer than what the grid has beyond them. -/
theorem abs_sub_lt_of_lt_overflow (hq : q < overflow) (hm : greatestBits < m) :
    |q - gridValue greatestBits| < |q - gridValue m| := by
  rw [← overflow_eq] at hq
  have hstep := gridValue_strictMono greatestBits.lt_succ_self
  have hle : gridValue (greatestBits + 1) ≤ gridValue m := gridValue_strictMono.monotone hm
  refine (NearestEven.abs_sub_lt_of_middle hstep hq).trans_le ?_
  rw [abs_of_neg (by linarith), abs_of_neg (by linarith)]
  linarith

theorem rounds_iff (hq : q < overflow) : x.Rounds negative q ↔
    x.isFinite ∧ x.isNegative = negative ∧ NearestEven gridValue q x.magnitudeBits := by
  constructor
  · rintro ⟨hfinite, hsign, hnearest, heven⟩
    simp only [magnitude_eq] at hnearest heven
    have hinside : ∀ k ≤ greatestBits, |q - gridValue x.magnitudeBits| ≤ |q - gridValue k| := by
      intro k hk
      obtain ⟨hy, -, hbits⟩ := isFinite_ofMagnitude false hk
      exact hbits ▸ hnearest _ hy
    have houtside : ∀ k, greatestBits < k →
        |q - gridValue x.magnitudeBits| < |q - gridValue k| :=
      fun k hk => (hinside _ le_rfl).trans_lt (abs_sub_lt_of_lt_overflow hq hk)
    refine ⟨hfinite, hsign, fun k => ?_, fun k hne htie => ?_⟩
    · exact (le_or_gt k greatestBits).elim (hinside k) fun hk => (houtside k hk).le
    · rcases le_or_gt k greatestBits with hk | hk
      · obtain ⟨hy, -, hbits⟩ := isFinite_ofMagnitude false hk
        rw [← even_significand_iff]
        refine heven _ hy ?_ ?_ <;> rw [hbits]
        · exact fun heq => hne (gridValue_strictMono.injective heq)
        · exact htie
      · exact absurd htie (houtside k hk).ne'
  · rintro ⟨hfinite, hsign, hnearest⟩
    refine ⟨hfinite, hsign, fun y _ => ?_, fun y _ hne htie => ?_⟩ <;>
      simp only [magnitude_eq] at *
    · exact hnearest.le y.magnitudeBits
    · exact (even_significand_iff x).2
        (hnearest.even y.magnitudeBits (fun heq => hne (congrArg gridValue heq)) htie)

theorem Rounds.unique (hq : q < overflow) (hx : x.Rounds negative q) (hy : y.Rounds negative q) :
    x = y := by
  obtain ⟨-, hxsign, hxnearest⟩ := (rounds_iff hq).1 hx
  obtain ⟨-, hysign, hynearest⟩ := (rounds_iff hq).1 hy
  exact eq_of_magnitudeBits (hxsign.trans hysign.symm)
    (hxnearest.unique hynearest gridValue_strictMono)

theorem ofRatio?_eq (negative : Bool) (num den : Nat) : ofRatio? negative num den =
    if roundedBits (num * unitsPerOne) den < 2047 * hiddenBit then
      some (ofMagnitude negative (roundedBits (num * unitsPerOne) den)) else none :=
  rfl

theorem nearestEven_gridValue (num : Nat) {den : Nat} (hden : 0 < den) :
    NearestEven gridValue (num / den) (roundedBits (num * unitsPerOne) den) := by
  have h := (nearestEven_roundedBits (num * unitsPerOne) hden).scale inv_unitsPerOne_pos
  have hunits : (unitsPerOne : ℚ) ≠ 0 := Nat.cast_ne_zero.2 unitsPerOne_pos.ne'
  have hvalue : (unitsPerOne : ℚ)⁻¹ * ((num * unitsPerOne : Nat) / den) = num / den := by
    rw [Nat.cast_mul]
    field_simp
  rwa [hvalue] at h

theorem ofRatio?_eq_some_iff {num den : Nat} (hden : 0 < den) :
    ofRatio? negative num den = some x ↔
      (num / den : ℚ) < overflow ∧ x.Rounds negative (num / den) := by
  have hnearest := nearestEven_gridValue num hden
  have hbound := hnearest.le_iff gridValue_strictMono not_even_greatestBits
  rw [overflow_eq] at hbound
  rw [ofRatio?_eq]
  generalize roundedBits (num * unitsPerOne) den = m at *
  have hrounds : ∀ hm : m ≤ greatestBits, (ofMagnitude negative m).Rounds negative (num / den) := by
    intro hm
    obtain ⟨hfinite, hsign, hbits⟩ := isFinite_ofMagnitude negative hm
    exact (rounds_iff (hbound.1 hm)).2 ⟨hfinite, hsign, hbits.symm ▸ hnearest⟩
  constructor
  · intro h
    split_ifs at h with hm
    cases h
    rw [← le_greatestBits_iff] at hm
    exact ⟨hbound.1 hm, hrounds hm⟩
  · rintro ⟨hlt, hx⟩
    have hm := hbound.2 hlt
    rw [if_pos (le_greatestBits_iff.1 hm), (hrounds hm).unique hlt hx]

theorem ofRatio?_eq_none_iff {num den : Nat} (hden : 0 < den) :
    ofRatio? negative num den = none ↔ overflow ≤ (num / den : ℚ) := by
  have hbound := (nearestEven_gridValue num hden).le_iff gridValue_strictMono not_even_greatestBits
  rw [overflow_eq] at hbound
  rw [ofRatio?_eq, ← not_lt, ← hbound, le_greatestBits_iff]
  split_ifs with h <;> simp [h]

end AlertConsole.Binary64
