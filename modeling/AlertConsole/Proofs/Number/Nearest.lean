import AlertConsole.Number.Rounding
import Mathlib.Algebra.Order.Field.Rat
import Mathlib.Algebra.Order.Ring.Abs
import Mathlib.Data.Rat.Floor
import Mathlib.Tactic.Linarith

/-!
# Rounding to the nearest point of a grid

A grid is an ascending sequence of rational numbers. `NearestEven grid q m` says that the point
number `m` is nearest to `q`, and that `m` is even if another point is as near. There is one such
point at most (`NearestEven.unique`), half-way points decide on which side of an odd one it is
(`NearestEven.le_iff`), and on the integers the rounded quotient is this point
(`nearestEven_roundHalfEven`).
-/

namespace AlertConsole.Number

variable {grid : Nat → ℚ} {q : ℚ} {m n : Nat}

/-- The point `m` of the grid is nearest to `q`; ties go to the even one. -/
structure NearestEven (grid : Nat → ℚ) (q : ℚ) (m : Nat) : Prop where
  le : ∀ k, |q - grid m| ≤ |q - grid k|
  even : ∀ k ≠ m, |q - grid k| = |q - grid m| → Even m

namespace NearestEven

theorem scale (h : NearestEven grid q m) {c : ℚ} (hc : 0 < c) :
    NearestEven (fun k => c * grid k) (c * q) m := by
  have hdist : ∀ k, |c * q - c * grid k| = c * |q - grid k| := fun k => by
    rw [← mul_sub, abs_mul, abs_of_pos hc]
  constructor
  · intro k
    rw [hdist, hdist]
    exact mul_le_mul_of_nonneg_left (h.le k) hc.le
  · intro k hk htie
    rw [hdist, hdist] at htie
    exact h.even k hk (mul_left_cancel₀ hc.ne' htie)

/-- A grid may have finer points than another one as long as a point of the coarse grid stands
between them and the number. -/
theorem of_coarse {coarse : Nat → ℚ} {r : Nat} (h : NearestEven coarse q r)
    (hgrid : StrictMono grid) (hself : grid m = coarse r) (heven : Even r → Even m)
    (hfine : ∀ k, (∃ j, grid k = coarse j) ∨ ∃ j, grid k < coarse j ∧ coarse j ≤ q) :
    NearestEven grid q m := by
  have hfarther : ∀ {k j : Nat}, grid k < coarse j → coarse j ≤ q →
      |q - grid m| < |q - grid k| := by
    intro k j hkj hjq
    rw [hself]
    refine (h.le j).trans_lt ?_
    rw [abs_of_nonneg (by linarith), abs_of_nonneg (by linarith)]
    linarith
  constructor
  · intro k
    rcases hfine k with ⟨j, hj⟩ | ⟨j, hkj, hjq⟩
    · rw [hself, hj]
      exact h.le j
    · exact (hfarther hkj hjq).le
  · intro k hne htie
    rcases hfine k with ⟨j, hj⟩ | ⟨j, hkj, hjq⟩
    · have hjr : j ≠ r := by
        rintro rfl
        exact hne (hgrid.injective (hj.trans hself.symm))
      rw [hself, hj] at htie
      exact heven (h.even j hjr htie)
    · exact absurd htie (hfarther hkj hjq).ne'

/-- From a number past the middle, the upper of two points is not farther. -/
theorem abs_sub_le_of_middle {a b : ℚ} (hab : a < b) (hq : (a + b) / 2 ≤ q) :
    |q - b| ≤ |q - a| := by
  rw [abs_of_nonneg (by linarith : 0 ≤ q - a), abs_le]
  constructor <;> linarith

theorem abs_sub_lt_of_middle {a b : ℚ} (hab : a < b) (hq : q < (a + b) / 2) :
    |q - a| < |q - b| := by
  rw [abs_of_neg (by linarith : q - b < 0), abs_lt]
  constructor <;> linarith

theorem le_iff (h : NearestEven grid q m) (hgrid : StrictMono grid) (hn : ¬Even n) :
    m ≤ n ↔ q < (grid n + grid (n + 1)) / 2 := by
  have hstep : grid n < grid (n + 1) := hgrid n.lt_succ_self
  constructor
  · intro hm
    by_contra hq
    rw [not_lt] at hq
    have hmn : grid m ≤ grid n := hgrid.monotone hm
    have hupper : |q - grid (n + 1)| ≤ |q - grid n| := abs_sub_le_of_middle hstep hq
    have hlower : |q - grid n| ≤ |q - grid m| := by
      rw [abs_of_nonneg (by linarith : 0 ≤ q - grid n),
        abs_of_nonneg (by linarith : 0 ≤ q - grid m)]
      linarith
    -- All three are equally far, so `m` is `n`, and a tie would need it to be even.
    have htie : |q - grid m| = |q - grid n| :=
      le_antisymm ((h.le (n + 1)).trans hupper) hlower
    have heq : m = n := by
      rw [abs_of_nonneg (by linarith : 0 ≤ q - grid n),
        abs_of_nonneg (by linarith : 0 ≤ q - grid m)] at htie
      exact hgrid.injective (by linarith)
    subst heq
    exact hn (h.even (m + 1) (Nat.succ_ne_self m) (le_antisymm hupper (h.le (m + 1))))
  · intro hq
    by_contra hm
    have hmn : grid (n + 1) ≤ grid m := hgrid.monotone (Nat.succ_le_of_lt (not_le.1 hm))
    have hfarther : |q - grid (n + 1)| ≤ |q - grid m| := by
      rw [abs_of_neg (by linarith : q - grid (n + 1) < 0),
        abs_of_neg (by linarith : q - grid m < 0)]
      linarith
    exact absurd (h.le n) (not_le.2 ((abs_sub_lt_of_middle hstep hq).trans_le hfarther))

theorem not_below (hm : NearestEven grid q m) (hn : NearestEven grid q n)
    (hgrid : StrictMono grid) : ¬m < n := by
  intro hlt
  have htie : |q - grid m| = |q - grid n| := le_antisymm (hm.le n) (hn.le m)
  have hmn : grid m < grid n := hgrid hlt
  -- The middle of two points of even number has the one between them nearer.
  have hmiddle : q - grid m = grid n - q := by
    rcases abs_eq_abs.1 htie with h | h <;> linarith
  have heven_m : Even m := hm.even n hlt.ne' htie.symm
  have heven_n : Even n := hn.even m hlt.ne htie
  have hbetween : m + 1 < n :=
    lt_of_le_of_ne hlt fun heq => (Nat.even_add_one.1 (heq ▸ heven_n)) heven_m
  have hlower : grid m < grid (m + 1) := hgrid m.lt_succ_self
  have hupper : grid (m + 1) < grid n := hgrid hbetween
  refine absurd (hm.le (m + 1)) (not_le.2 ?_)
  rw [abs_of_nonneg (by linarith : 0 ≤ q - grid m), abs_lt]
  constructor <;> linarith

theorem unique (hm : NearestEven grid q m) (hn : NearestEven grid q n) (hgrid : StrictMono grid) :
    m = n :=
  le_antisymm (not_lt.1 (hn.not_below hm hgrid)) (not_lt.1 (hm.not_below hn hgrid))

end NearestEven

/-! ## Quotients -/

section Floor

variable {t : ℚ} {f : Nat}

/-- The integers on both sides of a number between `f` and `f + 1`. -/
theorem abs_sub_natCast (hf : (f : ℚ) ≤ t) (ht : t < f + 1) (k : Nat) :
    (k : ℚ) ≤ f ∧ |t - k| = t - k ∨ (f : ℚ) + 1 ≤ k ∧ |t - k| = k - t := by
  rcases Nat.lt_or_ge f k with hk | hk
  · have hcast : (f : ℚ) + 1 ≤ k := by exact_mod_cast hk
    exact .inr ⟨hcast, by rw [abs_sub_comm, abs_of_nonneg (by linarith)]⟩
  · have hcast : (k : ℚ) ≤ f := by exact_mod_cast hk
    exact .inl ⟨hcast, abs_of_nonneg (by linarith)⟩

theorem nearestEven_floor (hf : (f : ℚ) ≤ t) (ht : t < f + 1 / 2) :
    NearestEven (fun k => (k : ℚ)) t f := by
  have hself : |t - f| = t - f := abs_of_nonneg (by linarith)
  constructor
  · intro k
    rcases abs_sub_natCast hf (by linarith) k with ⟨hk, hdist⟩ | ⟨hk, hdist⟩ <;>
      rw [hself, hdist] <;> linarith
  · intro k hne htie
    rcases abs_sub_natCast hf (by linarith) k with ⟨hk, hdist⟩ | ⟨hk, hdist⟩ <;>
      rw [hself, hdist] at htie
    · exact absurd (by exact_mod_cast (by linarith : (k : ℚ) = f)) hne
    · linarith

theorem nearestEven_ceil (hf : f + 1 / 2 < t) (ht : t < f + 1) :
    NearestEven (fun k => (k : ℚ)) t (f + 1) := by
  have hself : |t - (f + 1 : Nat)| = f + 1 - t := by
    rw [Nat.cast_add_one, abs_sub_comm, abs_of_nonneg (by linarith)]
  constructor
  · intro k
    rcases abs_sub_natCast (by linarith) ht k with ⟨hk, hdist⟩ | ⟨hk, hdist⟩ <;>
      rw [hself, hdist] <;> linarith
  · intro k hne htie
    rcases abs_sub_natCast (by linarith) ht k with ⟨hk, hdist⟩ | ⟨hk, hdist⟩ <;>
      rw [hself, hdist] at htie
    · linarith
    · have hcast : (k : ℚ) = (f + 1 : Nat) := by
        rw [Nat.cast_add_one]
        linarith
      exact absurd (by exact_mod_cast hcast) hne

theorem nearestEven_half (ht : t = f + 1 / 2) :
    NearestEven (fun k => (k : ℚ)) t (f + f % 2) := by
  have hself : |t - (f + f % 2 : Nat)| = 1 / 2 := by
    rcases Nat.mod_two_eq_zero_or_one f with h | h <;> rw [h, ht]
    · rw [Nat.add_zero, abs_of_nonneg] <;> linarith
    · rw [Nat.cast_add_one, abs_of_neg] <;> linarith
  constructor
  · intro k
    have hf : (f : ℚ) ≤ t := by linarith
    rcases abs_sub_natCast hf (by linarith) k with ⟨hk, hdist⟩ | ⟨hk, hdist⟩ <;>
      rw [hself, hdist] <;> linarith
  · intro k _ _
    rw [Nat.even_iff]
    omega

end Floor

theorem le_roundHalfEven (num den : Nat) : num / den ≤ roundHalfEven num den := by
  unfold roundHalfEven
  dsimp only
  split_ifs <;> omega

theorem roundHalfEven_le (num den : Nat) : roundHalfEven num den ≤ num / den + 1 := by
  unfold roundHalfEven
  dsimp only
  split_ifs <;> omega

theorem nearestEven_roundHalfEven (num : Nat) {den : Nat} (hden : 0 < den) :
    NearestEven (fun k => (k : ℚ)) (num / den) (roundHalfEven num den) := by
  have hpos : (0 : ℚ) < den := by exact_mod_cast hden
  have hnum : (num : ℚ) / den = (num / den : Nat) + ((num % den : Nat) : ℚ) / den := by
    have hsplit : (num : ℚ) = den * (num / den : Nat) + (num % den : Nat) := by
      exact_mod_cast (Nat.div_add_mod num den).symm
    rw [div_eq_iff hpos.ne', add_mul, div_mul_cancel₀ _ hpos.ne', mul_comm]
    exact hsplit
  have hlow : 0 ≤ ((num % den : Nat) : ℚ) / den := by positivity
  have hhigh : ((num % den : Nat) : ℚ) / den < 1 := by
    rw [div_lt_one hpos]
    exact_mod_cast Nat.mod_lt num hden
  unfold roundHalfEven
  dsimp only
  split_ifs with hbelow habove
  · refine nearestEven_floor (by linarith) ?_
    have : ((num % den : Nat) : ℚ) / den < 1 / 2 := by
      rw [div_lt_div_iff₀ hpos two_pos]
      exact_mod_cast (by omega : num % den * 2 < 1 * den)
    linarith
  · refine nearestEven_ceil ?_ (by linarith)
    have : 1 / 2 < ((num % den : Nat) : ℚ) / den := by
      rw [div_lt_div_iff₀ two_pos hpos]
      exact_mod_cast (by omega : 1 * den < num % den * 2)
    linarith
  · refine nearestEven_half ?_
    have : ((num % den : Nat) : ℚ) / den = 1 / 2 := by
      rw [div_eq_div_iff hpos.ne' two_ne_zero]
      exact_mod_cast (by omega : num % den * 2 = 1 * den)
    linarith

end AlertConsole.Number
