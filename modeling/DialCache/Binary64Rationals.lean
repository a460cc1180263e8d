import Mathlib.Data.Int.Log
import Mathlib.Data.Rat.Floor
import Mathlib.Tactic.Positivity

/-!
# Rational numbers in binary64 arithmetic

`binary64` rounds a rational number to 53 significant bits, ties to even. The exponent is
unbounded: below the subnormal range and past the largest finite double the hardware
differs. A number that needs no more than 53 bits is its own rounding.
-/

namespace DialCache.Binary64Rationals

/-- The nearest integer, ties to even. -/
def roundHalfEven (q : ℚ) : ℤ :=
  let below := ⌊q⌋
  if 2 * (q - below) < 1 ∨ (2 * (q - below) = 1 ∧ below % 2 = 0) then below else below + 1

/-- The exponent of the last kept bit. -/
def lastExponent (q : ℚ) : ℤ := Int.log 2 |q| - 52

/-- Round to 53 significant bits, ties to an even significand. -/
def binary64 (q : ℚ) : ℚ := roundHalfEven (q / 2 ^ lastExponent q) * 2 ^ lastExponent q

theorem roundHalfEven_intCast (n : ℤ) : roundHalfEven n = n := by
  simp [roundHalfEven]

theorem lastExponent_le {m e : ℤ} (hm : m ≠ 0) (h : |m| < 2 ^ 53) :
    lastExponent (m * 2 ^ e : ℚ) ≤ e := by
  have hpow : (0 : ℚ) < 2 ^ e := zpow_pos (by norm_num) e
  have habs : |(m * 2 ^ e : ℚ)| = |m| * 2 ^ e := by
    rw [abs_mul, abs_of_pos hpow, Int.cast_abs]
  have hmpos : (0 : ℚ) < |m| := by
    exact_mod_cast abs_pos.mpr hm
  have hlt : |(m * 2 ^ e : ℚ)| < ((2 : ℕ) : ℚ) ^ (53 + e) := by
    rw [habs, Nat.cast_ofNat, zpow_add₀ (by norm_num)]
    apply mul_lt_mul_of_pos_right _ hpow
    exact_mod_cast h
  have hlog := (Int.lt_zpow_iff_log_lt (by norm_num) (by rw [habs]; exact mul_pos hmpos hpow)).mp hlt
  unfold lastExponent
  omega

/-- A number of at most 53 significant bits is exact. -/
theorem binary64_eq_self {m : ℤ} (e : ℤ) (h : |m| < 2 ^ 53) : binary64 (m * 2 ^ e) = m * 2 ^ e := by
  by_cases hm : m = 0
  · subst hm
    simp [binary64, roundHalfEven]
  · have hle := lastExponent_le (e := e) hm h
    generalize hlast : lastExponent (m * 2 ^ e : ℚ) = last at hle
    have hscaled : (m * 2 ^ e : ℚ) / 2 ^ last = ((m * 2 ^ (e - last).toNat : ℤ) : ℚ) := by
      have hnat : ((e - last).toNat : ℤ) = e - last := Int.toNat_of_nonneg (by omega)
      push_cast
      rw [mul_div_assoc, ← zpow_sub₀ (by norm_num), ← zpow_natCast, hnat]
    rw [binary64, hlast, hscaled, roundHalfEven_intCast, ← hscaled]
    exact div_mul_cancel₀ _ (zpow_pos (by norm_num) last).ne'

theorem binary64_intCast {n : ℤ} (h : |n| < 2 ^ 53) : binary64 n = n := by
  have hexact := binary64_eq_self 0 h
  rwa [zpow_zero, mul_one] at hexact

theorem floor_le_roundHalfEven (q : ℚ) : ⌊q⌋ ≤ roundHalfEven q := by
  unfold roundHalfEven
  dsimp only
  split <;> omega

theorem roundHalfEven_nonpos {q : ℚ} (h : q ≤ 0) : roundHalfEven q ≤ 0 := by
  rcases h.lt_or_eq with hneg | rfl
  · have hfloor : ⌊q⌋ < 0 := Int.floor_lt.mpr (by exact_mod_cast hneg)
    unfold roundHalfEven
    dsimp only
    split <;> omega
  · exact (roundHalfEven_intCast 0).le

/-- Rounding keeps the sign. -/
theorem binary64_pos {q : ℚ} : 0 < binary64 q ↔ 0 < q := by
  have hpow : (0 : ℚ) < 2 ^ lastExponent q := zpow_pos (by norm_num) _
  rw [binary64, mul_pos_iff_of_pos_right hpow, Int.cast_pos]
  constructor
  · intro hround
    by_contra hq
    have hnonpos := roundHalfEven_nonpos (div_nonpos_of_nonpos_of_nonneg (not_lt.mp hq) hpow.le)
    omega
  · intro hq
    have hlog : ((2 : ℕ) : ℚ) ^ Int.log 2 |q| ≤ |q| := Int.zpow_log_le_self (by norm_num) (by positivity)
    have hle : (2 : ℚ) ^ lastExponent q ≤ q := by
      rw [abs_of_pos hq, Nat.cast_ofNat] at hlog
      refine le_trans (zpow_le_zpow_right₀ (by norm_num) ?_) hlog
      rw [lastExponent, abs_of_pos hq]
      omega
    have hone : 1 ≤ ⌊q / 2 ^ lastExponent q⌋ := by
      rw [Int.le_floor, Int.cast_one]
      exact (one_le_div hpow).mpr hle
    exact lt_of_lt_of_le hone (floor_le_roundHalfEven _)

end DialCache.Binary64Rationals
