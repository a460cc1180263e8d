import Mathlib.Data.Nat.Basic
import Mathlib.Tactic.Linarith
import Mathlib.Tactic.NormNum

/-!
# Natural numbers in binary64 arithmetic

`nearest` rounds a natural number to 53 significant bits, ties to even. It is the
value of the binary64 number closest to an integer, with an unbounded exponent:
an integer past the largest finite double stays a large number here where the
hardware gives infinity, and every comparison with a bound up to `2^53` agrees.
-/

namespace DialCache.Binary64Integers

/-- The exponent of the last kept bit. It is zero exactly below `2^53`. -/
def shift (n : ℕ) : ℕ := n.log2 - 52

/-- Round to 53 significant bits, ties to an even significand. -/
def nearest (n : ℕ) : ℕ :=
  let unit := 2 ^ shift n
  if 2 * (n % unit) < unit ∨ (2 * (n % unit) = unit ∧ n / unit % 2 = 0) then
    n / unit * unit
  else (n / unit + 1) * unit

variable {n : ℕ}

theorem shift_eq_zero (h : n < 2 ^ 53) : shift n = 0 := by
  by_cases hn : n = 0
  · subst n; rfl
  · have hl := (Nat.log2_lt hn).mpr h
    unfold shift
    omega

theorem shift_pos (h : 2 ^ 53 ≤ n) : 0 < shift n := by
  have hn : n ≠ 0 := by
    have : 0 < 2 ^ 53 := by positivity
    omega
  have hl := (Nat.le_log2 hn).mpr h
  unfold shift
  omega

theorem two_pow_shift_le (h : 2 ^ 53 ≤ n) : 2 ^ (52 + shift n) ≤ n := by
  have hn : n ≠ 0 := by
    have : 0 < 2 ^ 53 := by positivity
    omega
  have hl := (Nat.le_log2 hn).mpr h
  have he : 52 + shift n = n.log2 := by
    unfold shift
    omega
  rw [he]
  exact Nat.log2_self_le hn

/-- Below `2^53` every natural number is its own rounding. -/
theorem nearest_of_lt (h : n < 2 ^ 53) : nearest n = n := by
  simp [nearest, shift_eq_zero h, Nat.mod_one]

/-- Rounding keeps at least the truncated significand. -/
theorem truncated_le_nearest (n : ℕ) : n / 2 ^ shift n * 2 ^ shift n ≤ nearest n := by
  unfold nearest
  dsimp only
  split
  · exact Nat.le_refl _
  · exact Nat.mul_le_mul_right _ (Nat.le_succ _)

theorem two_pow_le_nearest (h : 2 ^ 53 ≤ n) : 2 ^ 53 ≤ nearest n := by
  have hq : 2 ^ 52 ≤ n / 2 ^ shift n := by
    rw [Nat.le_div_iff_mul_le (by positivity), ← pow_add]
    exact two_pow_shift_le h
  have hu : 2 ^ 1 ≤ 2 ^ shift n := Nat.pow_le_pow_right (by norm_num) (shift_pos h)
  calc 2 ^ 53 = 2 ^ 52 * 2 ^ 1 := by norm_num
    _ ≤ n / 2 ^ shift n * 2 ^ shift n := Nat.mul_le_mul hq hu
    _ ≤ nearest n := truncated_le_nearest n

/-- A lower bound that is itself exact survives rounding. -/
theorem le_nearest {m : ℕ} (hmn : m ≤ n) (hm : m ≤ 2 ^ 53) : m ≤ nearest n := by
  rcases Nat.lt_or_ge n (2 ^ 53) with h | h
  · rwa [nearest_of_lt h]
  · exact hm.trans (two_pow_le_nearest h)

theorem nearest_le_iff {bound : ℕ} (hb : bound < 2 ^ 53) : nearest n ≤ bound ↔ n ≤ bound := by
  rcases Nat.lt_or_ge n (2 ^ 53) with h | h
  · rw [nearest_of_lt h]
  · have hr := two_pow_le_nearest h
    constructor <;> intro hle <;> omega

theorem nearest_of_dvd (h : 2 ^ shift n ∣ n) : nearest n = n := by
  have hr : n % 2 ^ shift n = 0 := Nat.mod_eq_zero_of_dvd h
  have hp : 0 < 2 ^ shift n := by positivity
  simp [nearest, hr, hp, Nat.div_mul_cancel h]

/-- Every integer whose significand fits in 53 bits is exact. -/
theorem nearest_mul_two_pow {k s : ℕ} (hk : k ≤ 2 ^ 53) :
    nearest (k * 2 ^ s) = k * 2 ^ s := by
  apply nearest_of_dvd
  by_cases hz : k = 0
  · simp [hz]
  have hn : k * 2 ^ s ≠ 0 := Nat.mul_ne_zero hz (by positivity)
  rcases Nat.lt_or_eq_of_le hk with hlt | rfl
  · have hlog : (k * 2 ^ s).log2 < 53 + s := by
      rw [Nat.log2_lt hn, pow_add]
      exact Nat.mul_lt_mul_of_pos_right hlt (by positivity)
    have hle : shift (k * 2 ^ s) ≤ s := by
      unfold shift
      omega
    exact Dvd.dvd.mul_left (pow_dvd_pow 2 hle) k
  · rw [← pow_add] at hn ⊢
    have hlog : (2 ^ (53 + s)).log2 < 53 + s + 1 := by
      rw [Nat.log2_lt hn]
      exact Nat.pow_lt_pow_right (by norm_num) (Nat.lt_succ_self _)
    apply pow_dvd_pow 2
    unfold shift
    omega

/-- A rounded number is exact. -/
@[simp] theorem nearest_nearest (n : ℕ) : nearest (nearest n) = nearest n := by
  rcases Nat.lt_or_ge n (2 ^ 53) with h | h
  · rw [nearest_of_lt h, nearest_of_lt h]
  have hn : n ≠ 0 := by
    have : 0 < 2 ^ 53 := by positivity
    omega
  have hlog := (Nat.le_log2 hn).mpr h
  have hq : n / 2 ^ shift n < 2 ^ 53 := by
    rw [Nat.div_lt_iff_lt_mul (by positivity), ← pow_add]
    have he : 53 + shift n = n.log2 + 1 := by
      unfold shift
      omega
    rw [he]
    exact Nat.lt_log2_self
  have hk : ∃ k ≤ 2 ^ 53, nearest n = k * 2 ^ shift n := by
    unfold nearest
    dsimp only
    split
    · exact ⟨_, Nat.le_of_lt hq, rfl⟩
    · exact ⟨_, hq, rfl⟩
  obtain ⟨k, hle, he⟩ := hk
  rw [he]
  exact nearest_mul_two_pow hle

/-! ### Order -/

theorem nearest_cases (n : ℕ) :
    (nearest n = n / 2 ^ shift n * 2 ^ shift n ∧ 2 * (n % 2 ^ shift n) ≤ 2 ^ shift n) ∨
      (nearest n = (n / 2 ^ shift n + 1) * 2 ^ shift n ∧ 2 ^ shift n ≤ 2 * (n % 2 ^ shift n)) := by
  unfold nearest
  dsimp only
  split
  · left
    exact ⟨rfl, by omega⟩
  · right
    exact ⟨rfl, by omega⟩

/-- A number below its rounding is at most half a unit away from it. -/
theorem gap_of_lt_nearest (h : n < nearest n) :
    2 ^ shift n ∣ nearest n ∧ 2 * (nearest n - n) ≤ 2 ^ shift n := by
  have hsplit := Nat.div_add_mod n (2 ^ shift n)
  rw [Nat.mul_comm] at hsplit
  rcases nearest_cases n with ⟨heq, hrest⟩ | ⟨heq, hrest⟩
  · omega
  · refine ⟨Dvd.intro_left _ heq.symm, ?_⟩
    rw [heq, Nat.add_mul, Nat.one_mul]
    omega

theorem two_pow_log2_le_nearest (hn : n ≠ 0) : 2 ^ n.log2 ≤ nearest n := by
  rcases Nat.lt_or_ge n (2 ^ 53) with h | h
  · rw [nearest_of_lt h]
    exact Nat.log2_self_le hn
  · have hlog := (Nat.le_log2 hn).mpr h
    have he : n.log2 = 52 + shift n := by
      unfold shift
      omega
    have hq : 2 ^ 52 ≤ n / 2 ^ shift n := by
      rw [Nat.le_div_iff_mul_le (by positivity), ← pow_add]
      exact two_pow_shift_le h
    rw [he, pow_add]
    exact (Nat.mul_le_mul_right _ hq).trans (truncated_le_nearest n)

theorem nearest_le_two_pow (n : ℕ) : nearest n ≤ 2 ^ (n.log2 + 1) := by
  rcases Nat.lt_or_ge n (2 ^ 53) with h | h
  · rw [nearest_of_lt h]
    exact Nat.le_of_lt Nat.lt_log2_self
  · have hn : n ≠ 0 := by
      have : 0 < 2 ^ 53 := by positivity
      omega
    have hlog := (Nat.le_log2 hn).mpr h
    have he : n.log2 + 1 = 53 + shift n := by
      unfold shift
      omega
    have hq : n / 2 ^ shift n < 2 ^ 53 := by
      rw [Nat.div_lt_iff_lt_mul (by positivity), ← pow_add, ← he]
      exact Nat.lt_log2_self
    have hle : (n / 2 ^ shift n + 1) * 2 ^ shift n ≤ 2 ^ 53 * 2 ^ shift n :=
      Nat.mul_le_mul_right _ hq
    rw [he, pow_add]
    rcases nearest_cases n with ⟨heq, -⟩ | ⟨heq, -⟩
    · rw [heq]
      exact (Nat.mul_le_mul_right _ (Nat.le_succ _)).trans hle
    · rw [heq]
      exact hle

/-- Rounding keeps the order. -/
theorem nearest_mono {m : ℕ} (h : m ≤ n) : nearest m ≤ nearest n := by
  by_cases hm : m = 0
  · rw [hm, nearest_of_lt (by positivity)]
    exact Nat.zero_le _
  have hn : n ≠ 0 := by omega
  have hlog : m.log2 ≤ n.log2 := (Nat.le_log2 hn).mpr ((Nat.log2_self_le hm).trans h)
  rcases Nat.lt_or_eq_of_le hlog with hlt | heq
  · calc nearest m ≤ 2 ^ (m.log2 + 1) := nearest_le_two_pow m
      _ ≤ 2 ^ n.log2 := Nat.pow_le_pow_right (by norm_num) hlt
      _ ≤ nearest n := two_pow_log2_le_nearest hn
  · have hshift : shift m = shift n := by
      unfold shift
      rw [heq]
    -- With one unit for both, the quotients are in order, or equal with the rests in order.
    have hq : m / 2 ^ shift n ≤ n / 2 ^ shift n := Nat.div_le_div_right h
    rcases Nat.lt_or_eq_of_le hq with hq | hq
    · have hround : nearest m ≤ (m / 2 ^ shift n + 1) * 2 ^ shift n := by
        rcases nearest_cases m with ⟨hm', -⟩ | ⟨hm', -⟩
        · rw [hm', hshift]
          exact Nat.mul_le_mul_right _ (Nat.le_succ _)
        · rw [hm', hshift]
      exact hround.trans ((Nat.mul_le_mul_right _ hq).trans (truncated_le_nearest n))
    · have hmsplit := Nat.div_add_mod m (2 ^ shift n)
      have hnsplit := Nat.div_add_mod n (2 ^ shift n)
      rw [hq] at hmsplit
      have hrest : m % 2 ^ shift n ≤ n % 2 ^ shift n := by omega
      unfold nearest
      dsimp only
      rw [hshift, hq]
      split
      · split
        · exact Nat.le_refl _
        · exact Nat.mul_le_mul_right _ (Nat.le_succ _)
      · split
        · exfalso
          omega
        · exact Nat.le_refl _

/-- Rounding does not halve. -/
theorem lt_two_mul_nearest (hn : n ≠ 0) : n < 2 * nearest n := by
  have hlow := two_pow_log2_le_nearest hn
  have hhigh := @Nat.lt_log2_self n
  rw [pow_succ] at hhigh
  omega

end DialCache.Binary64Integers
