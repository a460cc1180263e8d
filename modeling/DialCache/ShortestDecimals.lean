import Mathlib.Algebra.Order.Group.Nat
import Mathlib.Data.Nat.Log
import Mathlib.Data.Nat.Prime.Basic
import DialCache.Binary64Integers

/-!
# The shortest decimal of an integral double

A double is printed with the fewest significant digits that read back as the double, and
among those with the digits closest to it. For an integral double this is the integer with
the most trailing zeros that rounds to the double. The search is the one of a digit
generator: it cuts the decimal at ever later places until the cut number, or the next one,
rounds to the double.
-/

namespace DialCache.ShortestDecimals

open Binary64Integers

/-! ### Trailing zeros -/

/-- The trailing zeros of a decimal. -/
def zeros (n : ℕ) : ℕ := if h : n ≠ 0 ∧ n % 10 = 0 then zeros (n / 10) + 1 else 0
decreasing_by omega

variable {n : ℕ}

theorem pow_dvd_iff (hn : n ≠ 0) (e : ℕ) : 10 ^ e ∣ n ↔ e ≤ zeros n := by
  induction n using Nat.strong_induction_on generalizing e with
  | _ n ih =>
    rw [zeros]
    split
    · rename_i h
      obtain ⟨k, rfl⟩ := Nat.dvd_of_mod_eq_zero h.2
      have hk : k ≠ 0 := fun hk => hn (by rw [hk])
      rw [Nat.mul_div_cancel_left k (by norm_num)]
      cases e with
      | zero => exact iff_of_true (one_dvd _) (Nat.zero_le _)
      | succ e =>
        rw [pow_succ', Nat.mul_dvd_mul_iff_left (by norm_num), ih k (by omega) hk]
        exact Nat.succ_le_succ_iff.symm
    · rename_i h
      cases e with
      | zero => exact iff_of_true (one_dvd _) (Nat.zero_le _)
      | succ e =>
        apply iff_of_false
        · intro hdvd
          have hten : 10 ∣ n := (Dvd.intro_left _ (pow_succ 10 e).symm).trans hdvd
          exact h ⟨hn, Nat.mod_eq_zero_of_dvd hten⟩
        · exact Nat.not_succ_le_zero e

theorem pow_zeros_dvd (hn : n ≠ 0) : 10 ^ zeros n ∣ n := (pow_dvd_iff hn _).mpr (Nat.le_refl _)

/-! ### The search -/

variable (v e : ℕ)

/-- The decimal cut before its last `e` digits. -/
def lower : ℕ := v / 10 ^ e * 10 ^ e

def upper : ℕ := (v / 10 ^ e + 1) * 10 ^ e

/-- Whether the next cut decimal is closer, or as close with an even last digit. -/
def roundsUp : Bool :=
  decide (10 ^ e < 2 * (v % 10 ^ e) ∨ (2 * (v % 10 ^ e) = 10 ^ e ∧ v / 10 ^ e % 2 = 1))

/-- A decimal with `e` trailing zeros that reads back as `v`. -/
def candidate : Option ℕ :=
  if nearest (lower v e) = v then
    if nearest (upper v e) = v ∧ roundsUp v e = true then some (upper v e) else some (lower v e)
  else if nearest (upper v e) = v then some (upper v e)
  else none

def search (v : ℕ) : ℕ → ℕ
  | 0 => (candidate v 0).getD v
  | e + 1 => (candidate v (e + 1)).getD (search v e)

theorem search_zero (v : ℕ) : search v 0 = (candidate v 0).getD v := rfl

theorem search_succ : search v (e + 1) = (candidate v (e + 1)).getD (search v e) := rfl

/-- The shortest decimal that reads back as `v`. -/
def shortest (v : ℕ) : ℕ := search v (Nat.log 10 v + 1)

/-- The distance of two numbers. -/
def distance (m v : ℕ) : ℕ := (m - v) + (v - m)

theorem lower_le : lower v e ≤ v := Nat.div_mul_le_self v _

theorem lt_upper : v < upper v e := by
  have hpos : 0 < 10 ^ e := by positivity
  rw [upper, Nat.mul_comm]
  exact Nat.lt_mul_div_succ v hpos

theorem split : lower v e + v % 10 ^ e = v := by
  rw [lower, Nat.mul_comm]
  exact Nat.div_add_mod v _

theorem upper_eq : upper v e = lower v e + 10 ^ e := by
  rw [upper, Nat.add_mul, Nat.one_mul]
  rfl

variable {e m : ℕ}

theorem le_lower {v : ℕ} (hdvd : 10 ^ e ∣ m) (h : m ≤ v) : m ≤ lower v e := by
  obtain ⟨k, rfl⟩ := hdvd
  have hpos : 0 < 10 ^ e := by positivity
  rw [lower, Nat.mul_comm]
  apply Nat.mul_le_mul_right
  rw [Nat.le_div_iff_mul_le hpos, Nat.mul_comm]
  exact h

theorem upper_le {v : ℕ} (hdvd : 10 ^ e ∣ m) (h : v < m) : upper v e ≤ m := by
  obtain ⟨k, rfl⟩ := hdvd
  have hpos : 0 < 10 ^ e := by positivity
  rw [upper, Nat.mul_comm]
  apply Nat.mul_le_mul_left
  rw [Nat.succ_le_iff, Nat.div_lt_iff_lt_mul hpos, Nat.mul_comm]
  exact h

section Double

variable {v : ℕ} (hv : nearest v = v)

include hv

/-- If a number with `e` trailing zeros reads back as `v`, one of the two next to `v` does. -/
theorem lower_or_upper (hdvd : 10 ^ e ∣ m) (hm : nearest m = v) :
    (m ≤ lower v e ∧ nearest (lower v e) = v) ∨ (upper v e ≤ m ∧ nearest (upper v e) = v) := by
  rcases Nat.lt_or_ge v m with h | h
  · right
    have hle := upper_le hdvd h
    have hfirst := nearest_mono (Nat.le_of_lt (lt_upper v e))
    have hsecond := nearest_mono hle
    rw [hv] at hfirst
    rw [hm] at hsecond
    exact ⟨hle, Nat.le_antisymm hsecond hfirst⟩
  · left
    have hle := le_lower hdvd h
    have hfirst := nearest_mono (lower_le v e)
    have hsecond := nearest_mono hle
    rw [hv] at hfirst
    rw [hm] at hsecond
    exact ⟨hle, Nat.le_antisymm hfirst hsecond⟩

theorem candidate_eq_none (h : candidate v e = none) (hdvd : 10 ^ e ∣ m) : nearest m ≠ v := by
  intro hm
  unfold candidate at h
  split at h
  · split at h <;> cases h
  · rename_i hlower
    split at h
    · cases h
    · rename_i hupper
      rcases lower_or_upper hv hdvd hm with ⟨-, hlow⟩ | ⟨-, hupp⟩
      · exact hlower hlow
      · exact hupper hupp

theorem candidate_eq_some {c : ℕ} (h : candidate v e = some c) : nearest c = v ∧ 10 ^ e ∣ c ∧
    ∀ m, 10 ^ e ∣ m → nearest m = v → distance c v ≤ distance m v := by
  have hlowerDvd : 10 ^ e ∣ lower v e := Dvd.intro_left _ rfl
  have hupperDvd : 10 ^ e ∣ upper v e := Dvd.intro_left _ rfl
  have hle := lower_le v e
  have hlt := lt_upper v e
  have hsplit := split v e
  have hupperEq := upper_eq v e
  unfold candidate at h
  split at h
  · rename_i hlower
    split at h
    · rename_i hboth
      obtain rfl := Option.some.inj h
      refine ⟨hboth.1, hupperDvd, ?_⟩
      intro m hdvd hm
      have hup := hboth.2
      rw [roundsUp, decide_eq_true_eq] at hup
      unfold distance
      rcases lower_or_upper hv hdvd hm with ⟨hfar, -⟩ | ⟨hfar, -⟩ <;> omega
    · rename_i hnot
      obtain rfl := Option.some.inj h
      refine ⟨hlower, hlowerDvd, ?_⟩
      intro m hdvd hm
      unfold distance
      rcases lower_or_upper hv hdvd hm with ⟨hfar, -⟩ | ⟨hfar, hupper⟩
      · omega
      · have hdown : ¬ roundsUp v e = true := fun hup => hnot ⟨hupper, hup⟩
        rw [roundsUp, decide_eq_true_eq] at hdown
        omega
  · rename_i hlower
    split at h
    · rename_i hupper
      obtain rfl := Option.some.inj h
      refine ⟨hupper, hupperDvd, ?_⟩
      intro m hdvd hm
      unfold distance
      rcases lower_or_upper hv hdvd hm with ⟨-, hlow⟩ | ⟨hfar, -⟩
      · exact absurd hlow hlower
      · omega
    · cases h

theorem candidate_zero : candidate v 0 = some v := by
  have hlower : lower v 0 = v := by simp [lower]
  have hdown : roundsUp v 0 = false := by simp [roundsUp, Nat.mod_one]
  rw [candidate, hlower, if_pos hv, hdown, if_neg]
  exact fun h => Bool.false_ne_true h.2

/-- The search ends at the last place at which a cut decimal reads back as `v`. -/
theorem search_spec (top : ℕ) : ∃ e ≤ top, candidate v e = some (search v top) ∧
    ∀ e', e < e' → e' ≤ top → candidate v e' = none := by
  induction top with
  | zero =>
    refine ⟨0, Nat.le_refl 0, ?_, fun e' hlt hle => absurd hlt (Nat.not_lt.mpr hle)⟩
    rw [search_zero, candidate_zero hv, Option.getD_some]
  | succ top ih =>
    cases hc : candidate v (top + 1) with
    | some c =>
      rw [search_succ, hc, Option.getD_some]
      exact ⟨top + 1, Nat.le_refl _, hc, fun e' hlt hle => absurd hlt (Nat.not_lt.mpr hle)⟩
    | none =>
      obtain ⟨e, hle, hfound, hnone⟩ := ih
      rw [search_succ, hc, Option.getD_none]
      refine ⟨e, Nat.le_succ_of_le hle, hfound, ?_⟩
      intro e' hlt hle'
      rcases Nat.lt_or_eq_of_le hle' with hless | rfl
      · exact hnone e' hlt (Nat.le_of_lt_succ hless)
      · exact hc

variable (hpos : v ≠ 0)

include hpos

omit hv in
theorem ne_zero_of_nearest (hm : nearest m = v) : m ≠ 0 := by
  rintro rfl
  exact hpos hm.symm

theorem zeros_le_log (hm : nearest m = v) : zeros m ≤ Nat.log 10 v + 1 := by
  have hm0 := ne_zero_of_nearest hpos hm
  have hdvd := Nat.le_of_dvd (Nat.pos_of_ne_zero hm0) (pow_zeros_dvd hm0)
  have htwo := lt_two_mul_nearest hm0
  have hlog := Nat.lt_pow_succ_log_self (b := 10) (by norm_num) v
  rw [hm] at htwo
  have hlt : 10 ^ zeros m < 10 ^ (Nat.log 10 v + 2) := by
    rw [pow_succ 10 (Nat.log 10 v + 1)]
    rw [Nat.succ_eq_add_one] at hlog
    omega
  exact Nat.le_of_lt_succ ((Nat.pow_lt_pow_iff_right (by norm_num)).mp hlt)

/-- The shortest decimal reads back as `v`; no number that does has more trailing zeros, and
none with as many is closer. -/
theorem shortest_spec : nearest (shortest v) = v ∧
    (∀ m, nearest m = v → zeros m ≤ zeros (shortest v)) ∧
    ∀ m, nearest m = v → zeros m = zeros (shortest v) → distance (shortest v) v ≤ distance m v := by
  obtain ⟨e, -, hfound, hnone⟩ := search_spec hv (Nat.log 10 v + 1)
  rw [← shortest] at hfound
  obtain ⟨hread, hdvd, hclosest⟩ := candidate_eq_some hv hfound
  have hzeros : ∀ m, nearest m = v → zeros m ≤ e := by
    intro m hm
    by_contra hmore
    exact candidate_eq_none hv (hnone (zeros m) (Nat.lt_of_not_le hmore) (zeros_le_log hv hpos hm))
      (pow_zeros_dvd (ne_zero_of_nearest hpos hm)) hm
  have hmost : e ≤ zeros (shortest v) := (pow_dvd_iff (ne_zero_of_nearest hpos hread) e).mp hdvd
  refine ⟨hread, fun m hm => (hzeros m hm).trans hmost, ?_⟩
  intro m hm hsame
  apply hclosest m _ hm
  rw [pow_dvd_iff (ne_zero_of_nearest hpos hm), hsame]
  exact hmost

omit hv hpos in
/-- `v` is not half way between two numbers that read back as `v`, unless it has their zeros. -/
theorem pow_dvd_of_tie {z : ℕ} (hm : nearest m = v) (hmz : 10 ^ z ∣ m) (hnz : 10 ^ z ∣ n)
    (hlt : m < v) (htie : n - v = v - m) (hgt : v < n) : 10 ^ z ∣ v := by
  obtain ⟨hunit, hgap⟩ := gap_of_lt_nearest (hm.symm ▸ hlt)
  rw [hm] at hunit hgap
  have htwice : 2 * (v - m) = n - m := by omega
  have hdouble : 10 ^ z ∣ 2 * (v - m) := htwice ▸ Nat.dvd_sub hnz hmz
  -- The unit of `m` is at least as large as the gap, so it has more than `z` twos.
  have hz : z ≤ shift m := by
    have hle : 10 ^ z ≤ 2 ^ shift m := (Nat.le_of_dvd (by omega) hdouble).trans hgap
    have htwo : 2 ^ z ≤ 2 ^ shift m := (Nat.pow_le_pow_left (by norm_num) z).trans hle
    exact (Nat.pow_le_pow_iff_right (by norm_num)).mp htwo
  have htwos : 2 ^ z ∣ v - m := by
    have hten : 2 ^ z ∣ 10 ^ z := pow_dvd_pow_of_dvd (by norm_num) z
    exact Nat.dvd_sub ((pow_dvd_pow 2 hz).trans hunit) (hten.trans hmz)
  have hfives : 5 ^ z ∣ v - m := by
    have hten : 5 ^ z ∣ 10 ^ z := pow_dvd_pow_of_dvd (by norm_num) z
    exact (Nat.Coprime.pow_left z (by decide : Nat.Coprime 5 2)).dvd_of_dvd_mul_left (hten.trans hdouble)
  have hcoprime : Nat.Coprime (2 ^ z) (5 ^ z) := Nat.Coprime.pow z z (by decide)
  have hgapDvd : 10 ^ z ∣ v - m := by
    have hmul := hcoprime.mul_dvd_of_dvd_of_dvd htwos hfives
    rwa [← mul_pow] at hmul
  have hsum := Nat.dvd_add hmz hgapDvd
  rwa [Nat.add_sub_cancel' (Nat.le_of_lt hlt)] at hsum

/-- No other number with as many zeros is as close as the shortest decimal. -/
theorem distance_shortest_ne (hm : nearest m = v) (hzeros : zeros m = zeros (shortest v))
    (hne : m ≠ shortest v) : distance (shortest v) v ≠ distance m v := by
  obtain ⟨hread, hmost, hclosest⟩ := shortest_spec hv hpos
  intro htie
  have hmz : 10 ^ zeros (shortest v) ∣ m := by
    rw [pow_dvd_iff (ne_zero_of_nearest hpos hm), hzeros]
  have hcz := pow_zeros_dvd (ne_zero_of_nearest hpos hread)
  -- If the double has as many zeros itself, it is the closest number of all.
  have hself : ¬ 10 ^ zeros (shortest v) ∣ v := by
    intro hdvd
    have hle := hmost v hv
    rw [pow_dvd_iff hpos] at hdvd
    have hzero := hclosest v hv (Nat.le_antisymm hle hdvd)
    unfold distance at hzero htie
    omega
  rcases Nat.lt_trichotomy m v with hlt | heq | hgt
  · apply hself (pow_dvd_of_tie hm hmz hcz hlt _ _) <;> unfold distance at htie <;> omega
  · rw [heq] at hmz
    exact hself hmz
  · apply hself (pow_dvd_of_tie hread hcz hmz _ _ hgt) <;> unfold distance at htie <;> omega

end Double

/-! ### Integers that are printed as they are -/

/-- Every other integer with the same double has fewer trailing zeros, or as many and is
farther from the double. -/
def Preferred (n : ℕ) : Prop := ∀ m, m ≠ n → nearest m = nearest n →
  zeros m < zeros n ∨ (zeros m = zeros n ∧ distance n (nearest n) < distance m (nearest n))

theorem shortest_nearest_iff (hn : n ≠ 0) : shortest (nearest n) = n ↔ Preferred n := by
  have hpos : nearest n ≠ 0 := by
    have hlt := lt_two_mul_nearest hn
    omega
  obtain ⟨hread, hmost, hclosest⟩ := shortest_spec (nearest_nearest n) hpos
  constructor
  · intro h m hne hm
    have hle := hmost m hm
    rw [h] at hle
    rcases Nat.lt_or_eq_of_le hle with hless | hsame
    · exact Or.inl hless
    · right
      have hdistance := hclosest m hm (by rw [h, hsame])
      have hstrict := distance_shortest_ne (nearest_nearest n) hpos hm (by rw [h, hsame])
        (by rw [h]; exact hne)
      rw [h] at hdistance hstrict
      exact ⟨hsame, Nat.lt_of_le_of_ne hdistance hstrict⟩
  · intro h
    by_contra hne
    have hle := hmost n rfl
    rcases h (shortest (nearest n)) hne hread with hless | ⟨hsame, hfar⟩
    · omega
    · have hdistance := hclosest n rfl hsame.symm
      omega

/-- Up to `2^53` every integer is printed as it is. -/
theorem preferred_of_le (h : n ≤ 2 ^ 53) : Preferred n := by
  intro m hne hm
  have hexact : nearest n = n := by
    have hself := nearest_mul_two_pow (s := 0) h
    rwa [pow_zero, Nat.mul_one] at hself
  rw [hexact] at hm ⊢
  -- Only `2^53 + 1` rounds to another integer in the range, to `2^53`.
  have hlarge : 2 ^ 53 ≤ m := by
    by_contra hsmall
    rw [nearest_of_lt (Nat.lt_of_not_le hsmall)] at hm
    exact hne hm
  have hn : n = 2 ^ 53 := by
    have hle := two_pow_le_nearest hlarge
    omega
  have hodd : m = 2 ^ 53 + 1 := by
    by_contra hother
    have hnext : nearest (2 ^ 53 + 2) = 2 ^ 53 + 2 := by
      have hself := nearest_mul_two_pow (k := 2 ^ 52 + 1) (s := 1) (by norm_num)
      norm_num at hself ⊢
      exact hself
    have hmono := nearest_mono (show 2 ^ 53 + 2 ≤ m by omega)
    omega
  have hzeros : zeros m = 0 := by
    rw [hodd, zeros, dif_neg (by norm_num)]
  have hdistance : distance n n < distance m n := by
    unfold distance
    omega
  rw [hzeros]
  rcases Nat.eq_zero_or_pos (zeros n) with hzero | hpos
  · exact Or.inr ⟨hzero.symm, hdistance⟩
  · exact Or.inl hpos

end DialCache.ShortestDecimals
