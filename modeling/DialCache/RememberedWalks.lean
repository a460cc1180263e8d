import Mathlib.Data.List.Basic

/-!
# Walks that remember keys

A walk checks steps in order and ends at the first that fails. A step may have a key. A step whose
key was remembered before counts as passed together with the steps below it, which are left out,
and remember nothing. Which steps are met is a property of the steps alone, and a walk ends with
`true` exactly when all of them pass.
-/

namespace DialCache.RememberedWalks

variable {κ : Type}

/-- A step: whether it passes, its key, and how many of the steps behind it are below it. -/
structure Step (κ : Type) where
  passes : Bool
  key : Option κ
  below : ℕ

def walk [DecidableEq κ] (steps : List (Step κ)) (seen : List κ) : Bool :=
  match steps with
  | [] => true
  | step :: rest =>
    if step.passes then
      if ∃ key ∈ step.key, key ∈ seen then walk (rest.drop step.below) seen
      else walk rest (step.key.toList ++ seen)
    else false
termination_by steps.length
decreasing_by
  · simp only [List.length_drop, List.length_cons]
    omega
  · exact Nat.lt_succ_self _

section Positions

variable (steps : List (Step κ))

def keyAt (i : ℕ) : Option κ := steps[i]?.bind Step.key

/-- The step at `i` is below the one at `p`. -/
def Below (p i : ℕ) : Prop := ∃ step, steps[p]? = some step ∧ i ≤ p + step.below

/-- No step that this one is below has the key of a step met before. -/
def Met (i : ℕ) : Prop :=
  ∀ p, p < i → Below steps p i → ∀ q, q < p → Met q →
    ∀ key, keyAt steps q = some key → keyAt steps p ≠ some key
termination_by i

/-- The steps below a step are below every step that it is below. -/
def Nested : Prop :=
  ∀ p step, steps[p]? = some step → p + step.below < steps.length ∧
    ∀ q inner, p < q → q ≤ p + step.below → steps[q]? = some inner →
      q + inner.below ≤ p + step.below

end Positions

theorem nested_nil : Nested ([] : List (Step κ)) := by
  intro p step h
  cases h

theorem nested_append {front back : List (Step κ)} (hfront : Nested front) (hback : Nested back) :
    Nested (front ++ back) := by
  intro p step hp
  by_cases hlt : p < front.length
  · rw [List.getElem?_append_left hlt] at hp
    obtain ⟨hlength, hinner⟩ := hfront p step hp
    refine ⟨by rw [List.length_append]; omega, ?_⟩
    intro q inner hpq hq hinnerAt
    rw [List.getElem?_append_left (by omega)] at hinnerAt
    exact hinner q inner hpq hq hinnerAt
  · rw [List.getElem?_append_right (by omega)] at hp
    obtain ⟨hlength, hinner⟩ := hback _ step hp
    refine ⟨by rw [List.length_append]; omega, ?_⟩
    intro q inner hpq hq hinnerAt
    rw [List.getElem?_append_right (by omega)] at hinnerAt
    have hnested := hinner _ inner (by omega) (by omega) hinnerAt
    omega

theorem nested_flatMap {α : Type} {xs : List α} {f : α → List (Step κ)}
    (h : ∀ x ∈ xs, Nested (f x)) : Nested (xs.flatMap f) := by
  induction xs with
  | nil => exact nested_nil
  | cons x xs ih =>
    rw [List.forall_mem_cons] at h
    exact nested_append h.1 (ih h.2)

theorem nested_cons {below : List (Step κ)} (h : Nested below) (passes : Bool) (key : Option κ) :
    Nested (⟨passes, key, below.length⟩ :: below) := by
  intro p step hp
  cases p with
  | zero =>
    obtain rfl := Option.some.inj hp
    refine ⟨by simp only [List.length_cons]; omega, ?_⟩
    intro q inner hq _ hinner
    obtain ⟨q, rfl⟩ := Nat.exists_eq_add_of_lt hq
    have hlength := (h _ inner (by simpa using hinner)).1
    simp only at hlength ⊢
    omega
  | succ p =>
    obtain ⟨hlength, hinner⟩ := h p step hp
    refine ⟨by rw [List.length_cons]; omega, ?_⟩
    intro q inner hpq hq hinnerAt
    cases q with
    | zero => omega
    | succ q =>
      have hnested := hinner q inner (by omega) (by omega) hinnerAt
      omega

section Walk

variable {steps : List (Step κ)} {i : ℕ} {step : Step κ} {seen : List κ}

/-- The memory before a step holds the keys of the steps met before it. -/
def Holds (steps : List (Step κ)) (i : ℕ) (seen : List κ) : Prop :=
  ∀ key, key ∈ seen ↔ ∃ q, q < i ∧ Met steps q ∧ keyAt steps q = some key

theorem met_zero : Met steps 0 := by
  rw [Met]
  intro p hp
  omega

theorem Met.of_below {p q : ℕ} {key : κ} (h : Met steps i) (hp : p < i) (hbelow : Below steps p i)
    (hq : q < p) (hmet : Met steps q) (hkey : keyAt steps q = some key) :
    keyAt steps p ≠ some key := by
  rw [Met] at h
  exact h p hp hbelow q hq hmet key hkey

theorem keyAt_of_getElem? (hstep : steps[i]? = some step) : keyAt steps i = step.key := by
  rw [keyAt, hstep]
  rfl

/-- Behind a step whose key is new comes the next step. -/
theorem Met.succ (h : Met steps i) (hseen : Holds steps i seen) (hstep : steps[i]? = some step)
    (hnew : ¬ ∃ key ∈ step.key, key ∈ seen) : Met steps (i + 1) := by
  rw [Met]
  intro p hp hbelow q hq hmet key hkey
  rcases Nat.lt_succ_iff_lt_or_eq.mp hp with hlt | rfl
  · obtain ⟨outer, houter, hle⟩ := hbelow
    exact h.of_below hlt ⟨outer, houter, by omega⟩ hq hmet hkey
  · intro hknown
    rw [keyAt_of_getElem? hstep] at hknown
    exact hnew ⟨key, hknown, (hseen key).mpr ⟨q, hq, hmet, hkey⟩⟩

theorem Holds.succ (hseen : Holds steps i seen) (h : Met steps i) (hstep : steps[i]? = some step) :
    Holds steps (i + 1) (step.key.toList ++ seen) := by
  intro key
  rw [List.mem_append, Option.mem_toList, hseen key]
  constructor
  · rintro (hkey | ⟨q, hq, hmet, hkey⟩)
    · exact ⟨i, Nat.lt_succ_self i, h, (keyAt_of_getElem? hstep).trans hkey⟩
    · exact ⟨q, by omega, hmet, hkey⟩
  · rintro ⟨q, hq, hmet, hkey⟩
    rcases Nat.lt_succ_iff_lt_or_eq.mp hq with hlt | rfl
    · exact .inr ⟨q, hlt, hmet, hkey⟩
    · exact .inl ((keyAt_of_getElem? hstep).symm.trans hkey)

/-- Behind a step whose key is known come the steps that are not below it. -/
theorem Met.after (h : Met steps i) (hnested : Nested steps) (hstep : steps[i]? = some step) :
    Met steps (i + 1 + step.below) := by
  rw [Met]
  intro p hp hbelow q hq hmet key hkey
  obtain ⟨outer, houter, hle⟩ := hbelow
  rcases Nat.lt_trichotomy p i with hlt | rfl | hgt
  · exact h.of_below hlt ⟨outer, houter, by omega⟩ hq hmet hkey
  · obtain rfl := Option.some.inj (hstep.symm.trans houter)
    omega
  · have hinside := (hnested i step hstep).2 p outer hgt (by omega) houter
    omega

theorem not_met_of_known (hseen : Holds steps i seen) (hstep : steps[i]? = some step)
    (hknown : ∃ key ∈ step.key, key ∈ seen) {j : ℕ} (hij : i < j) (hj : j < i + 1 + step.below) :
    ¬ Met steps j := by
  intro hmet
  obtain ⟨key, hkey, hmem⟩ := hknown
  obtain ⟨q, hq, hqmet, hqkey⟩ := (hseen key).mp hmem
  exact hmet.of_below hij ⟨step, hstep, by omega⟩ hq hqmet hqkey
    ((keyAt_of_getElem? hstep).trans hkey)

theorem Holds.after (hseen : Holds steps i seen) (hstep : steps[i]? = some step)
    (hknown : ∃ key ∈ step.key, key ∈ seen) : Holds steps (i + 1 + step.below) seen := by
  intro key
  constructor
  · intro hmem
    obtain ⟨q, hq, hmet, hkey⟩ := (hseen key).mp hmem
    exact ⟨q, by omega, hmet, hkey⟩
  · rintro ⟨q, hq, hmet, hkey⟩
    rcases Nat.lt_trichotomy q i with hlt | rfl | hgt
    · exact (hseen key).mpr ⟨q, hlt, hmet, hkey⟩
    · obtain ⟨known, hmem, hseen⟩ := hknown
      rw [keyAt_of_getElem? hstep, hmem] at hkey
      rwa [← Option.some.inj hkey]
    · exact absurd hmet (not_met_of_known hseen hstep hknown hgt hq)

variable [DecidableEq κ]

/-- From a met step on, by induction on the steps that are left. -/
theorem walk_drop (hnested : Nested steps) (hmet : Met steps i) (hseen : Holds steps i seen) :
    walk (steps.drop i) seen = true ↔
      ∀ j step, i ≤ j → steps[j]? = some step → Met steps j → step.passes = true := by
  induction hn : steps.length - i using Nat.strongRecOn generalizing i seen with
  | ind n ih =>
    by_cases hlt : i < steps.length
    · obtain ⟨step, hstep, hdrop⟩ : ∃ step, steps[i]? = some step ∧
          steps.drop i = step :: steps.drop (i + 1) :=
        ⟨steps[i], List.getElem?_eq_getElem hlt, List.drop_eq_getElem_cons hlt⟩
      have hsplit : ∀ k, i < k → (∀ j, i < j → j < k → ¬ Met steps j) →
          ((∀ j other, i ≤ j → steps[j]? = some other → Met steps j → other.passes = true) ↔
            step.passes = true ∧
              ∀ j other, k ≤ j → steps[j]? = some other → Met steps j → other.passes = true) := by
        intro k hik hhidden
        constructor
        · intro h
          exact ⟨h i step (Nat.le_refl i) hstep hmet, fun j other hj => h j other (by omega)⟩
        · rintro ⟨hpasses, h⟩ j other hij hother hjmet
          rcases Nat.eq_or_lt_of_le hij with rfl | hij
          · rwa [← Option.some.inj (hstep.symm.trans hother)]
          · by_cases hjk : j < k
            · exact absurd hjmet (hhidden j hij hjk)
            · exact h j other (by omega) hother hjmet
      rw [hdrop, walk]
      by_cases hknown : ∃ key ∈ step.key, key ∈ seen
      · rw [hsplit _ (by omega) fun j => not_met_of_known hseen hstep hknown, if_pos hknown,
          List.drop_drop, ← ih _ (by omega) (hmet.after hnested hstep) (hseen.after hstep hknown) rfl]
        simp
      · rw [hsplit (i + 1) (by omega) (by omega), if_neg hknown,
          ← ih _ (by omega) (hmet.succ hseen hstep hknown) (hseen.succ hmet hstep) rfl]
        simp
    · rw [List.drop_eq_nil_of_le (Nat.not_lt.mp hlt), walk]
      refine iff_of_true rfl ?_
      intro j other hij hother
      have hj := (List.getElem?_eq_some_iff.mp hother).1
      omega

/-- A walk ends with `true` exactly when every step it meets passes. -/
theorem walk_iff (hnested : Nested steps) :
    walk steps [] = true ↔ ∀ i step, steps[i]? = some step → Met steps i → step.passes = true := by
  have hseen : Holds steps 0 [] := by
    intro key
    simp
  have hwalk := walk_drop hnested met_zero hseen
  rw [List.drop_zero] at hwalk
  rw [hwalk]
  constructor
  · intro h i step
    exact h i step (Nat.zero_le i)
  · intro h i step _
    exact h i step

end Walk

end DialCache.RememberedWalks
