import DialCache.Slabs

/-!
# Settle-once cells

A cell is settled at most once and observed by any number of waits. Until then it keeps the
waker of the latest poll of each wait in a slab, and a wait keeps the key of its slot.
Slots are freed and used again, and settlement drops the slab while the waits still hold
their keys. Every section under the lock of the cell is one step of the system.
-/

namespace DialCache.SettledCells

open Slabs

variable {T W : Type}

structure Cell (T W : Type) where
  value : Option T
  wakers : Slab W

inductive Poll (T : Type)
  | ready (value : T)
  | pending
  deriving Repr

namespace Cell

def new : Cell T W := ⟨none, Slab.empty⟩

/-- The section of `settle` under the lock: whether the value was stored, and the wakers
that are woken behind it. -/
def settle (cell : Cell T W) (value : T) : Bool × List W × Cell T W :=
  match cell.value with
  | some _ => (false, [], cell)
  | none => (true, cell.wakers.values, ⟨some value, Slab.empty⟩)

def peek (cell : Cell T W) : Option T := cell.value

/-- `poll` of a wait with its registration; nothing if it panics. -/
def poll (cell : Cell T W) (registration : Option ℕ) (waker : W) :
    Option (Poll T × Option ℕ × Cell T W) :=
  match cell.value, registration with
  | some value, registration => some (.ready value, registration, cell)
  | none, some slot =>
    (cell.wakers.replace slot waker).map fun wakers => (.pending, some slot, ⟨none, wakers⟩)
  | none, none =>
    (cell.wakers.insert waker).map fun inserted => (.pending, some inserted.1, ⟨none, inserted.2⟩)

/-- `drop` of a wait with its registration; nothing if it panics. -/
def dropWait (cell : Cell T W) (registration : Option ℕ) : Option (Option ℕ × Cell T W) :=
  match cell.value, registration with
  | some _, registration => some (registration, cell)
  | none, some slot => (cell.wakers.remove slot).map fun removed => (none, ⟨none, removed.2⟩)
  | none, none => some (none, cell)

variable {cell : Cell T W} {value : T}

theorem poll_settled (h : cell.value = some value) (registration : Option ℕ) (waker : W) :
    cell.poll registration waker = some (.ready value, registration, cell) := by
  unfold poll
  simp only [h]

theorem poll_registered (h : cell.value = none) (slot : ℕ) (waker : W) :
    cell.poll (some slot) waker = (cell.wakers.replace slot waker).map
      fun wakers => (.pending, some slot, ⟨none, wakers⟩) := by
  unfold poll
  simp only [h]

theorem poll_unregistered (h : cell.value = none) (waker : W) :
    cell.poll none waker = (cell.wakers.insert waker).map
      fun inserted => (.pending, some inserted.1, ⟨none, inserted.2⟩) := by
  unfold poll
  simp only [h]

theorem dropWait_settled (h : cell.value = some value) (registration : Option ℕ) :
    cell.dropWait registration = some (registration, cell) := by
  unfold dropWait
  simp only [h]

theorem dropWait_registered (h : cell.value = none) (slot : ℕ) :
    cell.dropWait (some slot) = (cell.wakers.remove slot).map
      fun removed => (none, ⟨none, removed.2⟩) := by
  unfold dropWait
  simp only [h]

theorem dropWait_unregistered (h : cell.value = none) :
    cell.dropWait none = some (none, cell) := by
  unfold dropWait
  simp only [h]

theorem settle_settled (h : cell.value = some value) (other : T) :
    cell.settle other = (false, [], cell) := by
  rw [settle, h]

theorem settle_unsettled (h : cell.value = none) (other : T) :
    cell.settle other = (true, cell.wakers.values, ⟨some other, Slab.empty⟩) := by
  rw [settle, h]

end Cell

structure Wait where
  registration : Option ℕ
  live : Bool
  deriving DecidableEq, Repr

/-- A cell, all waits that were created on it, and the wakers that its settlement has still
to wake and has woken. -/
structure System (T W : Type) where
  cell : Cell T W
  waits : List Wait
  waking : List W
  woken : List W

inductive Event (T W : Type)
  | wait
  | poll (wait : ℕ) (waker : W) (result : Poll T)
  | drop (wait : ℕ)
  | settle (value : T) (first : Bool)
  | peek (value : Option T)
  | wake (waker : W)

inductive Step : System T W → Event T W → System T W → Prop
  | wait (s : System T W) : Step s .wait { s with waits := s.waits ++ [⟨none, true⟩] }
  | poll {s : System T W} {i : ℕ} {registration next : Option ℕ} {waker : W} {result : Poll T}
      {cell : Cell T W} (live : s.waits[i]? = some ⟨registration, true⟩)
      (h : s.cell.poll registration waker = some (result, next, cell)) :
      Step s (.poll i waker result) { s with cell := cell, waits := s.waits.set i ⟨next, true⟩ }
  | drop {s : System T W} {i : ℕ} {registration next : Option ℕ} {cell : Cell T W}
      (live : s.waits[i]? = some ⟨registration, true⟩)
      (h : s.cell.dropWait registration = some (next, cell)) :
      Step s (.drop i) { s with cell := cell, waits := s.waits.set i ⟨next, false⟩ }
  | settle (s : System T W) (value : T) :
      Step s (.settle value (s.cell.settle value).1)
        { s with cell := (s.cell.settle value).2.2
                 waking := s.waking ++ (s.cell.settle value).2.1 }
  | peek (s : System T W) : Step s (.peek s.cell.peek) s
  | wake {s : System T W} {waker : W} {rest : List W} (h : s.waking = waker :: rest) :
      Step s (.wake waker) { s with waking := rest, woken := s.woken ++ [waker] }

/-- The systems that a history leads to, the latest event first. -/
inductive Run : List (Event T W) → System T W → Prop
  | start : Run [] ⟨Cell.new, [], [], []⟩
  | step {history : List (Event T W)} {s s' : System T W} {e : Event T W} (past : Run history s)
      (h : Step s e s') : Run (e :: history) s'

/-- The waker of the latest poll of a wait. -/
def latest : List (Event T W) → ℕ → Option W
  | [], _ => none
  | .poll j waker _ :: rest, i => if j = i then some waker else latest rest i
  | _ :: rest, i => latest rest i

/-! ### The registry of an unsettled cell -/

/-- Slots and waits: a live wait that was polled owns the slot with the waker of its latest
poll, a live wait that was not polled owns none, and all slots are owned by one wait. -/
structure Registry (history : List (Event T W)) (s : System T W) : Prop where
  lawful : s.cell.wakers.Lawful
  slots : ∀ (i : ℕ) (registration : Option ℕ), s.waits[i]? = some ⟨registration, true⟩ →
    (registration = none ∧ latest history i = none) ∨
      ∃ slot waker, registration = some slot ∧ latest history i = some waker ∧
        s.cell.wakers.get slot = some waker
  distinct : ∀ i j slot : ℕ, s.waits[i]? = some ⟨some slot, true⟩ →
    s.waits[j]? = some ⟨some slot, true⟩ → i = j
  owned : ∀ slot waker, s.cell.wakers.get slot = some waker →
    ∃ i : ℕ, s.waits[i]? = some ⟨some slot, true⟩
  unborn : ∀ i, s.waits.length ≤ i → latest history i = none

variable {s' : System T W} {e : Event T W}

section Steps

variable {history : List (Event T W)} {s : System T W}

theorem registry_start : Registry ([] : List (Event T W)) ⟨Cell.new, [], [], []⟩ where
  lawful := Slab.lawful_empty
  slots := by
    intro i registration h
    cases h
  distinct := by
    intro i j slot h
    cases h
  owned := by
    intro slot waker h
    cases h
  unborn := by
    intro i _
    rfl

theorem getElem?_set_live {waits : List Wait} {i : ℕ} {old new : Wait}
    (h : waits[i]? = some old) (j : ℕ) :
    (waits.set i new)[j]? = if j = i then some new else waits[j]? := by
  have hlt := (List.getElem?_eq_some_iff.mp h).1
  by_cases hj : j = i
  · subst hj
    rw [if_pos rfl, List.getElem?_set_self hlt]
  · rw [if_neg hj, List.getElem?_set_ne (Ne.symm hj)]

theorem Registry.wait (h : Registry history s) :
    Registry (.wait :: history) { s with waits := s.waits ++ [⟨none, true⟩] } := by
  have hget : ∀ (i : ℕ) (wait : Wait), (s.waits ++ [⟨none, true⟩])[i]? = some wait →
      s.waits[i]? = some wait ∨ (i = s.waits.length ∧ wait = ⟨none, true⟩) := by
    intro i wait hi
    rcases Nat.lt_trichotomy i s.waits.length with hlt | rfl | hgt
    · rw [List.getElem?_append_left hlt] at hi
      exact Or.inl hi
    · rw [List.getElem?_concat_length] at hi
      exact Or.inr ⟨rfl, (Option.some.inj hi).symm⟩
    · rw [List.getElem?_eq_none (by rw [List.length_append, List.length_singleton]; omega)] at hi
      cases hi
  have hslot : ∀ i slot : ℕ, (s.waits ++ [⟨none, true⟩])[i]? = some ⟨some slot, true⟩ →
      s.waits[i]? = some ⟨some slot, true⟩ := by
    intro i slot hi
    rcases hget i _ hi with hi | ⟨-, heq⟩
    · exact hi
    · cases heq
  refine ⟨h.lawful, ?_, ?_, ?_, ?_⟩
  · intro i registration hi
    rcases hget i _ hi with hi | ⟨rfl, heq⟩
    · exact h.slots i registration hi
    · cases heq
      exact Or.inl ⟨rfl, h.unborn _ (Nat.le_refl _)⟩
  · intro i j slot hi hj
    exact h.distinct i j slot (hslot i slot hi) (hslot j slot hj)
  · intro slot waker hget
    obtain ⟨i, hi⟩ := h.owned slot waker hget
    refine ⟨i, ?_⟩
    rw [List.getElem?_append_left (List.getElem?_eq_some_iff.mp hi).1]
    exact hi
  · intro i hi
    rw [List.length_append, List.length_singleton] at hi
    exact h.unborn i (by omega)

/-- A polled wait puts its waker into a slot that no other wait owns: its own one, or a new
one if it had none. -/
theorem Registry.occupy (h : Registry history s) {i slot : ℕ} {registration : Option ℕ} {waker : W}
    {result : Poll T} {wakers : Slab W} (hi : s.waits[i]? = some ⟨registration, true⟩)
    (hown : ∀ k, registration = some k → k = slot)
    (hother : ∀ j : ℕ, s.waits[j]? = some ⟨some slot, true⟩ → j = i) (hlawful : wakers.Lawful)
    (hget : ∀ k, wakers.get k = if k = slot then some waker else s.cell.wakers.get k) :
    Registry (.poll i waker result :: history)
      { s with cell := ⟨none, wakers⟩, waits := s.waits.set i ⟨some slot, true⟩ } := by
  refine ⟨hlawful, ?_, ?_, ?_, ?_⟩
  · intro j registration hj
    rw [getElem?_set_live hi] at hj
    rw [latest]
    split at hj
    · rename_i hji
      subst hji
      cases hj
      refine Or.inr ⟨slot, waker, rfl, if_pos rfl, ?_⟩
      rw [hget, if_pos rfl]
    · rename_i hji
      rw [if_neg (Ne.symm hji)]
      rcases h.slots j registration hj with hfree | ⟨slot', waker', hregistration, hlatest, hheld⟩
      · exact Or.inl hfree
      · subst hregistration
        have hne : slot' ≠ slot := by
          rintro rfl
          exact hji (hother j hj)
        refine Or.inr ⟨slot', waker', rfl, hlatest, ?_⟩
        rw [hget, if_neg hne, hheld]
  · intro j k slot' hj hk
    rw [getElem?_set_live hi] at hj hk
    split at hj
    · rename_i hji
      cases hj
      split at hk
      · rename_i hki
        rw [hji, hki]
      · rename_i hki
        exact absurd (hother k hk) hki
    · rename_i hji
      split at hk
      · cases hk
        exact absurd (hother j hj) hji
      · exact h.distinct j k slot' hj hk
  · intro k other hk
    rw [hget] at hk
    split at hk
    · rename_i heq
      refine ⟨i, ?_⟩
      rw [getElem?_set_live hi, if_pos rfl, heq]
    · rename_i hne
      obtain ⟨j, hj⟩ := h.owned k other hk
      refine ⟨j, ?_⟩
      rw [getElem?_set_live hi, if_neg]
      · exact hj
      · rintro rfl
        rw [hi] at hj
        cases hj
        exact hne (hown k rfl)
  · intro j hj
    rw [List.length_set] at hj
    rw [latest, if_neg]
    · exact h.unborn j hj
    · rintro rfl
      exact absurd (List.getElem?_eq_some_iff.mp hi).1 (Nat.not_lt.mpr hj)

/-- A dropped wait leaves the registry with its slot. -/
theorem Registry.unregister (h : Registry history s) {i : ℕ} {registration next : Option ℕ}
    {wakers : Slab W} (hi : s.waits[i]? = some ⟨registration, true⟩) (hlawful : wakers.Lawful)
    (hget : ∀ k, wakers.get k = if registration = some k then none else s.cell.wakers.get k) :
    Registry (.drop i :: history)
      { s with cell := ⟨none, wakers⟩, waits := s.waits.set i ⟨next, false⟩ } := by
  have hlive : ∀ (j : ℕ) (other : Option ℕ),
      (s.waits.set i ⟨next, false⟩)[j]? = some ⟨other, true⟩ →
      j ≠ i ∧ s.waits[j]? = some ⟨other, true⟩ := by
    intro j other hj
    rw [getElem?_set_live hi] at hj
    split at hj
    · cases hj
    · rename_i hji
      exact ⟨hji, hj⟩
  refine ⟨hlawful, ?_, ?_, ?_, ?_⟩
  · intro j other hj
    obtain ⟨hji, hj⟩ := hlive j other hj
    rcases h.slots j other hj with hfree | ⟨slot, waker, hother, hlatest, hheld⟩
    · exact Or.inl hfree
    · subst hother
      have hne : registration ≠ some slot := by
        rintro rfl
        exact hji (h.distinct j i slot hj hi)
      refine Or.inr ⟨slot, waker, rfl, hlatest, ?_⟩
      rw [hget, if_neg hne, hheld]
  · intro j k slot hj hk
    exact h.distinct j k slot (hlive j _ hj).2 (hlive k _ hk).2
  · intro slot waker hslot
    rw [hget] at hslot
    split at hslot
    · cases hslot
    · rename_i hne
      obtain ⟨j, hj⟩ := h.owned slot waker hslot
      refine ⟨j, ?_⟩
      rw [getElem?_set_live hi, if_neg]
      · exact hj
      · rintro rfl
        rw [hi] at hj
        cases hj
        exact hne rfl
  · intro j hj
    rw [List.length_set] at hj
    exact h.unborn j hj

/-! ### Polls and drops do not panic -/

variable {i : ℕ} {registration : Option ℕ}

/-- A poll before settlement stays pending and renews or makes the registration. -/
theorem Registry.poll (h : Registry history s) (hvalue : s.cell.value = none)
    (hi : s.waits[i]? = some ⟨registration, true⟩) (waker : W) :
    ∃ next cell, s.cell.poll registration waker = some (.pending, next, cell) ∧
      cell.value = none ∧ Registry (.poll i waker .pending :: history)
        { s with cell := cell, waits := s.waits.set i ⟨next, true⟩ } := by
  rcases h.slots i registration hi with ⟨rfl, -⟩ | ⟨slot, old, rfl, -, hheld⟩
  · obtain ⟨slot, wakers, hinsert, hlawful, hvacant, hget⟩ := Slab.insert_spec h.lawful waker
    have hother : ∀ j : ℕ, s.waits[j]? = some ⟨some slot, true⟩ → j = i := by
      intro j hj
      rcases h.slots j _ hj with ⟨hnone, -⟩ | ⟨slot', waker', hslot, -, hheld⟩
      · cases hnone
      · cases hslot
        rw [hvacant] at hheld
        cases hheld
    refine ⟨some slot, ⟨none, wakers⟩, ?_, rfl, h.occupy hi (by simp) hother hlawful hget⟩
    rw [Cell.poll_unregistered hvalue, hinsert]
    rfl
  · obtain ⟨wakers, hreplace, hlawful, hget⟩ := Slab.replace_spec h.lawful hheld waker
    have hown : ∀ k, some slot = some k → k = slot := fun k hk => (Option.some.inj hk).symm
    refine ⟨some slot, ⟨none, wakers⟩, ?_, rfl,
      h.occupy hi hown (fun j hj => h.distinct j i slot hj hi) hlawful hget⟩
    rw [Cell.poll_registered hvalue, hreplace]
    rfl

theorem Registry.drop (h : Registry history s) (hvalue : s.cell.value = none)
    (hi : s.waits[i]? = some ⟨registration, true⟩) :
    ∃ next cell, s.cell.dropWait registration = some (next, cell) ∧
      cell.value = none ∧ Registry (.drop i :: history)
        { s with cell := cell, waits := s.waits.set i ⟨next, false⟩ } := by
  rcases h.slots i registration hi with ⟨rfl, -⟩ | ⟨slot, old, rfl, -, hheld⟩
  · refine ⟨none, s.cell, Cell.dropWait_unregistered hvalue, hvalue, ?_⟩
    have hcell : s.cell = ⟨none, s.cell.wakers⟩ := by
      rw [← hvalue]
    have hsame : ∀ k, s.cell.wakers.get k =
        if (none : Option ℕ) = some k then none else s.cell.wakers.get k := by
      intro k
      rw [if_neg (Option.some_ne_none k).symm]
    have hkept : Registry (.drop i :: history) { s with
        cell := ⟨none, s.cell.wakers⟩, waits := s.waits.set i ⟨none, false⟩ } :=
      h.unregister hi h.lawful hsame
    rwa [← hcell] at hkept
  · obtain ⟨wakers, hremove, hlawful, hget⟩ := Slab.remove_spec h.lawful hheld
    refine ⟨none, ⟨none, wakers⟩, ?_, rfl, h.unregister hi hlawful ?_⟩
    · rw [Cell.dropWait_registered hvalue, hremove]
      rfl
    · intro k
      rw [hget]
      simp only [Option.some.injEq, eq_comm]

/-! ### A step of the system -/

/-- A cell that is unsettled after a step has kept its registry. -/
theorem registry_step (h : Registry history s) (hvalue : s.cell.value = none)
    (hstep : Step s e s') :
    s'.cell.value = none → Registry (e :: history) s' := by
  intro hvalue'
  cases hstep with
  | wait => exact h.wait
  | poll live hpoll =>
    obtain ⟨next, cell, hdone, -, hregistry⟩ := h.poll hvalue live _
    rw [hdone] at hpoll
    cases hpoll
    exact hregistry
  | drop live hdrop =>
    obtain ⟨next, cell, hdone, -, hregistry⟩ := h.drop hvalue live
    rw [hdone] at hdrop
    cases hdrop
    exact hregistry
  | settle value =>
    rw [Cell.settle_unsettled hvalue] at hvalue'
    cases hvalue'
  | peek | wake _ => exact { h with }

/-- The value of a settled cell and its empty slab do not change. -/
theorem value_step {value : T} (hvalue : s.cell.value = some value) (hstep : Step s e s') :
    s'.cell = s.cell := by
  cases hstep with
  | wait => rfl
  | poll live hpoll =>
    rw [Cell.poll_settled hvalue] at hpoll
    cases hpoll
    rfl
  | drop live hdrop =>
    rw [Cell.dropWait_settled hvalue] at hdrop
    cases hdrop
    rfl
  | settle other =>
    change (s.cell.settle other).2.2 = s.cell
    rw [Cell.settle_settled hvalue]
  | peek => rfl
  | wake _ => rfl

/-- Only a settlement gives a cell its value, and only then there is something to wake. -/
theorem value_none_step (h : Registry history s) (hvalue : s.cell.value = none)
    (hwaking : s.waking = []) (hstep : Step s e s') :
    s'.woken = s.woken ∧
      ((∃ value, e = .settle value true ∧ s'.cell.value = some value ∧
          s'.waking = s.cell.wakers.values) ∨
        (s'.cell.value = none ∧ s'.waking = [] ∧ ∀ value first, e ≠ .settle value first)) := by
  cases hstep with
  | wait => exact ⟨rfl, Or.inr ⟨hvalue, hwaking, fun _ _ h => by cases h⟩⟩
  | poll live hpoll =>
    obtain ⟨next, cell, hdone, hnone, -⟩ := h.poll hvalue live _
    rw [hdone] at hpoll
    cases hpoll
    exact ⟨rfl, Or.inr ⟨hnone, hwaking, fun _ _ h => by cases h⟩⟩
  | drop live hdrop =>
    obtain ⟨next, cell, hdone, hnone, -⟩ := h.drop hvalue live
    rw [hdone] at hdrop
    cases hdrop
    exact ⟨rfl, Or.inr ⟨hnone, hwaking, fun _ _ h => by cases h⟩⟩
  | settle value =>
    rw [Cell.settle_unsettled hvalue, hwaking]
    exact ⟨rfl, Or.inl ⟨value, rfl, rfl, rfl⟩⟩
  | peek => exact ⟨rfl, Or.inr ⟨hvalue, hwaking, fun _ _ h => by cases h⟩⟩
  | wake hpending =>
    rw [hwaking] at hpending
    cases hpending

/-- After settlement a settlement is refused, and wakers only move to the woken ones. -/
theorem settled_step {value : T} (hvalue : s.cell.value = some value) (hstep : Step s e s') :
    s'.woken ++ s'.waking = s.woken ++ s.waking ∧
      ∀ other first, e = .settle other first → first = false := by
  cases hstep with
  | wait | poll _ _ | drop _ _ => exact ⟨rfl, fun _ _ h => by cases h⟩
  | settle other =>
    rw [Cell.settle_settled hvalue]
    refine ⟨by rw [List.append_nil], ?_⟩
    intro _ first h
    cases h
    rfl
  | peek => exact ⟨rfl, fun _ _ h => by cases h⟩
  | wake hpending =>
    refine ⟨?_, fun _ _ h => by cases h⟩
    change (s.woken ++ [_]) ++ _ = _
    rw [hpending, List.append_assoc, List.singleton_append]

/-! ### Wake-ups -/

/-- A live wait that has registered. -/
def Registered (s : System T W) (i : ℕ) : Prop := ∃ slot, s.waits[i]? = some ⟨some slot, true⟩

/-- The wakers are the latest ones of the waits, one for each registered wait. -/
def WakesRegistered (history : List (Event T W)) (s : System T W) (wakers : List W) : Prop :=
  ∃ ids : List ℕ, ids.Nodup ∧ (∀ i, i ∈ ids ↔ Registered s i) ∧
    wakers.map some = ids.map (latest history)

/-- The owners of some slots, with their wakers. -/
theorem Registry.owners (h : Registry history s) {slots : List ℕ} (hslots : slots.Nodup) :
    ∃ ids : List ℕ, ids.Nodup ∧
      (∀ i : ℕ, i ∈ ids ↔ ∃ slot ∈ slots, s.waits[i]? = some ⟨some slot, true⟩) ∧
      (slots.filterMap s.cell.wakers.get).map some = ids.map (latest history) := by
  induction slots with
  | nil => exact ⟨[], List.nodup_nil, by simp, rfl⟩
  | cons slot slots ih =>
    rw [List.nodup_cons] at hslots
    obtain ⟨ids, hnodup, hmem, hwakers⟩ := ih hslots.2
    cases hget : s.cell.wakers.get slot with
    | none =>
      refine ⟨ids, hnodup, ?_, ?_⟩
      · intro i
        rw [hmem, List.exists_mem_cons_iff]
        constructor
        · exact Or.inr
        · rintro (hi | hi)
          · rcases h.slots i _ hi with ⟨hnone, -⟩ | ⟨slot', waker, hslot, -, hheld⟩
            · cases hnone
            · cases hslot
              rw [hget] at hheld
              cases hheld
          · exact hi
      · rw [List.filterMap_cons_none hget]
        exact hwakers
    | some waker =>
      obtain ⟨i, hi⟩ := h.owned slot waker hget
      refine ⟨i :: ids, ?_, ?_, ?_⟩
      · rw [List.nodup_cons]
        refine ⟨?_, hnodup⟩
        rw [hmem]
        rintro ⟨slot', hslot', hi'⟩
        rw [hi] at hi'
        cases hi'
        exact hslots.1 hslot'
      · intro j
        rw [List.mem_cons, hmem, List.exists_mem_cons_iff]
        constructor
        · rintro (rfl | hj)
          · exact Or.inl hi
          · exact Or.inr hj
        · rintro (hj | hj)
          · exact Or.inl (h.distinct j i slot hj hi)
          · exact Or.inr hj
      · rcases h.slots i _ hi with ⟨hnone, -⟩ | ⟨slot', waker', hslot, hlatest, hheld⟩
        · cases hnone
        · cases hslot
          rw [hget] at hheld
          cases hheld
          rw [List.filterMap_cons_some hget, List.map_cons, List.map_cons, hwakers, hlatest]

theorem Registry.wakes (h : Registry history s) :
    WakesRegistered history s s.cell.wakers.values := by
  obtain ⟨ids, hnodup, hmem, hwakers⟩ := h.owners (List.nodup_range (n := s.cell.wakers.entries.length))
  refine ⟨ids, hnodup, ?_, hwakers⟩
  intro i
  rw [hmem]
  constructor
  · rintro ⟨slot, -, hi⟩
    exact ⟨slot, hi⟩
  · rintro ⟨slot, hi⟩
    rcases h.slots i _ hi with ⟨hnone, -⟩ | ⟨slot', waker, hslot, -, hheld⟩
    · cases hnone
    · cases hslot
      exact ⟨slot, List.mem_range.mpr (Slab.lt_of_get hheld), hi⟩

end Steps

/-! ### Runs -/

section Runs

variable {history : List (Event T W)} {s : System T W}

/-- What holds along a run: before settlement the registry and nothing to wake; afterwards
one settlement that was the first, whose registered waits are the ones that are woken. -/
inductive Settlement : List (Event T W) → System T W → Prop
  | unsettled {history : List (Event T W)} {s : System T W} (value : s.cell.value = none)
      (registry : Registry history s) (waking : s.waking = []) (woken : s.woken = [])
      (none : ∀ v b, .settle v b ∉ history) : Settlement history s
  | settled {later earlier : List (Event T W)} {s past : System T W} {v : T}
      (value : s.cell.value = some v) (run : Run earlier past)
      (before : past.cell.value = none) (none : ∀ w b, .settle w b ∉ earlier)
      (refused : ∀ w b, .settle w b ∈ later → b = false)
      (wakes : WakesRegistered earlier past (s.woken ++ s.waking)) :
      Settlement (later ++ .settle v true :: earlier) s

theorem settlement_of_run (h : Run history s) : Settlement history s := by
  induction h with
  | start => exact .unsettled rfl registry_start rfl rfl (by simp)
  | @step history s s' e past hstep ih =>
    cases ih with
    | unsettled value registry waking woken none =>
      obtain ⟨hwoken, ⟨v, rfl, hvalue', hwaking'⟩ | ⟨hvalue', hwaking', hother⟩⟩ :=
        value_none_step registry value waking hstep
      · have hwakes : WakesRegistered history s (s'.woken ++ s'.waking) := by
          rw [hwoken, woken, hwaking', List.nil_append]
          exact registry.wakes
        have hsettled : Settlement ([] ++ .settle v true :: history) s' :=
          .settled hvalue' past value none (by simp) hwakes
        exact hsettled
      · refine .unsettled hvalue' (registry_step registry value hstep hvalue') hwaking'
          (hwoken.trans woken) ?_
        intro v b hmem
        rcases List.mem_cons.mp hmem with heq | hmem
        · exact hother v b heq.symm
        · exact none v b hmem
    | @settled later earlier _ first v value run before none refused wakes =>
      obtain ⟨hwakers, hrefused⟩ := settled_step value hstep
      have hcell := value_step value hstep
      rw [← List.cons_append]
      refine .settled (by rw [hcell]; exact value) run before none ?_ (by rw [hwakers]; exact wakes)
      intro w b hmem
      rcases List.mem_cons.mp hmem with heq | hmem
      · exact hrefused w b heq.symm
      · exact refused w b hmem

/-- A cell is unsettled as long as nobody has settled it. -/
theorem value_eq_none_iff (h : Run history s) :
    s.cell.value = none ↔ ∀ v b, .settle v b ∉ history := by
  cases settlement_of_run h with
  | unsettled value registry waking woken none => exact iff_of_true value none
  | settled value run before none refused wakes =>
    refine iff_of_false ?_ ?_
    · rw [value]
      exact Option.some_ne_none _
    · intro hnone
      exact hnone _ true (List.mem_append_right _ List.mem_cons_self)

/-- The step that an event of the history was. -/
theorem step_of_split {later earlier : List (Event T W)} (h : Run (later ++ e :: earlier) s) :
    ∃ before after, Run earlier before ∧ Step before e after := by
  induction later generalizing s with
  | nil =>
    cases h with
    | step past hstep => exact ⟨_, _, past, hstep⟩
  | cons e' later ih =>
    cases h with
    | step past _ => exact ih past

/-- A settlement is accepted exactly when there was none before it. -/
theorem first_settlement {later earlier : List (Event T W)} {v : T} {b : Bool}
    (h : Run (later ++ .settle v b :: earlier) s) :
    b = true ↔ ∀ v b, .settle v b ∉ earlier := by
  obtain ⟨before, after, past, hstep⟩ := step_of_split h
  rw [← value_eq_none_iff past]
  cases hstep with
  | settle =>
    cases hvalue : before.cell.value with
    | none => rw [Cell.settle_unsettled hvalue, eq_self, eq_self]
    | some w =>
      rw [Cell.settle_settled hvalue]
      exact iff_of_false Bool.false_ne_true (Option.some_ne_none w)

/-- The wakers of a settlement are woken one after the other, whatever happens meanwhile. -/
theorem Run.drain (h : Run history s) :
    Run ((s.waking.map .wake).reverse ++ history)
      { s with waking := [], woken := s.woken ++ s.waking } := by
  generalize hwaking : s.waking = waking
  induction waking generalizing history s with
  | nil =>
    obtain ⟨cell, waits, _, woken⟩ := s
    cases hwaking
    rw [List.append_nil]
    exact h
  | cons waker rest ih =>
    have hdrained := ih (h.step (.wake hwaking)) rfl
    rw [List.append_assoc, List.singleton_append] at hdrained
    rw [List.map_cons, List.reverse_cons, List.append_assoc, List.singleton_append]
    exact hdrained

end Runs

/-! ### Detached work -/

/-- The message for work whose task was dropped. -/
def droppedMessage : String :=
  "DialCache detached work was dropped before it settled (runtime shut down)"

/-- How detached work ends. -/
inductive Ending (T : Type)
  | completed (value : T)
  | panicked (message : String)
  | dropped

def Ending.value (onPanic : String → T) : Ending T → T
  | .completed value => value
  | .panicked message => onPanic message
  | .dropped => onPanic droppedMessage

/-- How far the task is, with the value it settles. -/
inductive Phase (T : Type)
  | running
  | settling (ending : Ending T) (value : T)
  | ended (ending : Ending T) (value : T)

/-- The cell of detached work, the guard in its task and how far the task is. -/
structure Pending (T W : Type) where
  system : System T W
  guard : Option (String → T)
  phase : Phase T

/-- The runs of the cell that `start_pending` returns: it is polled, peeked and dropped by
anyone, and settled by the task only, which takes the guard before. -/
inductive PendingRun (onPanic : String → T) : List (Event T W) → Pending T W → Prop
  | start : PendingRun onPanic [] ⟨⟨Cell.new, [], [], []⟩, some onPanic, .running⟩
  | observe {history : List (Event T W)} {p : Pending T W} {e : Event T W} {s : System T W}
      (past : PendingRun onPanic history p) (h : Step p.system e s)
      (other : ∀ v b, e ≠ .settle v b) : PendingRun onPanic (e :: history) { p with system := s }
  | complete {history : List (Event T W)} {p : Pending T W} (past : PendingRun onPanic history p)
      (running : p.phase = .running) (value : T) :
      PendingRun onPanic history { p with guard := none, phase := .settling (.completed value) value }
  | panic {history : List (Event T W)} {p : Pending T W} {armed : String → T}
      (past : PendingRun onPanic history p) (running : p.phase = .running)
      (guard : p.guard = some armed) (message : String) :
      PendingRun onPanic history
        { p with guard := none, phase := .settling (.panicked message) (armed message) }
  | drop {history : List (Event T W)} {p : Pending T W} {armed : String → T}
      (past : PendingRun onPanic history p) (running : p.phase = .running)
      (guard : p.guard = some armed) :
      PendingRun onPanic history
        { p with guard := none, phase := .settling .dropped (armed droppedMessage) }
  | settle {history : List (Event T W)} {p : Pending T W} {ending : Ending T} {value : T} {b : Bool}
      {s : System T W} (past : PendingRun onPanic history p)
      (settling : p.phase = .settling ending value) (h : Step p.system (.settle value b) s) :
      PendingRun onPanic (.settle value b :: history)
        { p with system := s, phase := .ended ending value }

/-- Detached work settles its cell when it ends and at no other time: the guard is armed
while the work runs and can end in each way, the value is that of the ending, and a task that
has ended its work can settle the cell. -/
structure PendingLaw (onPanic : String → T) (history : List (Event T W)) (p : Pending T W) :
    Prop where
  run : Run history p.system
  running : p.phase = .running → (p.guard = some onPanic ∧ ∀ v b, .settle v b ∉ history) ∧
    ∀ ending : Ending T, PendingRun onPanic history
      { p with guard := none, phase := .settling ending (ending.value onPanic) }
  settling : ∀ ending value, p.phase = .settling ending value →
    (value = ending.value onPanic ∧ ∀ v b, .settle v b ∉ history) ∧
      ∃ s, s.cell.value = some value ∧ PendingRun onPanic (.settle value true :: history)
        { p with system := s, phase := .ended ending value }
  ended : ∀ ending value, p.phase = .ended ending value → value = ending.value onPanic ∧
    p.system.cell.value = some value ∧ ∃ later earlier,
      history = later ++ .settle value true :: earlier ∧ (∀ v b, .settle v b ∉ later) ∧
        ∀ v b, .settle v b ∉ earlier

section Detached

variable {onPanic : String → T} {history : List (Event T W)} {p : Pending T W}

/-- Before its first settlement the cell of a run takes the value that is settled. -/
theorem settle_first {s : System T W} {value : T} {b : Bool} (h : Run history s)
    (hnone : ∀ v b, .settle v b ∉ history) (hstep : Step s (.settle value b) s') :
    b = true ∧ s'.cell.value = some value := by
  have hvalue := (value_eq_none_iff h).mpr hnone
  cases hstep with
  | settle =>
    rw [Cell.settle_unsettled hvalue]
    exact ⟨rfl, rfl⟩

theorem notMem_cons (he : ∀ v b, e ≠ .settle v b) (h : ∀ v b, .settle v b ∉ history) :
    ∀ v b, .settle v b ∉ e :: history := by
  intro v b hmem
  rcases List.mem_cons.mp hmem with heq | hmem
  · exact he v b heq.symm
  · exact h v b hmem

theorem PendingRun.run (h : PendingRun onPanic history p) : Run history p.system := by
  induction h with
  | start => exact .start
  | observe _ hstep _ ih => exact ih.step hstep
  | complete _ _ _ ih => exact ih
  | panic _ _ _ _ ih => exact ih
  | drop _ _ _ ih => exact ih
  | settle _ _ hstep ih => exact ih.step hstep

theorem PendingRun.unsettled (h : PendingRun onPanic history p) :
    (p.phase = .running → p.guard = some onPanic ∧ ∀ v b, .settle v b ∉ history) ∧
      ∀ ending value, p.phase = .settling ending value →
        value = ending.value onPanic ∧ ∀ v b, .settle v b ∉ history := by
  induction h with
  | start => exact ⟨fun _ => ⟨rfl, by simp⟩, by simp⟩
  | observe _ _ other ih =>
    refine ⟨fun hphase => ?_, fun ending value hphase => ?_⟩
    · exact ⟨(ih.1 hphase).1, notMem_cons other (ih.1 hphase).2⟩
    · exact ⟨(ih.2 _ _ hphase).1, notMem_cons other (ih.2 _ _ hphase).2⟩
  | complete _ running value ih =>
    refine ⟨by simp, fun ending value' hphase => ?_⟩
    cases hphase
    exact ⟨rfl, (ih.1 running).2⟩
  | panic _ running guard message ih | drop _ running guard ih =>
    obtain ⟨hguard, hnone⟩ := ih.1 running
    cases guard.symm.trans hguard
    refine ⟨by simp, fun ending value' hphase => ?_⟩
    cases hphase
    exact ⟨rfl, hnone⟩
  | settle _ _ _ _ => exact ⟨by simp, by simp⟩

theorem PendingRun.settled (h : PendingRun onPanic history p) : ∀ ending value,
    p.phase = .ended ending value → value = ending.value onPanic ∧
      p.system.cell.value = some value ∧ ∃ later earlier,
        history = later ++ .settle value true :: earlier ∧ (∀ v b, .settle v b ∉ later) ∧
          ∀ v b, .settle v b ∉ earlier := by
  induction h with
  | @observe history p e s _ hstep other ih =>
    intro ending value hphase
    obtain ⟨hvalue, hcell, later, earlier, rfl, hlater, hearlier⟩ := ih ending value hphase
    refine ⟨hvalue, ?_, e :: later, earlier, rfl, notMem_cons other hlater, hearlier⟩
    change s.cell.value = _
    rw [value_step hcell hstep, hcell]
  | @settle history p ending value b s past settling hstep ih =>
    obtain ⟨hvalue, hnone⟩ := past.unsettled.2 ending value settling
    obtain ⟨rfl, hcell⟩ := settle_first past.run hnone hstep
    intro ending' value' hphase
    cases hphase
    exact ⟨hvalue, hcell, [], history, rfl, by simp, hnone⟩
  | _ => simp

theorem pendingLaw_of_run (h : PendingRun onPanic history p) : PendingLaw onPanic history p where
  run := h.run
  running hphase := by
    refine ⟨h.unsettled.1 hphase, fun ending => ?_⟩
    cases ending with
    | completed value => exact .complete h hphase value
    | panicked message => exact .panic h hphase (h.unsettled.1 hphase).1 message
    | dropped => exact .drop h hphase (h.unsettled.1 hphase).1
  settling ending value hphase := by
    have hvalue := (value_eq_none_iff h.run).mpr (h.unsettled.2 ending value hphase).2
    have hstep := Step.settle p.system value
    rw [Cell.settle_unsettled hvalue] at hstep
    exact ⟨h.unsettled.2 ending value hphase, _, rfl, .settle h hphase hstep⟩
  ended := h.settled

end Detached

/-! ### The law of the cell -/

/-- What holds of a cell after a history. The wakers left to wake can all be woken. -/
structure CellLaw (history : List (Event T W)) (s : System T W) : Prop where
  firstWins : ∀ later earlier v b, history = later ++ .settle v b :: earlier →
    (b = true ↔ ∀ w c, .settle w c ∉ earlier)
  registry : s.cell.value = none → Registry history s ∧ s.woken = [] ∧ s.waking = []
  noPanic : ∀ (i : ℕ) (registration : Option ℕ), s.waits[i]? = some ⟨registration, true⟩ →
    (∀ waker, (s.cell.poll registration waker).isSome = true) ∧
      (s.cell.dropWait registration).isSome = true
  wakes : ∀ v, s.cell.value = some v → ∃ later earlier past,
    history = later ++ .settle v true :: earlier ∧ Run earlier past ∧
      WakesRegistered earlier past (s.woken ++ s.waking)
  drains : Run ((s.waking.map .wake).reverse ++ history)
    { s with waking := [], woken := s.woken ++ s.waking }
  afterwards : ∀ v, s.cell.value = some v →
    (∀ registration waker, s.cell.poll registration waker = some (.ready v, registration, s.cell)) ∧
      (∀ registration, s.cell.dropWait registration = some (registration, s.cell)) ∧
      ∀ w, s.cell.settle w = (false, [], s.cell)

theorem cellLaw_of_run {history : List (Event T W)} {s : System T W} (h : Run history s) :
    CellLaw history s := by
  have hafter := fun v (hvalue : s.cell.value = some v) => And.intro (Cell.poll_settled hvalue)
    (And.intro (Cell.dropWait_settled hvalue) (Cell.settle_settled hvalue))
  have hfirst : ∀ later earlier v b, history = later ++ .settle v b :: earlier →
      (b = true ↔ ∀ w c, .settle w c ∉ earlier) := by
    rintro later earlier v b rfl
    exact first_settlement h
  cases settlement_of_run h with
  | unsettled value registry waking woken none =>
    refine ⟨hfirst, fun _ => ⟨registry, woken, waking⟩, ?_, ?_, h.drain, hafter⟩
    · intro i registration hi
      obtain ⟨next, cell, hdrop, -⟩ := registry.drop value hi
      refine ⟨?_, by rw [hdrop]; rfl⟩
      intro waker
      obtain ⟨next, cell, hpoll, -⟩ := registry.poll value hi waker
      rw [hpoll]
      rfl
    · intro v hvalue
      rw [value] at hvalue
      cases hvalue
  | @settled later earlier _ past v value run before none refused wakes =>
    refine ⟨hfirst, ?_, ?_, ?_, h.drain, hafter⟩
    · intro hvalue
      rw [value] at hvalue
      cases hvalue
    · intro i registration hi
      refine ⟨?_, by rw [Cell.dropWait_settled value]; rfl⟩
      intro waker
      rw [Cell.poll_settled value]
      rfl
    · intro w hvalue
      rw [value] at hvalue
      cases hvalue
      exact ⟨later, earlier, past, rfl, run, wakes⟩

end DialCache.SettledCells
