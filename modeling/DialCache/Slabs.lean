import Mathlib.Data.List.Basic

/-!
# Slabs

A slab keeps values under keys that it chooses. Vacant slots form a list: each holds the
key of the next one, the slab holds the first, and the list ends at the first key that was
never used. `Lawful` states that; then an insertion always finds a vacant slot.
-/

namespace DialCache.Slabs

inductive Slot (α : Type*)
  | occupied (value : α)
  | vacant (next : ℕ)
  deriving Repr

def Slot.value {α : Type*} : Slot α → Option α
  | .occupied value => some value
  | .vacant _ => none

structure Slab (α : Type*) where
  entries : List (Slot α)
  next : ℕ
  deriving Repr

variable {α : Type*}

namespace Slab

def empty : Slab α := ⟨[], 0⟩

def get (s : Slab α) (key : ℕ) : Option α := s.entries[key]?.bind Slot.value

/-- The values in the order of their keys. -/
def values (s : Slab α) : List α := (List.range s.entries.length).filterMap s.get

/-- The key of a new value; nothing if the first vacant slot is not vacant. -/
def insert (s : Slab α) (value : α) : Option (ℕ × Slab α) :=
  if s.next = s.entries.length then
    some (s.next, ⟨s.entries ++ [.occupied value], s.next + 1⟩)
  else
    match s.entries[s.next]? with
    | some (.vacant next) => some (s.next, ⟨s.entries.set s.next (.occupied value), next⟩)
    | _ => none

/-- Another value in an occupied slot. -/
def replace (s : Slab α) (key : ℕ) (value : α) : Option (Slab α) :=
  (s.get key).map fun _ => ⟨s.entries.set key (.occupied value), s.next⟩

def remove (s : Slab α) (key : ℕ) : Option (α × Slab α) :=
  (s.get key).map fun value => (value, ⟨s.entries.set key (.vacant s.next), key⟩)

/-! ### The list of vacant slots -/

/-- The vacant slots from a key on. -/
inductive FreeFrom (entries : List (Slot α)) : ℕ → List ℕ → Prop
  | done : FreeFrom entries entries.length []
  | vacant {key next : ℕ} {rest : List ℕ} (slot : entries[key]? = some (.vacant next))
      (tail : FreeFrom entries next rest) (fresh : key ∉ rest) : FreeFrom entries key (key :: rest)

def Lawful (s : Slab α) : Prop := ∃ free, FreeFrom s.entries s.next free

theorem lawful_empty : Lawful (empty : Slab α) := ⟨[], FreeFrom.done⟩

variable {s : Slab α} {key : ℕ} {value : α}

theorem get_eq_some_iff : s.get key = some value ↔ s.entries[key]? = some (.occupied value) := by
  rw [get, Option.bind_eq_some_iff]
  constructor
  · rintro ⟨slot, hslot, hvalue⟩
    cases slot with
    | occupied v =>
      cases hvalue
      exact hslot
    | vacant next => cases hvalue
  · intro h
    exact ⟨_, h, rfl⟩

variable {entries : List (Slot α)} {first k : ℕ} {free : List ℕ}

theorem FreeFrom.vacant_of_mem (h : FreeFrom entries first free) (hk : k ∈ free) :
    ∃ next, entries[k]? = some (.vacant next) := by
  induction h with
  | done => cases hk
  | vacant slot _ _ ih =>
    rcases List.mem_cons.mp hk with rfl | hk
    · exact ⟨_, slot⟩
    · exact ih hk

theorem FreeFrom.notMem {value : α} (h : FreeFrom entries first free)
    (hk : entries[k]? = some (.occupied value)) : k ∉ free := by
  intro hmem
  obtain ⟨next, hnext⟩ := h.vacant_of_mem hmem
  rw [hnext] at hk
  cases hk

theorem FreeFrom.vacant_of_ne (h : FreeFrom entries first free) (hne : first ≠ entries.length) :
    ∃ next rest, entries[first]? = some (.vacant next) ∧ FreeFrom entries next rest ∧
      first ∉ rest := by
  cases h with
  | done => exact absurd rfl hne
  | vacant slot tail fresh => exact ⟨_, _, slot, tail, fresh⟩

/-- A change at a slot that is not in the list leaves the list as it is. -/
theorem FreeFrom.set (h : FreeFrom entries first free) (hk : k ∉ free) (slot : Slot α) :
    FreeFrom (entries.set k slot) first free := by
  induction h with
  | done =>
    have hdone : FreeFrom (entries.set k slot) _ [] := FreeFrom.done
    rwa [List.length_set] at hdone
  | @vacant key next rest hslot _ hfresh ih =>
    rw [List.mem_cons, not_or] at hk
    refine FreeFrom.vacant ?_ (ih hk.2) hfresh
    rw [List.getElem?_set_ne (fun h => hk.1 h), hslot]

/-! ### The operations -/

theorem get_set {slot : Slot α} {next : ℕ} (h : key < s.entries.length) (k : ℕ) :
    (⟨s.entries.set key slot, next⟩ : Slab α).get k =
      if k = key then slot.value else s.get k := by
  by_cases hk : k = key
  · subst hk
    rw [if_pos rfl, get, List.getElem?_set_self h]
    rfl
  · rw [if_neg hk, get, get, List.getElem?_set_ne (Ne.symm hk)]

theorem lt_of_get (h : s.get key = some value) : key < s.entries.length :=
  (List.getElem?_eq_some_iff.mp (get_eq_some_iff.mp h)).1

/-- An insertion succeeds at a vacant key, and changes no other. -/
theorem insert_spec (h : s.Lawful) (value : α) : ∃ key s', s.insert value = some (key, s') ∧
    s'.Lawful ∧ s.get key = none ∧ ∀ k, s'.get k = if k = key then some value else s.get k := by
  obtain ⟨free, hfree⟩ := h
  unfold insert
  by_cases hend : s.next = s.entries.length
  · rw [if_pos hend]
    have hnone : s.get s.next = none := by
      rw [get, hend, List.getElem?_eq_none (Nat.le_refl _)]
      rfl
    refine ⟨s.next, _, rfl, ⟨[], ?_⟩, hnone, ?_⟩
    · have hdone : FreeFrom (s.entries ++ [.occupied value]) _ [] := FreeFrom.done
      rw [List.length_append, List.length_singleton, ← hend] at hdone
      exact hdone
    · intro k
      by_cases hk : k = s.next
      · subst hk
        rw [if_pos rfl, get_eq_some_iff, hend, List.getElem?_concat_length]
      · rw [if_neg hk, get, get]
        by_cases hlt : k < s.entries.length
        · rw [List.getElem?_append_left hlt]
        · rw [List.getElem?_eq_none (by rw [List.length_append, List.length_singleton]; omega),
            List.getElem?_eq_none (by omega)]
  · obtain ⟨next, rest, slot, tail, fresh⟩ := hfree.vacant_of_ne hend
    have hlt : s.next < s.entries.length := (List.getElem?_eq_some_iff.mp slot).1
    have hnone : s.get s.next = none := by
      rw [get, slot]
      rfl
    rw [if_neg hend, slot]
    exact ⟨s.next, _, rfl, ⟨rest, tail.set fresh _⟩, hnone, get_set hlt⟩

/-- A replacement in an occupied slot succeeds and changes this slot only. -/
theorem replace_spec {old : α} (hs : s.Lawful) (h : s.get key = some old) (value : α) :
    ∃ s', s.replace key value = some s' ∧ s'.Lawful ∧
      ∀ k, s'.get k = if k = key then some value else s.get k := by
  obtain ⟨free, hfree⟩ := hs
  have hfresh := hfree.notMem (get_eq_some_iff.mp h)
  rw [replace, h]
  exact ⟨_, rfl, ⟨free, hfree.set hfresh _⟩, get_set (lt_of_get h)⟩

/-- A removal from an occupied slot succeeds and frees this slot only. -/
theorem remove_spec (hs : s.Lawful) (h : s.get key = some value) :
    ∃ s', s.remove key = some (value, s') ∧ s'.Lawful ∧
      ∀ k, s'.get k = if k = key then none else s.get k := by
  obtain ⟨free, hfree⟩ := hs
  have hlt := lt_of_get h
  have hfresh := hfree.notMem (get_eq_some_iff.mp h)
  rw [remove, h]
  refine ⟨_, rfl, ⟨key :: free, ?_⟩, get_set hlt⟩
  exact FreeFrom.vacant (List.getElem?_set_self hlt) (hfree.set hfresh _) hfresh

end Slab

end DialCache.Slabs
