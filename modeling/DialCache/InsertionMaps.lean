import Mathlib.Data.List.Nodup

/-!
# Maps in insertion order

A finite map that iterates in the order of first insertion, as JavaScript's `Map` does:
setting a known key keeps its place, a new key goes last. Keys are unique by construction.
-/

namespace DialCache.InsertionMaps

structure InsertionMap (K β : Type) where
  entries : List (K × β)
  nodup : (entries.map Prod.fst).Nodup

variable {K β : Type}

namespace InsertionMap

variable {m : InsertionMap K β}

@[ext] theorem ext {m' : InsertionMap K β} (h : m.entries = m'.entries) : m = m' := by
  cases m
  cases m'
  cases h
  rfl

def empty : InsertionMap K β := ⟨[], List.nodup_nil⟩

def size (m : InsertionMap K β) : ℕ := m.entries.length

variable {k : K}

theorem nodup_append_key {entries : List (K × β)} (h : (entries.map Prod.fst).Nodup)
    (hk : k ∉ entries.map Prod.fst) (v : β) : ((entries ++ [(k, v)]).map Prod.fst).Nodup := by
  rw [List.map_append, List.map_singleton]
  refine h.append (List.nodup_singleton k) ?_
  intro a ha hb
  obtain rfl := List.mem_singleton.mp hb
  exact hk ha

variable {v : β}

theorem eq_of_mem {v' : β} (h : (k, v) ∈ m.entries) (h' : (k, v') ∈ m.entries) : v = v' := by
  have := List.inj_on_of_nodup_map m.nodup h h' rfl
  exact (Prod.mk.inj this).2

variable [DecidableEq K]

def get (m : InsertionMap K β) (k : K) : Option β :=
  (m.entries.find? fun e => e.1 = k).map Prod.snd

def replaceEntry (k : K) (v : β) (e : K × β) : K × β := if e.1 = k then (k, v) else e

theorem fst_replaceEntry (k : K) (v : β) (e : K × β) : (replaceEntry k v e).1 = e.1 := by
  unfold replaceEntry
  split
  · rename_i h
    exact h.symm
  · rfl

def set (m : InsertionMap K β) (k : K) (v : β) : InsertionMap K β :=
  if h : k ∈ m.entries.map Prod.fst then
    ⟨m.entries.map (replaceEntry k v), by
      rw [List.map_map]
      have hfst : (Prod.fst ∘ replaceEntry k v : K × β → K) = Prod.fst :=
        funext (fst_replaceEntry k v)
      rw [hfst]
      exact m.nodup⟩
  else ⟨m.entries ++ [(k, v)], nodup_append_key m.nodup h v⟩

def delete (m : InsertionMap K β) (k : K) : InsertionMap K β :=
  ⟨m.entries.filter fun e => e.1 ≠ k, m.nodup.sublist (List.filter_sublist.map Prod.fst)⟩

theorem get_eq_some_iff : m.get k = some v ↔ (k, v) ∈ m.entries := by
  constructor
  · intro h
    obtain ⟨⟨k', v'⟩, hfind, rfl⟩ := Option.map_eq_some_iff.mp h
    have hk : k' = k := by simpa using List.find?_some hfind
    subst hk
    exact List.mem_of_find?_eq_some hfind
  · intro h
    cases hfind : m.entries.find? fun e => e.1 = k with
    | none =>
      have := List.find?_eq_none.mp hfind _ h
      simp at this
    | some e =>
      have hk : e.1 = k := by simpa using List.find?_some hfind
      have hmem : (k, e.2) ∈ m.entries := hk ▸ List.mem_of_find?_eq_some hfind
      rw [get, hfind, Option.map_some, eq_of_mem hmem h]

theorem get_eq_none_iff : m.get k = none ↔ k ∉ m.entries.map Prod.fst := by
  rw [get, Option.map_eq_none_iff, List.find?_eq_none]
  simp only [decide_eq_true_eq, List.mem_map, not_exists, not_and]

theorem entries_set_of_none (h : m.get k = none) (v : β) :
    (m.set k v).entries = m.entries ++ [(k, v)] := by
  rw [set, dif_neg (get_eq_none_iff.mp h)]

variable {k' : K}

theorem mem_set {v' : β} :
    (k', v') ∈ (m.set k v).entries ↔
      (k' = k ∧ v' = v) ∨ (k' ≠ k ∧ (k', v') ∈ m.entries) := by
  by_cases h : k ∈ m.entries.map Prod.fst
  · obtain ⟨⟨k₀, v₀⟩, hmem, rfl⟩ := List.mem_map.mp h
    rw [set, dif_pos h]
    simp only [List.mem_map, replaceEntry]
    constructor
    · rintro ⟨⟨a, b⟩, hab, heq⟩
      split at heq
      · cases heq
        exact .inl ⟨rfl, rfl⟩
      · rename_i hne
        cases heq
        exact .inr ⟨hne, hab⟩
    · rintro (⟨rfl, rfl⟩ | ⟨hne, hmem'⟩)
      · exact ⟨_, hmem, by simp⟩
      · exact ⟨_, hmem', by simp [hne]⟩
  · rw [set, dif_neg h]
    simp only [List.mem_append, List.mem_singleton, Prod.mk.injEq]
    constructor
    · rintro (hmem | ⟨rfl, rfl⟩)
      · refine .inr ⟨?_, hmem⟩
        rintro rfl
        exact h (List.mem_map_of_mem (f := Prod.fst) hmem)
      · exact .inl ⟨rfl, rfl⟩
    · rintro (⟨rfl, rfl⟩ | ⟨-, hmem⟩)
      · exact .inr ⟨rfl, rfl⟩
      · exact .inl hmem

theorem mem_delete : (k', v) ∈ (m.delete k).entries ↔ k' ≠ k ∧ (k', v) ∈ m.entries := by
  simp only [delete, List.mem_filter, decide_eq_true_eq, and_comm]

/-! ### Moving entries -/

/-- Write a key as the last one. -/
def push (m : InsertionMap K β) (k : K) (v : β) : InsertionMap K β := (m.delete k).set k v

/-- Move the entry of a key to the end, as `OrderedDict.move_to_end` does. -/
def moveToEnd (m : InsertionMap K β) (k : K) : InsertionMap K β :=
  match m.get k with
  | none => m
  | some v => m.push k v

/-- Drop the first entry, as `OrderedDict.popitem(last=False)` does. -/
def popFirst (m : InsertionMap K β) : InsertionMap K β :=
  ⟨m.entries.tail, m.nodup.sublist ((List.tail_sublist _).map Prod.fst)⟩

theorem get_delete_self (m : InsertionMap K β) (k : K) : (m.delete k).get k = none := by
  rw [get_eq_none_iff]
  intro hmem
  obtain ⟨⟨k', v⟩, hmem, rfl⟩ := List.mem_map.mp hmem
  exact (mem_delete.mp hmem).1 rfl

theorem get_eq_of_mem_iff {m' : InsertionMap K β}
    (h : ∀ v, (k, v) ∈ m.entries ↔ (k, v) ∈ m'.entries) : m.get k = m'.get k := by
  apply Option.ext
  intro v
  rw [get_eq_some_iff, get_eq_some_iff]
  exact h v

theorem get_delete_of_ne (m : InsertionMap K β) (h : k' ≠ k) : (m.delete k).get k' = m.get k' := by
  apply get_eq_of_mem_iff
  intro v
  rw [mem_delete]
  exact and_iff_right h

theorem get_set_self (m : InsertionMap K β) (k : K) (v : β) : (m.set k v).get k = some v :=
  get_eq_some_iff.mpr (mem_set.mpr (.inl ⟨rfl, rfl⟩))

theorem get_set_of_ne (m : InsertionMap K β) (h : k' ≠ k) (v : β) :
    (m.set k v).get k' = m.get k' := by
  apply get_eq_of_mem_iff
  intro v'
  rw [mem_set]
  constructor
  · intro hmem
    rcases hmem with ⟨heq, -⟩ | ⟨-, hmem⟩
    · exact absurd heq h
    · exact hmem
  · intro hmem
    exact Or.inr ⟨h, hmem⟩

theorem entries_push (m : InsertionMap K β) (k : K) (v : β) :
    (m.push k v).entries = (m.delete k).entries ++ [(k, v)] :=
  entries_set_of_none (get_delete_self m k) v

theorem get_push_self (m : InsertionMap K β) (k : K) (v : β) : (m.push k v).get k = some v :=
  get_set_self _ k v

theorem get_push_of_ne (m : InsertionMap K β) (h : k' ≠ k) (v : β) :
    (m.push k v).get k' = m.get k' := by
  rw [push, get_set_of_ne _ h, get_delete_of_ne m h]

theorem length_push_le (m : InsertionMap K β) (k : K) (v : β) :
    (m.push k v).entries.length ≤ m.entries.length + 1 := by
  rw [entries_push, List.length_append, List.length_singleton]
  exact Nat.succ_le_succ (List.length_filter_le _ _)

theorem moveToEnd_of_get (h : m.get k = some v) : m.moveToEnd k = m.push k v := by
  rw [moveToEnd, h]

/-- A known key is removed once. -/
theorem length_delete_of_get (h : m.get k = some v) :
    (m.delete k).entries.length + 1 = m.entries.length := by
  have hmem : k ∈ m.entries.map Prod.fst := List.mem_map_of_mem (get_eq_some_iff.mp h)
  have hkeys : (m.delete k).entries.map Prod.fst = (m.entries.map Prod.fst).erase k := by
    rw [m.nodup.erase_eq_filter, List.filter_map]
    simp only [delete, Function.comp_def, ne_eq, decide_not]
    rfl
  have hlength := congrArg List.length hkeys
  rw [List.length_map, List.length_erase_of_mem hmem, List.length_map] at hlength
  have hpos := List.length_pos_of_mem hmem
  rw [List.length_map] at hpos
  omega

theorem length_moveToEnd (m : InsertionMap K β) (k : K) :
    (m.moveToEnd k).entries.length = m.entries.length := by
  cases h : m.get k with
  | none => rw [moveToEnd, h]
  | some v =>
    rw [moveToEnd_of_get h, entries_push, List.length_append, List.length_singleton,
      length_delete_of_get h]

theorem delete_set (m : InsertionMap K β) (k : K) (v : β) : (m.set k v).delete k = m.delete k := by
  by_cases h : k ∈ m.entries.map Prod.fst
  · ext1
    rw [set, dif_pos h]
    simp only [delete, List.filter_map]
    have hfilter : (fun e : K × β => decide (e.1 ≠ k)) ∘ replaceEntry k v =
        fun e => decide (e.1 ≠ k) := by
      funext e
      rw [Function.comp, fst_replaceEntry]
    have hkept : ∀ e ∈ m.entries.filter fun e => decide (e.1 ≠ k), replaceEntry k v e = id e := by
      intro e he
      have hne : e.1 ≠ k := of_decide_eq_true (List.mem_filter.mp he).2
      rw [replaceEntry, if_neg hne, id]
    rw [hfilter, List.map_congr_left hkept, List.map_id]
  · ext1
    rw [set, dif_neg h]
    simp [delete]

/-- Writing in place and moving to the end is writing last. -/
theorem moveToEnd_set (m : InsertionMap K β) (k : K) (v : β) :
    (m.set k v).moveToEnd k = m.push k v := by
  rw [moveToEnd_of_get (get_set_self m k v), push, delete_set, push]

end InsertionMap

/-! ### Reading entries through a function -/

section Map

variable {γ : Type}

namespace InsertionMap

def map (f : β → γ) (m : InsertionMap K β) : InsertionMap K γ :=
  ⟨m.entries.map fun e => (e.1, f e.2), by
    rw [List.map_map]
    exact m.nodup⟩

variable (f : β → γ)

theorem entries_map (m : InsertionMap K β) :
    (m.map f).entries = m.entries.map fun e => (e.1, f e.2) := rfl

theorem size_map (m : InsertionMap K β) : (m.map f).size = m.size := List.length_map _

theorem popFirst_map (m : InsertionMap K β) : (m.map f).popFirst = m.popFirst.map f := by
  ext1
  exact List.map_tail.symm

variable [DecidableEq K]

theorem get_map (m : InsertionMap K β) (k : K) : (m.map f).get k = (m.get k).map f := by
  rw [get, get, entries_map, List.find?_map, Option.map_map, Option.map_map]
  rfl

theorem delete_map (m : InsertionMap K β) (k : K) : (m.map f).delete k = (m.delete k).map f := by
  ext1
  exact List.filter_map

theorem push_map (m : InsertionMap K β) (k : K) (v : β) :
    (m.map f).push k (f v) = (m.push k v).map f := by
  ext1
  rw [entries_push, delete_map, entries_map, entries_map, entries_push, List.map_append,
    List.map_singleton]

theorem moveToEnd_map (m : InsertionMap K β) (k : K) :
    (m.map f).moveToEnd k = (m.moveToEnd k).map f := by
  rw [moveToEnd, moveToEnd, get_map]
  cases m.get k with
  | none => rfl
  | some v => exact push_map f m k v

end InsertionMap

end Map

end DialCache.InsertionMaps
