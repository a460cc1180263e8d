import Mathlib.Data.Set.Card
import DialCache.InsertionMaps

/-!
# Least recently used maps

A bounded map that gives up its least recently used entry, in two forms. `RecencyMap` says
what recency is: every entry carries the number of the use that touched it last, and a map
that has grown beyond its capacity drops the entry with the smallest number. `LruMap` is the
usual implementation, a list from the least to the most recently used entry. `Represents`
relates the two, and each operation of one is simulated by the operation of the other.
-/

namespace DialCache.LruMaps

open InsertionMaps

variable {K E F : Type}

/-! ### Deterministic machines with outputs -/

section Machines

variable {I O S T : Type}

/-- The outputs of a machine along its inputs. -/
def outputs (step : S → I → O × S) : S → List I → List O
  | _, [] => []
  | s, i :: inputs => (step s i).1 :: outputs step (step s i).2 inputs

/-- Machines whose steps keep a relation and answer alike have the same outputs. -/
theorem outputs_eq_of_simulation {step : S → I → O × S} {step' : T → I → O × T} {R : S → T → Prop}
    (hstep : ∀ s t i, R s t → (step s i).1 = (step' t i).1 ∧ R (step s i).2 (step' t i).2)
    {s : S} {t : T} (h : R s t) (inputs : List I) :
    outputs step s inputs = outputs step' t inputs := by
  induction inputs generalizing s t with
  | nil => rfl
  | cons i inputs ih =>
    obtain ⟨hout, hnext⟩ := hstep s t i h
    rw [outputs, outputs, hout, ih hnext]

theorem outputs_map {J : Type} (step : S → I → O × S) (f : J → I) (s : S) (inputs : List J) :
    outputs step s (inputs.map f) = outputs (fun s j => step s (f j)) s inputs := by
  induction inputs generalizing s with
  | nil => rfl
  | cons j inputs ih => rw [List.map_cons, outputs, outputs, ih]

end Machines

/-! ### Recency -/

/-- A map whose entries carry the number of their last use. -/
structure RecencyMap (K E : Type) where
  entry : K → Option (E × ℕ)
  /-- The uses so far. -/
  uses : ℕ

namespace RecencyMap

def empty : RecencyMap K E := ⟨fun _ => none, 0⟩

def find (s : RecencyMap K E) (k : K) : Option E := (s.entry k).map Prod.fst

noncomputable def size (s : RecencyMap K E) : ℕ := {k | (s.entry k).isSome = true}.ncard

/-- No entry was used before the entry of `k`. -/
def LeastRecent (s : RecencyMap K E) (k : K) : Prop :=
  ∃ e n, s.entry k = some (e, n) ∧ ∀ k' e' n', s.entry k' = some (e', n') → n ≤ n'

open Classical in
/-- A map with more than `capacity` entries loses its least recent one. -/
noncomputable def evict (capacity : ℕ) (s : RecencyMap K E) : RecencyMap K E :=
  if s.size ≤ capacity then s
  else { s with entry := fun k => if s.LeastRecent k then none else s.entry k }

variable [DecidableEq K]

/-- Write the entry of `k` as the most recently used one. -/
def use (s : RecencyMap K E) (k : K) (e : E) : RecencyMap K E :=
  ⟨Function.update s.entry k (some (e, s.uses)), s.uses + 1⟩

def erase (s : RecencyMap K E) (k : K) : RecencyMap K E :=
  { s with entry := Function.update s.entry k none }

end RecencyMap

/-! ### Lists in order of use -/

/-- A map of at most `capacity` entries, from the least to the most recently used. -/
structure LruMap (K E : Type) (capacity : ℕ) extends InsertionMap K E where
  bounded : entries.length ≤ capacity

namespace LruMap

variable {capacity : ℕ}

def empty : LruMap K E capacity := ⟨InsertionMap.empty, Nat.zero_le _⟩

/-- Entries read through a function. -/
def map (f : E → F) (m : LruMap K E capacity) : LruMap K F capacity :=
  ⟨m.toInsertionMap.map f, by
    rw [InsertionMap.entries_map, List.length_map]
    exact m.bounded⟩

variable [DecidableEq K]

variable (m : LruMap K E capacity)

/-- Look an entry up without using it. -/
def peek (k : K) : Option E := m.toInsertionMap.get k

def remove (k : K) : LruMap K E capacity :=
  ⟨m.toInsertionMap.delete k, (List.length_filter_le _ _).trans m.bounded⟩

/-- Use the entry of a key, if it has one. -/
def promote (k : K) : LruMap K E capacity :=
  ⟨m.toInsertionMap.moveToEnd k, by
    rw [InsertionMap.length_moveToEnd]
    exact m.bounded⟩

/-- What a write of `k` displaces: the former entry, or the least recent one of a full map. -/
def displaced (k : K) : Option E :=
  match m.peek k with
  | some e => some e
  | none => if m.entries.length < capacity then none else m.entries.head?.map Prod.snd

/-- Write an entry as the most recently used one. A full map drops its least recent entry. -/
def put (k : K) (e : E) : LruMap K E capacity :=
  if h : (m.toInsertionMap.push k e).entries.length ≤ capacity then ⟨m.toInsertionMap.push k e, h⟩
  else ⟨(m.toInsertionMap.push k e).popFirst, by
    have hlength := m.toInsertionMap.length_push_le k e
    have hbounded := m.bounded
    rw [InsertionMap.popFirst, List.length_tail]
    omega⟩

end LruMap

namespace LruMap

variable {capacity : ℕ}

theorem ext_entries {m m' : LruMap K E capacity} (h : m.toInsertionMap = m'.toInsertionMap) :
    m = m' := by
  cases m
  cases m'
  cases h
  rfl

variable [DecidableEq K]

theorem toInsertionMap_put (m : LruMap K E capacity) (k : K) (e : E) :
    (m.put k e).toInsertionMap =
      if (m.toInsertionMap.push k e).size ≤ capacity then m.toInsertionMap.push k e
      else (m.toInsertionMap.push k e).popFirst := by
  rw [put]
  split
  · rename_i h
    exact (if_pos h).symm
  · rename_i h
    exact (if_neg h).symm

/-! Operations commute with reading entries through a function. -/

variable (f : E → F)

theorem peek_map (m : LruMap K E capacity) (k : K) : (m.map f).peek k = (m.peek k).map f :=
  InsertionMap.get_map f _ k

theorem remove_map (m : LruMap K E capacity) (k : K) : (m.map f).remove k = (m.remove k).map f :=
  ext_entries (InsertionMap.delete_map f _ k)

theorem promote_map (m : LruMap K E capacity) (k : K) : (m.map f).promote k = (m.promote k).map f :=
  ext_entries (InsertionMap.moveToEnd_map f _ k)

theorem put_map (m : LruMap K E capacity) (k : K) (e : E) :
    (m.map f).put k (f e) = (m.put k e).map f := by
  have hpush : (m.map f).toInsertionMap.push k (f e) = (m.toInsertionMap.push k e).map f :=
    InsertionMap.push_map f _ k e
  have hsize : ((m.toInsertionMap.push k e).map f).size = (m.toInsertionMap.push k e).size :=
    List.length_map _
  apply ext_entries
  change _ = (m.put k e).toInsertionMap.map f
  rw [toInsertionMap_put, toInsertionMap_put, hpush, hsize]
  split
  · rfl
  · exact InsertionMap.popFirst_map f _

end LruMap

/-! ### Simulation -/

section Simulation

variable [DecidableEq K]

/-- The list holds the entries of the map in the order of their last uses. -/
def Represents (s : RecencyMap K E) (m : InsertionMap K E) : Prop :=
  ∃ stamp : K → ℕ, (∀ k, s.entry k = (m.get k).map fun e => (e, stamp k)) ∧
    (m.entries.Pairwise fun a b => stamp a.1 < stamp b.1) ∧ ∀ a ∈ m.entries, stamp a.1 < s.uses

variable {s : RecencyMap K E} {m : InsertionMap K E}

theorem represents_empty : Represents (RecencyMap.empty : RecencyMap K E) InsertionMap.empty :=
  ⟨fun _ => 0, fun _ => rfl, List.Pairwise.nil, nofun⟩

theorem Represents.find (h : Represents s m) (k : K) : s.find k = m.get k := by
  obtain ⟨stamp, hentry, -, -⟩ := h
  rw [RecencyMap.find, hentry, Option.map_map]
  exact Option.map_id'

theorem Represents.erase (h : Represents s m) (k : K) : Represents (s.erase k) (m.delete k) := by
  obtain ⟨stamp, hentry, horder, huses⟩ := h
  apply Exists.intro stamp
  constructor
  · intro k'
    by_cases hk : k' = k
    · rw [hk, InsertionMap.get_delete_self]
      exact Function.update_self k none s.entry
    · rw [InsertionMap.get_delete_of_ne m hk, ← hentry]
      exact Function.update_of_ne hk none s.entry
  constructor
  · exact horder.sublist List.filter_sublist
  · intro a ha
    exact huses a (List.mem_of_mem_filter ha)

theorem Represents.use (h : Represents s m) (k : K) (e : E) :
    Represents (s.use k e) (m.push k e) := by
  obtain ⟨stamp, hentry, horder, huses⟩ := h
  -- The other keys keep their stamps.
  have hother : ∀ a ∈ (m.delete k).entries, Function.update stamp k s.uses a.1 = stamp a.1 := by
    intro a ha
    have hne : a.1 ≠ k := (InsertionMap.mem_delete.mp ha).1
    exact Function.update_of_ne hne s.uses stamp
  have hlast : Function.update stamp k s.uses k = s.uses := Function.update_self k s.uses stamp
  have hbefore : ∀ a ∈ (m.delete k).entries, stamp a.1 < s.uses := by
    intro a ha
    exact huses a (List.mem_of_mem_filter ha)
  apply Exists.intro (Function.update stamp k s.uses)
  constructor
  · intro k'
    by_cases hk : k' = k
    · rw [hk, InsertionMap.get_push_self, Option.map_some, hlast]
      exact Function.update_self k _ s.entry
    · rw [InsertionMap.get_push_of_ne m hk, Function.update_of_ne hk, ← hentry]
      exact Function.update_of_ne hk _ s.entry
  rw [InsertionMap.entries_push]
  constructor
  · rw [List.pairwise_append]
    constructor
    · have hkept := horder.sublist (List.filter_sublist (p := fun e : K × E => decide (e.1 ≠ k)))
      apply hkept.imp_of_mem
      intro a b ha hb hab
      rw [hother a ha, hother b hb]
      exact hab
    constructor
    · exact List.pairwise_singleton _ _
    · intro a ha b hb
      rw [List.mem_singleton.mp hb, hother a ha, hlast]
      exact hbefore a ha
  · intro a ha
    rcases List.mem_append.mp ha with ha | ha
    · rw [hother a ha]
      exact Nat.lt_succ_of_lt (hbefore a ha)
    · rw [List.mem_singleton.mp ha, hlast]
      exact Nat.lt_succ_self s.uses

theorem Represents.size (h : Represents s m) : s.size = m.size := by
  obtain ⟨stamp, hentry, -, -⟩ := h
  have hkeys : {k | (s.entry k).isSome = true} = ((m.entries.map Prod.fst).toFinset : Set K) := by
    ext k
    rw [Set.mem_ofPred_eq, hentry, Option.isSome_map, Finset.mem_coe, List.mem_toFinset]
    constructor
    · intro hsome
      by_contra hmem
      rw [InsertionMap.get_eq_none_iff.mpr hmem] at hsome
      cases hsome
    · intro hmem
      rw [Option.isSome_iff_ne_none, ne_eq, InsertionMap.get_eq_none_iff]
      exact not_not.mpr hmem
  rw [RecencyMap.size, hkeys, Set.ncard_coe_finset, List.toFinset_card_of_nodup m.nodup,
    List.length_map, InsertionMap.size]

/-- The least recent entry is the first one. -/
theorem Represents.leastRecent_iff (h : Represents s m) {first : K × E} {rest : List (K × E)}
    (hentries : m.entries = first :: rest) (k : K) : s.LeastRecent k ↔ k = first.1 := by
  obtain ⟨stamp, hentry, horder, -⟩ := h
  rw [hentries, List.pairwise_cons] at horder
  have hfirst : s.entry first.1 = some (first.2, stamp first.1) := by
    have hget : m.get first.1 = some first.2 := by
      rw [InsertionMap.get_eq_some_iff, hentries]
      exact List.mem_cons_self
    rw [hentry, hget, Option.map_some]
  have hle : ∀ k' e' n', s.entry k' = some (e', n') → stamp first.1 ≤ n' ∧ n' = stamp k' ∧
      (k', e') ∈ first :: rest := by
    intro k' e' n' hk'
    rw [hentry] at hk'
    obtain ⟨e, hget, heq⟩ := Option.map_eq_some_iff.mp hk'
    obtain ⟨rfl, rfl⟩ := Prod.mk.inj heq
    have hmem : (k', e) ∈ first :: rest := hentries ▸ InsertionMap.get_eq_some_iff.mp hget
    rcases List.mem_cons.mp hmem with hhead | htail
    · exact ⟨by rw [← hhead], rfl, hmem⟩
    · exact ⟨(horder.1 _ htail).le, rfl, hmem⟩
  constructor
  · intro hleast
    obtain ⟨e, n, hk, hmin⟩ := hleast
    have hn := hmin _ _ _ hfirst
    obtain ⟨-, hstamp, hmem⟩ := hle k e n hk
    rcases List.mem_cons.mp hmem with hhead | htail
    · rw [← hhead]
    · have hlt := horder.1 _ htail
      dsimp only at hlt
      omega
  · intro hk
    rw [hk]
    exact ⟨first.2, stamp first.1, hfirst, fun k' e' n' hk' => (hle k' e' n' hk').1⟩

theorem Represents.evict (h : Represents s m) (capacity : ℕ) :
    Represents (s.evict capacity) (if m.size ≤ capacity then m else m.popFirst) := by
  rw [RecencyMap.evict, h.size]
  split
  · exact h
  · rename_i hfull
    cases hentries : m.entries with
    | nil =>
      rw [InsertionMap.size, hentries] at hfull
      exact absurd (Nat.zero_le capacity) hfull
    | cons first rest =>
      have hleast := h.leastRecent_iff hentries
      obtain ⟨stamp, hentry, horder, huses⟩ := h
      have htail : m.popFirst.entries = rest := by
        change m.entries.tail = rest
        rw [hentries]
        rfl
      have hfresh : first.1 ∉ rest.map Prod.fst := by
        have hnodup := m.nodup
        rw [hentries, List.map_cons, List.nodup_cons] at hnodup
        exact hnodup.1
      apply Exists.intro stamp
      constructor
      · intro k
        dsimp only
        by_cases hk : k = first.1
        · have hgone : m.popFirst.get k = none := by
            rw [InsertionMap.get_eq_none_iff, htail, hk]
            exact hfresh
          rw [if_pos ((hleast k).mpr hk), hgone, Option.map_none]
        · have hkept : m.popFirst.get k = m.get k := by
            apply InsertionMap.get_eq_of_mem_iff
            intro e
            rw [htail, hentries, List.mem_cons]
            constructor
            · exact Or.inr
            · intro hmem
              rcases hmem with heq | hmem
              · exact absurd (congrArg Prod.fst heq) hk
              · exact hmem
          rw [if_neg (mt (hleast k).mp hk), hkept, hentry]
      rw [htail]
      rw [hentries] at horder huses
      exact ⟨(List.pairwise_cons.mp horder).2, fun a ha => huses a (List.mem_cons_of_mem first ha)⟩

theorem Represents.promote (h : Represents s m) {k : K} {e : E} (hget : m.get k = some e) :
    Represents (s.use k e) (m.moveToEnd k) := by
  rw [InsertionMap.moveToEnd_of_get hget]
  exact h.use k e

theorem Represents.put {capacity : ℕ} {m : LruMap K E capacity}
    (h : Represents s m.toInsertionMap) (k : K) (e : E) :
    Represents ((s.use k e).evict capacity) (m.put k e).toInsertionMap := by
  rw [LruMap.toInsertionMap_put]
  exact (h.use k e).evict capacity

end Simulation

end DialCache.LruMaps
