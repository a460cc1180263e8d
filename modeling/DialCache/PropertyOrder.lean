import DialCache.InsertionMaps
import DialCache.JsonTrees
import Mathlib.Data.List.Induction
import Mathlib.Data.List.Sort

/-!
# The order of own properties

The own properties of an ECMAScript object come with the array indices first, in ascending order,
and then the other names in the order in which they were defined. Defining a name again replaces
its value and keeps its place. A stable sort by the index alone gives the same order.
-/

namespace DialCache.PropertyOrder

open InsertionMaps JsonTrees

variable {σ α : Type}

/-- The properties in the order of their keys. -/
def ownOrder (index : σ → Option ℕ) (entries : List (σ × α)) : List (σ × α) :=
  (entries.filter fun e => (index e.1).isSome).mergeSort
      (fun a b => (index a.1).getD 0 ≤ (index b.1).getD 0) ++
    entries.filter fun e => (index e.1).isNone

/-- One definition after the other. -/
def assign [DecidableEq σ] (members : List (σ × α)) : InsertionMap σ α :=
  members.foldl (fun m member => m.set member.1 member.2) .empty

/-! ### A stable sort -/

/-- The comparison of a sort that moves the indices to the front. -/
def indexLess (index : σ → Option ℕ) (a b : σ × α) : Bool :=
  match index a.1, index b.1 with
  | some m, some n => m < n
  | some _, none => true
  | none, _ => false

section Stable

variable {index : σ → Option ℕ}

theorem indexLess_trans (a b c : σ × α) (hab : (!indexLess index b a) = true)
    (hbc : (!indexLess index c b) = true) : (!indexLess index c a) = true := by
  revert hab hbc
  simp only [indexLess]
  cases index a.1 <;> cases index b.1 <;> cases index c.1 <;>
    simp only [Bool.not_true, Bool.not_false, Bool.not_eq_true', decide_eq_false_iff_not,
      Bool.false_eq_true, imp_self, false_implies, implies_true, Nat.not_lt]
  omega

theorem indexLess_total (a b : σ × α) :
    (!indexLess index b a || !indexLess index a b) = true := by
  simp only [indexLess]
  cases index a.1 <;> cases index b.1 <;>
    simp only [Bool.not_true, Bool.not_false, Bool.or_true, Bool.or_false, Bool.or_eq_true,
      Bool.not_eq_true', decide_eq_false_iff_not, Nat.not_lt]
  omega

theorem eq_filter_append {p : α → Bool} {l : List α}
    (h : l.Pairwise fun a b => p b = true → p a = true) :
    l = l.filter p ++ l.filter fun a => !p a := by
  induction l with
  | nil => rfl
  | cons a l ih =>
    obtain ⟨hhead, htail⟩ := List.pairwise_cons.mp h
    cases ha : p a with
    | true =>
      rw [List.filter_cons_of_pos ha, List.filter_cons_of_neg (by rw [ha]; decide), List.cons_append,
        ← ih htail]
    | false =>
      have hnone : l.filter p = [] := by
        refine List.filter_eq_nil_iff.mpr fun b hb hpb => ?_
        rw [hhead b hb hpb] at ha
        cases ha
      have hall : (l.filter fun a => !p a) = l := by
        rw [← List.nil_append (l.filter _), ← hnone]
        exact (ih htail).symm
      rw [List.filter_cons_of_neg (by rw [ha]; decide), List.filter_cons_of_pos (by rw [ha]; rfl),
        hnone, hall, List.nil_append]

theorem isSome_of_not_indexLess {a b : σ × α} (h : (!indexLess index b a) = true)
    (hb : (index b.1).isSome = true) : (index a.1).isSome = true := by
  revert h
  rw [indexLess]
  cases index a.1 with
  | some m => exact fun _ => rfl
  | none =>
    cases hn : index b.1 with
    | some n => exact fun h => by cases h
    | none =>
      rw [hn] at hb
      cases hb

theorem getD_le_of_not_indexLess {a b : σ × α} (h : (!indexLess index b a) = true)
    (ha : (index a.1).isSome = true) (hb : (index b.1).isSome = true) :
    (index a.1).getD 0 ≤ (index b.1).getD 0 := by
  obtain ⟨m, hm⟩ := Option.isSome_iff_exists.mp ha
  obtain ⟨n, hn⟩ := Option.isSome_iff_exists.mp hb
  rw [indexLess, hm, hn, Bool.not_eq_true', decide_eq_false_iff_not] at h
  rw [hm, hn]
  exact Nat.not_lt.mp h

/-- Sorted stably by the index, the properties are in the order of their keys. -/
theorem mergeSort_indexLess {entries : List (σ × α)}
    (hindex : ∀ a ∈ entries, ∀ b ∈ entries, ∀ n, index a.1 = some n → index b.1 = some n → a = b) :
    entries.mergeSort (fun a b => !indexLess index b a) = ownOrder index entries := by
  have hperm := List.mergeSort_perm entries fun a b => !indexLess index b a
  have htrans : ∀ a b c : σ × α, (!indexLess index b a) = true → (!indexLess index c b) = true →
      (!indexLess index c a) = true := indexLess_trans
  have hsorted := List.pairwise_mergeSort htrans indexLess_total entries
  have hstable : ∀ rest : List (σ × α), rest.Pairwise (fun a b => (!indexLess index b a) = true) →
      rest.Sublist entries → rest.Sublist (entries.mergeSort fun a b => !indexLess index b a) :=
    fun rest => List.sublist_mergeSort htrans indexLess_total
  generalize entries.mergeSort (fun a b => !indexLess index b a) = r at hperm hsorted hstable
  have hparts := eq_filter_append (p := fun e : σ × α => (index e.1).isSome)
    (hsorted.imp isSome_of_not_indexLess)
  rw [hparts, ownOrder]
  congr 1
  · -- Two indices are never the same, so the sorted ones are the only sorted list.
    refine @List.Perm.eq_of_pairwise _ (fun a b => (index a.1).getD 0 ≤ (index b.1).getD 0) _ _ ?_ ?_ ?_ ?_
    · intro a b ha hb hab hba
      rw [List.mem_filter] at ha
      rw [(List.mergeSort_perm _ _).mem_iff, List.mem_filter] at hb
      obtain ⟨m, hm⟩ := Option.isSome_iff_exists.mp ha.2
      obtain ⟨n, hn⟩ := Option.isSome_iff_exists.mp hb.2
      rw [hm, hn] at hab hba
      have hmn : m = n := Nat.le_antisymm hab hba
      exact hindex a (hperm.mem_iff.mp ha.1) b hb.1 m hm (hmn ▸ hn)
    · refine (hsorted.filter _).imp_of_mem fun ha hb h => ?_
      exact getD_le_of_not_indexLess h (List.mem_filter.mp ha).2 (List.mem_filter.mp hb).2
    · refine (List.pairwise_mergeSort ?_ ?_ _).imp fun h => of_decide_eq_true h
      · intro a b c hab hbc
        exact decide_eq_true (Nat.le_trans (of_decide_eq_true hab) (of_decide_eq_true hbc))
      · intro a b
        rw [Bool.or_eq_true, decide_eq_true_eq, decide_eq_true_eq]
        exact Nat.le_total _ _
    · exact (hperm.filter _).trans (List.mergeSort_perm _ _).symm
  · -- The other names are in order already, and stay in it.
    have hnot : (fun e : σ × α => !(index e.1).isSome) = fun e => (index e.1).isNone :=
      funext fun e => Option.not_isSome _
    rw [hnot]
    symm
    have hequal : (entries.filter fun e => (index e.1).isNone).Pairwise
        fun a b => (!indexLess index b a) = true := by
      refine List.pairwise_of_forall_mem_list fun a ha b hb => ?_
      rw [indexLess, Option.isNone_iff_eq_none.mp (List.mem_filter.mp hb).2]
      rfl
    have hsub := (hstable _ hequal List.filter_sublist).filter fun e => (index e.1).isNone
    rw [List.filter_filter] at hsub
    simp only [Bool.and_self] at hsub
    exact hsub.eq_of_length (hperm.filter _).length_eq.symm

end Stable

theorem perm_ownOrder (index : σ → Option ℕ) (entries : List (σ × α)) :
    (ownOrder index entries).Perm entries := by
  have hparts := List.filter_append_perm (fun e : σ × α => (index e.1).isSome) entries
  have hnot : (fun e : σ × α => !(index e.1).isSome) = fun e => (index e.1).isNone :=
    funext fun e => Option.not_isSome _
  rw [hnot] at hparts
  exact ((List.mergeSort_perm _ _).append_right _).trans hparts

/-! ### Other names and values -/

section Map

variable {τ β : Type} {f : σ → τ} {g : α → β}

theorem ownOrder_map {index : σ → Option ℕ} {index' : τ → Option ℕ}
    (hindex : ∀ name, index' (f name) = index name) (entries : List (σ × α)) :
    ownOrder index' (entries.map fun e => (f e.1, g e.2)) =
      (ownOrder index entries).map fun e => (f e.1, g e.2) := by
  have hsort : ((entries.filter fun e => (index e.1).isSome).mergeSort
        fun a b => (index a.1).getD 0 ≤ (index b.1).getD 0).map (fun e => (f e.1, g e.2)) =
      ((entries.filter fun e => (index e.1).isSome).map fun e => (f e.1, g e.2)).mergeSort
        fun a b => (index' a.1).getD 0 ≤ (index' b.1).getD 0 := by
    apply List.map_mergeSort
    intro a _ b _
    rw [hindex, hindex]
  rw [ownOrder, ownOrder, List.map_append, hsort, List.filter_map, List.filter_map]
  simp only [Function.comp_def, hindex]

variable [DecidableEq σ] [DecidableEq τ]

theorem entries_set_map (hf : Function.Injective f) {m : InsertionMap σ α} {m' : InsertionMap τ β}
    (h : m'.entries = m.entries.map fun e => (f e.1, g e.2)) (k : σ) (v : α) :
    (m'.set (f k) (g v)).entries = (m.set k v).entries.map fun e => (f e.1, g e.2) := by
  have hkeys : m'.entries.map Prod.fst = (m.entries.map Prod.fst).map f := by
    rw [h, List.map_map, List.map_map]
    rfl
  have hmem : f k ∈ m'.entries.map Prod.fst ↔ k ∈ m.entries.map Prod.fst := by
    rw [hkeys, List.mem_map_of_injective hf]
  rw [InsertionMap.set, InsertionMap.set]
  by_cases hk : k ∈ m.entries.map Prod.fst
  · rw [dif_pos hk, dif_pos (hmem.mpr hk)]
    dsimp only
    rw [h, List.map_map, List.map_map]
    refine List.map_congr_left fun e _ => ?_
    simp only [Function.comp_apply, InsertionMap.replaceEntry, hf.eq_iff]
    split <;> rfl
  · rw [dif_neg hk, dif_neg fun hk' => hk (hmem.mp hk')]
    dsimp only
    rw [h, List.map_append]
    rfl

theorem assign_map (hf : Function.Injective f) (members : List (σ × α)) :
    (assign (members.map fun e => (f e.1, g e.2))).entries =
      (assign members).entries.map fun e => (f e.1, g e.2) := by
  rw [assign, assign]
  have hempty : (InsertionMap.empty : InsertionMap τ β).entries =
      (InsertionMap.empty : InsertionMap σ α).entries.map fun e => (f e.1, g e.2) := rfl
  generalize (InsertionMap.empty : InsertionMap τ β) = m' at hempty ⊢
  generalize (InsertionMap.empty : InsertionMap σ α) = m at hempty ⊢
  induction members generalizing m m' with
  | nil => exact hempty
  | cons member members ih => exact ih _ _ (entries_set_map hf hempty member.1 member.2)

end Map

/-! ### The last value of a name -/

section Lookup

variable [DecidableEq σ]

theorem get_assign (members : List (σ × α)) (name : σ) :
    (assign members).get name = lookup name members.reverse := by
  induction members using List.reverseRecOn with
  | nil => rfl
  | append_singleton members member ih =>
    rw [assign, List.foldl_append, List.reverse_append]
    change ((assign members).set member.1 member.2).get name =
      if member.1 = name then some member.2 else lookup name members.reverse
    by_cases hname : member.1 = name
    · rw [if_pos hname, ← hname, InsertionMap.get_set_self]
    · rw [if_neg hname, InsertionMap.get_set_of_ne _ (Ne.symm hname), ih]

theorem lookup_eq_some_iff_mem {entries : List (σ × α)} (h : (entries.map Prod.fst).Nodup) {name : σ}
    {value : α} : lookup name entries = some value ↔ (name, value) ∈ entries := by
  refine ⟨mem_of_lookup, fun hmem => ?_⟩
  induction entries with
  | nil => exact absurd hmem List.not_mem_nil
  | cons e entries ih =>
    rw [List.map_cons, List.nodup_cons] at h
    rw [lookup]
    rcases List.mem_cons.mp hmem with rfl | hmem
    · exact if_pos rfl
    · have hne : e.1 ≠ name := by
        rintro rfl
        exact h.1 (List.mem_map.mpr ⟨_, hmem, rfl⟩)
      rw [if_neg hne, ih h.2 hmem]

/-- Whatever the order, a name has the value it was given last. -/
theorem lookup_ownOrder (index : σ → Option ℕ) (members : List (σ × α)) (name : σ) :
    lookup name (ownOrder index (assign members).entries) = lookup name members.reverse := by
  have hperm := perm_ownOrder index (assign members).entries
  have hnodup := (hperm.map Prod.fst).nodup_iff.mpr (assign members).nodup
  refine Option.ext fun value => ?_
  rw [lookup_eq_some_iff_mem hnodup, hperm.mem_iff, ← InsertionMap.get_eq_some_iff, get_assign]

end Lookup

end DialCache.PropertyOrder
