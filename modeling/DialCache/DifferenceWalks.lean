import DialCache.JsonDifferences
import DialCache.KeyAgreement

/-!
# The built-in difference walk

The walk goes over two parsed JSON values with a stack of reference tokens, reports a
difference with the tokens above it, and keeps the first 64 reports while it counts all of
them. At 32 tokens it no longer descends and asks for structural equality instead. The four
ports enumerate the members of an object in their own order and sort the names by UTF-16 code
units, each with its own comparison.
-/

namespace DialCache.DifferenceWalks

open JsonTrees JsonDifferences UnicodeText CacheKeys PortableKeys KeyAgreement

def maxEntries : ℕ := 64

def maxDepth : ℕ := 32

/-- The kept entries and the uncut total. -/
structure Walk (σ ν : Type) where
  entries : List (Entry σ ν)
  count : ℕ

def Walk.report {σ ν : Type} (walk : Walk σ ν) (entry : Entry σ ν) : Walk σ ν where
  entries := if walk.entries.length < maxEntries then walk.entries ++ [entry] else walk.entries
  count := walk.count + 1

/-! ### Equality behind the depth cap -/

section Equality

variable {σ ν : Type} [DecidableEq σ] (same : ν → ν → Bool)

/-- Push the pairs of members, unless a name is missing on the other side. -/
def pushMembers (others : Object σ ν) : Object σ ν → List (Json σ ν × Json σ ν) →
    Option (List (Json σ ν × Json σ ν))
  | [], pending => some pending
  | member :: rest, pending =>
    match lookup member.1 others with
    | none => none
    | some other => pushMembers others rest ((member.2, other) :: pending)

/-- What is left to compare; the loop ends because it gets less. -/
noncomputable def weight : List (Json σ ν × Json σ ν) → ℕ
  | [] => 0
  | pair :: pending => sizeOf pair.1 + weight pending

noncomputable def memberWeight : Object σ ν → ℕ
  | [] => 0
  | member :: rest => sizeOf member.2 + memberWeight rest

omit [DecidableEq σ] in
theorem weight_reverse_append (front back : List (Json σ ν × Json σ ν)) :
    weight (front.reverse ++ back) = weight front + weight back := by
  induction front generalizing back with
  | nil => exact (Nat.zero_add _).symm
  | cons pair front ih =>
    rw [List.reverse_cons, List.append_assoc, ih, List.singleton_append, weight, weight]
    omega

omit [DecidableEq σ] in
theorem weight_zip_lt (left right : List (Json σ ν)) : weight (left.zip right) < sizeOf left := by
  induction left generalizing right with
  | nil => exact Nat.zero_lt_one
  | cons a left ih =>
    cases right with
    | nil =>
      rw [List.zip_nil_right, weight, List.cons.sizeOf_spec]
      omega
    | cons b right =>
      have hrest := ih right
      rw [List.zip_cons_cons, weight, List.cons.sizeOf_spec]
      dsimp only
      omega

omit [DecidableEq σ] in
theorem memberWeight_filter_le (p : σ × Json σ ν → Bool) (members : Object σ ν) :
    memberWeight (members.filter p) ≤ memberWeight members := by
  induction members with
  | nil => exact Nat.le_refl _
  | cons member rest ih =>
    rw [List.filter_cons, memberWeight]
    split
    · rw [memberWeight]
      omega
    · omega

theorem memberWeight_own_lt (members : Object σ ν) :
    memberWeight (own members) < sizeOf members := by
  induction members with
  | nil => exact Nat.zero_lt_one
  | cons member rest ih =>
    obtain ⟨name, value⟩ := member
    have hfilter := memberWeight_filter_le (fun other => decide (other.1 ≠ name)) (own rest)
    rw [own, memberWeight, List.cons.sizeOf_spec, Prod.mk.sizeOf_spec]
    dsimp only
    omega

theorem weight_pushMembers {others members : Object σ ν}
    {pending pending' : List (Json σ ν × Json σ ν)} (h : pushMembers others members pending = some pending') :
    weight pending' = weight pending + memberWeight members := by
  induction members generalizing pending with
  | nil =>
    obtain rfl := Option.some.inj h
    rfl
  | cons member rest ih =>
    rw [pushMembers] at h
    split at h
    · cases h
    · rw [ih h, weight, memberWeight]
      dsimp only
      omega

/-- `jsonValuesEqual`, `json_values_equal`, `_json_equal`: a loop over a stack of pairs. -/
def jsonValuesEqual : List (Json σ ν × Json σ ν) → Bool
  | [] => true
  | (.array left, .array right) :: pending =>
    if left.length ≠ right.length then false
    else jsonValuesEqual ((left.zip right).reverse ++ pending)
  | (.object left, .object right) :: pending =>
    if (own left).length ≠ (own right).length then false
    else
      match _h : pushMembers right (own left) pending with
      | none => false
      | some pending' => jsonValuesEqual pending'
  | (left, right) :: pending =>
    if samePrimitive same left right then jsonValuesEqual pending else false
termination_by pending => weight pending
decreasing_by
  · have hzip := weight_zip_lt left right
    rw [weight_reverse_append, weight, Json.array.sizeOf_spec]
    omega
  · have hpushed := weight_pushMembers _h
    have hown := memberWeight_own_lt left
    rw [hpushed, weight, Json.object.sizeOf_spec]
    omega
  · have hpos : 0 < sizeOf left := by
      cases left <;> simp only [Json.null.sizeOf_spec, Json.bool.sizeOf_spec,
        Json.number.sizeOf_spec, Json.string.sizeOf_spec, Json.array.sizeOf_spec,
        Json.object.sizeOf_spec] <;> omega
    change weight pending < sizeOf left + weight pending
    omega

theorem missing_of_pushMembers {others members : Object σ ν}
    {pending : List (Json σ ν × Json σ ν)} (h : pushMembers others members pending = none) :
    ∃ member ∈ members, lookup member.1 others = none := by
  induction members generalizing pending with
  | nil => cases h
  | cons member rest ih =>
    rw [pushMembers] at h
    split at h
    · rename_i hmissing
      exact ⟨member, List.mem_cons_self, hmissing⟩
    · obtain ⟨missing, hmem, hmissing⟩ := ih h
      exact ⟨missing, List.mem_cons_of_mem _ hmem, hmissing⟩

theorem forall_pushMembers {P : Json σ ν → Json σ ν → Prop} {others members : Object σ ν}
    {pending pending' : List (Json σ ν × Json σ ν)}
    (h : pushMembers others members pending = some pending') :
    (∀ pair ∈ pending', P pair.1 pair.2) ↔ (∀ pair ∈ pending, P pair.1 pair.2) ∧
      ∀ member ∈ members, ∃ other, lookup member.1 others = some other ∧ P member.2 other := by
  induction members generalizing pending with
  | nil =>
    obtain rfl := Option.some.inj h
    exact ⟨fun hall => ⟨hall, fun _ hmember => nomatch hmember⟩, fun hall => hall.1⟩
  | cons member rest ih =>
    rw [pushMembers] at h
    split at h
    · cases h
    · rename_i other hother
      rw [ih h, List.forall_mem_cons, List.forall_mem_cons]
      constructor
      · intro hall
        exact ⟨hall.1.2, ⟨other, hother, hall.1.1⟩, hall.2⟩
      · intro hall
        obtain ⟨other', hother', hP⟩ := hall.2.1
        obtain rfl := Option.some.inj (hother.symm.trans hother')
        exact ⟨⟨hP, hall.1⟩, hall.2.2⟩

theorem equal_object_iff_own {left right : Object σ ν} :
    Equal same (.object left) (.object right) ↔ (own left).length = (own right).length ∧
      ∀ member ∈ own left, ∃ other, lookup member.1 right = some other ∧
        Equal same member.2 other := by
  rw [equal_object_iff]
  exact matches_iff_own

/-- The loop answers whether all pending pairs are equal. -/
theorem jsonValuesEqual_iff (pending : List (Json σ ν × Json σ ν)) :
    jsonValuesEqual same pending = true ↔ ∀ pair ∈ pending, Equal same pair.1 pair.2 := by
  fun_induction jsonValuesEqual same pending with
  | case1 => exact iff_of_true rfl fun _ hpair => nomatch hpair
  | case2 left right pending hlength =>
    apply iff_of_false Bool.false_ne_true
    intro hall
    exact hlength (equal_array_iff.mp (hall _ List.mem_cons_self)).1
  | case3 left right pending hlength ih =>
    rw [not_not] at hlength
    rw [ih, List.forall_mem_append, List.forall_mem_cons, equal_array_iff]
    simp only [List.mem_reverse, hlength, true_and]
  | case4 left right pending hlength =>
    apply iff_of_false Bool.false_ne_true
    intro hall
    exact hlength ((equal_object_iff_own same).mp (hall _ List.mem_cons_self)).1
  | case5 left right pending hlength hpush =>
    apply iff_of_false Bool.false_ne_true
    intro hall
    obtain ⟨member, hmember, hmissing⟩ := missing_of_pushMembers hpush
    obtain ⟨other, hother, -⟩ :=
      ((equal_object_iff_own same).mp (hall _ List.mem_cons_self)).2 member hmember
    rw [hmissing] at hother
    cases hother
  | case6 left right pending hlength pending' hpush ih =>
    rw [not_not] at hlength
    rw [ih, forall_pushMembers hpush, List.forall_mem_cons, equal_object_iff_own, and_comm]
    simp only [hlength, true_and]
  | case7 left right pending harray hobject hsame ih =>
    rw [ih, List.forall_mem_cons]
    exact (and_iff_right (Equal.primitive hsame)).symm
  | case8 left right pending harray hobject hdiffers =>
    apply iff_of_false Bool.false_ne_true
    intro hall
    exact hdiffers ((equal_of_primitive (leaf_of_not harray hobject)).mp (hall _ List.mem_cons_self))

/-- `reflect.DeepEqual` on parsed JSON. -/
def deepEqual : Json σ ν → Json σ ν → Bool
  | .array left, .array right =>
    decide (left.length = right.length) &&
      (left.attach.zip right).all fun pair => deepEqual pair.1.1 pair.2
  | .object left, .object right =>
    decide ((own left).length = (own right).length) &&
      (own left).attach.all fun member =>
        match lookup member.1.1 right with
        | none => false
        | some other => deepEqual member.1.2 other
  | left, right => samePrimitive same left right
termination_by left => sizeOf left
decreasing_by
  · exact Json.sizeOf_item pair.1.2
  · exact Json.sizeOf_member (mem_of_lookup (mem_own.mp member.2))

theorem deepEqual_iff (left right : Json σ ν) :
    deepEqual same left right = true ↔ Equal same left right := by
  fun_induction deepEqual same left right with
  | case1 left right ih =>
    have hpairs : left.zip right = (left.attach.zip right).map (Prod.map Subtype.val id) := by
      rw [← List.zip_map, List.attach_map_subtype_val, List.map_id]
    rw [Bool.and_eq_true, decide_eq_true_eq, List.all_eq_true, equal_array_iff, hpairs,
      List.forall_mem_map]
    apply and_congr_right
    intro _
    apply forall₂_congr
    intro pair _
    exact ih pair
  | case2 left right ih =>
    rw [Bool.and_eq_true, decide_eq_true_eq, List.all_eq_true, equal_object_iff_own]
    apply and_congr_right
    intro _
    constructor
    · intro h member hmember
      have hfound := h ⟨member, hmember⟩ (List.mem_attach _ _)
      dsimp only at hfound
      split at hfound
      · cases hfound
      · rename_i other hother
        exact ⟨other, hother, (ih ⟨member, hmember⟩ other).mp hfound⟩
    · intro h member _
      obtain ⟨other, hother, hequal⟩ := h member.1 member.2
      rw [hother]
      exact (ih member other).mpr hequal
  | case3 left right harray hobject =>
    rw [equal_of_primitive (leaf_of_not harray hobject)]

end Equality

/-! ### The walk -/

section Walking

variable {σ ν : Type} [DecidableEq σ] (same : ν → ν → Bool) (below : Json σ ν → Json σ ν → Bool)
  (listing : Object σ ν → Object σ ν → List σ)

/-- The walk of TypeScript, Rust and Python below `tokens`. It may descend `room` steps more:
`room` and the number of tokens make up the depth cap. -/
def walk (room : ℕ) (tokens : List (Token σ)) (left right : Json σ ν) (state : Walk σ ν) : Walk σ ν :=
  if kind left ≠ kind right ∨ kind left = .primitive then
    if samePrimitive same left right then state else state.report ⟨tokens, some left, some right⟩
  else
    match room, left, right with
    | 0, left, right =>
      if below left right then state else state.report ⟨tokens, some left, some right⟩
    | room + 1, .array left, .array right =>
      if left.length ≠ right.length then state.report ⟨tokens, some (.array left), some (.array right)⟩
      else (left.zip right).zipIdx.foldl
        (fun state item => walk room (tokens ++ [.index item.2]) item.1.1 item.1.2 state) state
    | room + 1, .object left, .object right =>
      (listing left right).foldl
        (fun state name =>
          match lookup name left, lookup name right with
          | some a, some b => walk room (tokens ++ [.name name]) a b state
          | a, b => state.report ⟨tokens ++ [.name name], a, b⟩) state
    | _ + 1, _, _ => state

/-- Go's walk: values of different kinds are reported before anything else is compared. -/
def goWalk (room : ℕ) (tokens : List (Token σ)) (left right : Json σ ν) (state : Walk σ ν) : Walk σ ν :=
  if kind left ≠ kind right then state.report ⟨tokens, some left, some right⟩
  else if kind left = .primitive then
    if samePrimitive same left right then state else state.report ⟨tokens, some left, some right⟩
  else
    match room, left, right with
    | 0, left, right =>
      if below left right then state else state.report ⟨tokens, some left, some right⟩
    | room + 1, .array left, .array right =>
      if left.length ≠ right.length then state.report ⟨tokens, some (.array left), some (.array right)⟩
      else (left.zip right).zipIdx.foldl
        (fun state item => goWalk room (tokens ++ [.index item.2]) item.1.1 item.1.2 state) state
    | room + 1, .object left, .object right =>
      (listing left right).foldl
        (fun state name =>
          match lookup name left, lookup name right with
          | a, none => state.report ⟨tokens ++ [.name name], a, none⟩
          | none, b => state.report ⟨tokens ++ [.name name], none, b⟩
          | some a, some b => goWalk room (tokens ++ [.name name]) a b state) state
    | _ + 1, _, _ => state

def Walk.empty : Walk σ ν := ⟨[], 0⟩

/-- Report one entry after the other. -/
def Walk.reportAll (state : Walk σ ν) (entries : List (Entry σ ν)) : Walk σ ν :=
  entries.foldl Walk.report state

def belowTokens (tokens : List (Token σ)) (entry : Entry σ ν) : Entry σ ν :=
  { entry with tokens := tokens ++ entry.tokens }

omit [DecidableEq σ] in
theorem map_belowTokens_under (tokens : List (Token σ)) (token : Token σ) (entries : List (Entry σ ν)) :
    (entries.map (Entry.under token)).map (belowTokens tokens) =
      entries.map (belowTokens (tokens ++ [token])) := by
  rw [List.map_map]
  apply List.map_congr_left
  intro entry _
  simp [belowTokens, Entry.under]

omit [DecidableEq σ] in
/-- A loop whose rounds report is one report of everything. -/
theorem foldl_reportAll {α : Type} (f : Walk σ ν → α → Walk σ ν) (g : α → List (Entry σ ν))
    (h : ∀ state a, f state a = state.reportAll (g a)) (l : List α) (state : Walk σ ν) :
    l.foldl f state = state.reportAll (l.flatMap g) := by
  induction l generalizing state with
  | nil => rfl
  | cons a l ih =>
    rw [List.foldl_cons, ih, h, List.flatMap_cons, Walk.reportAll, Walk.reportAll, Walk.reportAll,
      List.foldl_append]

omit [DecidableEq σ] in
theorem reportAll_whole (test : Bool) (tokens : List (Token σ)) (left right : Json σ ν)
    (state : Walk σ ν) :
    (if test then state else state.report ⟨tokens, some left, some right⟩) =
      state.reportAll ((if test then [] else [whole left right]).map (belowTokens tokens)) := by
  cases test with
  | true => rfl
  | false =>
    simp only [Bool.false_eq_true, if_false, List.map_singleton, belowTokens, whole, List.append_nil]
    rfl

/-- The walk reports the differences in their order. -/
theorem walk_eq (room : ℕ) (tokens : List (Token σ)) (left right : Json σ ν) (state : Walk σ ν) :
    walk same below listing room tokens left right state = state.reportAll
      ((differences same below listing room left right).map (belowTokens tokens)) := by
  induction room, left, right using compare_induction generalizing tokens state with
  | leaf room left right hkind =>
    rw [walk.eq_def, if_pos hkind, differences_leaf same below listing hkind]
    exact reportAll_whole _ _ _ _ _
  | deep left right hkind =>
    rw [walk.eq_def, if_neg hkind, differences_zero same below listing hkind]
    exact reportAll_whole _ _ _ _ _
  | array room l r ih =>
    rw [walk.eq_def, if_neg (by simp [kind]), differences_array]
    dsimp only
    by_cases hlength : l.length = r.length
    · rw [if_neg (not_not_intro hlength), if_neg (not_not_intro hlength), List.map_flatMap]
      apply foldl_reportAll
      intro state item
      rw [ih, map_belowTokens_under]
    · rw [if_pos hlength, if_pos hlength]
      exact reportAll_whole false _ _ _ _
  | object room l r ih =>
    rw [walk.eq_def, if_neg (by simp [kind]), differences_object, List.map_flatMap]
    dsimp only
    apply foldl_reportAll
    intro state name
    rw [map_belowTokens_under]
    cases lookup name l with
    | none =>
      cases lookup name r <;> simp [memberDifferences, belowTokens, Walk.reportAll]
    | some a =>
      cases lookup name r with
      | none => simp [memberDifferences, belowTokens, Walk.reportAll]
      | some b => exact ih a b _ state

/-- Values of different kinds are no equal primitives, so that both walks are one function. -/
theorem goWalk_eq (room : ℕ) (tokens : List (Token σ)) (left right : Json σ ν) (state : Walk σ ν) :
    goWalk same below listing room tokens left right state =
      walk same below listing room tokens left right state := by
  induction room, left, right using compare_induction generalizing tokens state with
  | leaf room left right hkind =>
    rw [goWalk.eq_def, walk.eq_def, if_pos hkind]
    by_cases hsame : kind left = kind right
    · rw [if_neg (not_not_intro hsame), if_pos (hkind.resolve_left (not_not_intro hsame))]
    · rw [if_pos hsame, samePrimitive_of_kind_ne hsame]
      rfl
  | deep left right hkind =>
    rw [goWalk.eq_def, walk.eq_def, if_neg hkind]
    rw [not_or] at hkind
    rw [if_neg hkind.1, if_neg hkind.2]
  | array room l r ih =>
    rw [goWalk.eq_def, walk.eq_def]
    simp only [ih, kind, ne_eq, not_true_eq_false, if_false, reduceCtorEq, or_self]
  | object room l r ih =>
    rw [goWalk.eq_def, walk.eq_def]
    simp only [kind, ne_eq, not_true_eq_false, if_false, reduceCtorEq, or_self]
    congr 1
    funext state name
    cases lookup name l with
    | none => cases lookup name r <;> rfl
    | some a =>
      cases lookup name r with
      | none => rfl
      | some b => exact ih a b _ state

end Walking

/-! ### Reports -/

section Reports

variable {σ ν : Type}

/-- The kept reports are the first ones; the count is that of all. -/
theorem reportAll_empty (entries : List (Entry σ ν)) :
    (Walk.empty.reportAll entries : Walk σ ν) = ⟨entries.take maxEntries, entries.length⟩ := by
  induction entries using List.reverseRecOn with
  | nil => rfl
  | append_singleton entries entry ih =>
    rw [Walk.reportAll] at ih
    rw [Walk.reportAll, List.foldl_append, ih, List.foldl_cons, List.foldl_nil, Walk.report,
      List.length_append, List.length_singleton, List.length_take, Walk.mk.injEq]
    refine ⟨?_, rfl⟩
    dsimp only
    by_cases h : entries.length < maxEntries
    · rw [Nat.min_eq_right (Nat.le_of_lt h), if_pos h, List.take_of_length_le (Nat.le_of_lt h),
        List.take_of_length_le]
      rw [List.length_append, List.length_singleton]
      exact h
    · rw [Nat.min_eq_left (Nat.not_lt.mp h), if_neg (Nat.lt_irrefl _),
        List.take_append_of_le_length (Nat.not_lt.mp h)]

variable [DecidableEq σ] (same : ν → ν → Bool) (below : Json σ ν → Json σ ν → Bool)
  (listing : Object σ ν → Object σ ν → List σ)

theorem walk_root (room : ℕ) (cached source : Json σ ν) :
    walk same below listing room [] cached source Walk.empty =
      ⟨(differences same below listing room cached source).take maxEntries,
        (differences same below listing room cached source).length⟩ := by
  have hid : (belowTokens [] : Entry σ ν → Entry σ ν) = id := rfl
  rw [walk_eq, hid, List.map_id, reportAll_empty]

end Reports

/-! ### Names in order -/

/-- An order in which a host enumerates names. -/
structure Enumeration (σ : Type) where
  list : List σ → List σ
  perm : ∀ names, (list names).Perm names

section Names

variable {σ ν : Type} [DecidableEq σ]

variable (le : σ → σ → Bool) (keys : Enumeration σ) (left right : Object σ ν)

/-- The names of the left side, then those that only the right side has. -/
def union : List σ :=
  names left ++ (names right).filter fun name => (lookup name left).isNone

/-- The union as the hosts build it, sorted. -/
def sortedNames : List σ :=
  (keys.list (names left) ++
    (keys.list (names right)).filter fun name => (lookup name left).isNone).mergeSort le

/-- The union of two key sets, which has no order of its own, sorted. -/
def sortedUnion : List σ :=
  (keys.list (union left right)).mergeSort le

theorem perm_union :
    (keys.list (names left) ++
      (keys.list (names right)).filter fun name => (lookup name left).isNone).Perm (union left right) :=
  (keys.perm _).append ((keys.perm _).filter _)

theorem mem_union (name : σ) : name ∈ union left right ↔
    (lookup name left).isSome = true ∨ (lookup name right).isSome = true := by
  rw [union, List.mem_append, List.mem_filter, mem_names, mem_names]
  cases (lookup name left) <;> simp

theorem nodup_union : (union left right).Nodup := by
  rw [union, List.nodup_append]
  refine ⟨nodup_names left, (nodup_names right).filter _, ?_⟩
  intro a ha b hb hab
  rw [mem_names] at ha
  rw [List.mem_filter, ← hab, Option.isNone_iff_eq_none] at hb
  rw [hb.2] at ha
  cases ha

omit [DecidableEq σ] in
/-- Names sorted by a key that tells them apart are in strict order. -/
theorem pairwise_of_key {key : σ → List ℕ} (hkey : Function.Injective key) {l : List σ} (hl : l.Nodup) :
    (l.mergeSort fun a b => decide (key a ≤ key b)).Pairwise fun a b => key a < key b := by
  have hsorted : (l.mergeSort fun a b => decide (key a ≤ key b)).Pairwise
      fun a b => decide (key a ≤ key b) = true := by
    apply List.pairwise_mergeSort
    · intro a b c hab hbc
      rw [decide_eq_true_eq] at hab hbc ⊢
      exact le_trans hab hbc
    · intro a b
      rw [Bool.or_eq_true, decide_eq_true_eq, decide_eq_true_eq]
      exact le_total _ _
  have hnodup := (List.mergeSort_perm l fun a b => decide (key a ≤ key b)).nodup_iff.mpr hl
  apply (hsorted.and hnodup).imp
  intro a b hab
  exact lt_of_le_of_ne (of_decide_eq_true hab.1) fun heq => hab.2 (hkey heq)

theorem lawful_sortedNames {same : ν → ν → Bool} {below : Json σ ν → Json σ ν → Bool}
    (hbelow : ∀ left right, below left right = true ↔ Equal same left right) {key : σ → List ℕ}
    (hkey : Function.Injective key) (keys : Enumeration σ) :
    Lawful same below (sortedNames (fun a b => decide (key a ≤ key b)) keys)
      fun a b => key a < key b where
  below_iff := hbelow
  mem_listing := by
    intro left right name
    rw [sortedNames, (List.mergeSort_perm _ _).mem_iff, (perm_union keys left right).mem_iff, mem_union]
  sorted := by
    intro left right
    apply pairwise_of_key hkey
    exact (perm_union keys left right).nodup_iff.mpr (nodup_union left right)
  irrefl := fun name => lt_irrefl _

end Names

section OtherNames

variable {σ τ ν μ : Type} [DecidableEq σ] [DecidableEq τ] {f : σ → τ} {g : ν → μ}

theorem names_map (hf : Function.Injective f) (members : Object σ ν) :
    names (members.map fun member => (f member.1, member.2.map f g)) = (names members).map f := by
  rw [names, own_map hf (Json.map f g), names, List.map_map, List.map_map]
  rfl

theorem union_map (hf : Function.Injective f) (left right : Object σ ν) :
    union (left.map fun member => (f member.1, member.2.map f g))
      (right.map fun member => (f member.1, member.2.map f g)) = (union left right).map f := by
  rw [union, names_map hf, names_map hf, List.filter_map, union, List.map_append]
  congr 2
  apply List.filter_congr
  intro name _
  rw [Function.comp_apply, lookup_members hf, Option.isNone_map]

/-- An order on names that is total, and on the image of `f` that of a key. -/
structure Orders (key : σ → List ℕ) (f : σ → τ) (le : τ → τ → Bool) : Prop where
  trans : ∀ a b c, le a b = true → le b c = true → le a c = true
  total : ∀ a b, (le a b || le b a) = true
  image : ∀ a b, le (f a) (f b) = decide (key a ≤ key b)

variable {le : τ → τ → Bool}

omit [DecidableEq σ] [DecidableEq τ] in
/-- Names in the order of their ranks. -/
theorem orders_of_rank {β : Type} [LinearOrder β] (rank : τ → β)
    (hle : ∀ a b, le a b = true ↔ rank a ≤ rank b) {key : σ → List ℕ}
    (image : ∀ a b, le (f a) (f b) = decide (key a ≤ key b)) : Orders key f le where
  trans a b c := by
    rw [hle, hle, hle]
    exact le_trans
  total a b := by
    rw [Bool.or_eq_true, hle, hle]
    exact le_total _ _
  image := image

omit [DecidableEq σ] [DecidableEq τ] in
/-- Sorted by another host, the names come in the same order. -/
theorem mergeSort_map_eq {key : σ → List ℕ} (hkey : Function.Injective key) (hle : Orders key f le)
    {l : List σ} {l' : List τ} (h : l'.Perm (l.map f)) :
    l'.mergeSort le = (l.mergeSort fun a b => decide (key a ≤ key b)).map f := by
  have hmap : (l.mergeSort fun a b => decide (key a ≤ key b)).map f = (l.map f).mergeSort le :=
    List.map_mergeSort fun a _ b _ => (hle.image a b).symm
  rw [hmap]
  apply List.Perm.eq_of_pairwise _ (List.pairwise_mergeSort hle.trans hle.total _)
    (List.pairwise_mergeSort hle.trans hle.total _)
    ((List.mergeSort_perm _ _).trans (h.trans (List.mergeSort_perm _ _).symm))
  intro a b ha hb hab hba
  rw [(List.mergeSort_perm _ _).mem_iff, h.mem_iff] at ha
  rw [(List.mergeSort_perm _ _).mem_iff] at hb
  obtain ⟨a, -, rfl⟩ := List.mem_map.mp ha
  obtain ⟨b, -, rfl⟩ := List.mem_map.mp hb
  rw [hle.image, decide_eq_true_eq] at hab hba
  rw [hkey (le_antisymm hab hba)]

variable (hf : Function.Injective f) {key : σ → List ℕ} (hkey : Function.Injective key)
  (hle : Orders key f le) (keys : Enumeration σ) (keys' : Enumeration τ)
  (left right : Object σ ν)
include hf hkey hle

theorem sortedNames_map :
    sortedNames le keys' (left.map fun member => (f member.1, member.2.map f g))
        (right.map fun member => (f member.1, member.2.map f g)) =
      (sortedNames (fun a b => decide (key a ≤ key b)) keys left right).map f := by
  apply mergeSort_map_eq hkey hle
  refine (perm_union keys' _ _).trans ?_
  rw [union_map hf]
  exact (perm_union keys left right).symm.map f

theorem sortedUnion_map :
    sortedUnion le keys' (left.map fun member => (f member.1, member.2.map f g))
        (right.map fun member => (f member.1, member.2.map f g)) =
      (sortedNames (fun a b => decide (key a ≤ key b)) keys left right).map f := by
  apply mergeSort_map_eq hkey hle
  refine (keys'.perm _).trans ?_
  rw [union_map hf]
  exact (perm_union keys left right).symm.map f

end OtherNames

/-! ### The ports

Numbers are compared as doubles. `double` gives the value of a number as a double, the same
for the two zeros. -/

section Ports

variable {ν δ : Type} [DecidableEq δ] (double : ν → δ)

def sameDouble (m n : ν) : Bool := decide (double m = double n)

def TypeScript.unitsLe (left right : JsString) : Bool :=
  decide (left.map UInt16.toNat ≤ right.map UInt16.toNat)

def TypeScript.walkJson (keys : Enumeration JsString) (cached source : Json JsString ν) : Walk JsString ν :=
  walk (sameDouble double) (fun left right => jsonValuesEqual (sameDouble double) [(left, right)])
    (sortedNames TypeScript.unitsLe keys) maxDepth [] cached source Walk.empty

def Rust.walkJson (keys : Enumeration Text) (cached source : Json Text ν) : Walk Text ν :=
  walk (sameDouble double) (fun left right => jsonValuesEqual (sameDouble double) [(left, right)])
    (sortedNames (fun a b => (Rust.compareUtf16 a b).isLE) keys) maxDepth [] cached source Walk.empty

def Python.walk (keys : Enumeration Python.PyString) (cached source : Json Python.PyString ν) :
    Walk Python.PyString ν :=
  DifferenceWalks.walk (sameDouble double)
    (fun left right => jsonValuesEqual (sameDouble double) [(left, right)])
    (sortedUnion (fun a b => decide (Python.sortKey a ≤ Python.sortKey b)) keys) maxDepth [] cached
    source Walk.empty

def Go.walkJson (keys : Enumeration Bytes) (cached source : Json Bytes ν) :
    Walk Bytes ν :=
  goWalk (sameDouble double) (deepEqual (sameDouble double))
    (sortedNames (fun a b => !Go.utf16Less b a) keys) maxDepth [] cached source Walk.empty

/-- The orders of the ports on names of scalars. -/
theorem TypeScript.orders : Orders unitKey units TypeScript.unitsLe :=
  orders_of_rank (List.map UInt16.toNat) (fun _ _ => decide_eq_true_iff) fun _ _ => rfl

theorem Rust.le_eq (a b : Text) : (Rust.compareUtf16 a b).isLE = decide (unitKey a ≤ unitKey b) := by
  rw [Bool.eq_iff_iff, Rust.compareUtf16, Rust.compareUnits_isLE, decide_eq_true_eq]
  exact Iff.rfl

theorem Rust.orders : Orders unitKey id fun a b => (Rust.compareUtf16 a b).isLE :=
  orders_of_rank unitKey (fun a b => by rw [Rust.le_eq, decide_eq_true_eq]) Rust.le_eq

theorem Go.le_eq (a b : Bytes) :
    (!Go.utf16Less b a) = decide (unitKey (decodeUtf8 a) ≤ unitKey (decodeUtf8 b)) := by
  rw [Bool.eq_iff_iff, Bool.not_eq_true', ← Bool.not_eq_true, Go.utf16Less, Go.unitsLess_iff,
    decide_eq_true_eq]
  exact not_lt

theorem Go.orders : Orders unitKey encodeUtf8 fun a b => !Go.utf16Less b a := by
  apply orders_of_rank fun name => unitKey (decodeUtf8 name)
  · intro a b
    rw [Go.le_eq, decide_eq_true_eq]
  · intro a b
    rw [Go.le_eq, decodeUtf8_encodeUtf8, decodeUtf8_encodeUtf8]

theorem Python.orders :
    Orders unitKey Python.codePoints fun a b => decide (Python.sortKey a ≤ Python.sortKey b) := by
  apply orders_of_rank Python.sortKey
  · intro a b
    rw [decide_eq_true_eq]
  · intro a b
    rw [decide_eq_decide, Python.sortKey, Python.sortKey, Python.utf16Units_codePoints,
      Python.utf16Units_codePoints, Python.bytes_le_iff]
    exact Iff.rfl

/-- How a port holds the numbers of a document. -/
structure Reading where
  Number : Type
  read : ν → Number
  toDouble : Number → δ
  reads : ∀ n, toDouble (read n) = double n

theorem Reading.same (reading : Reading double) (m n : ν) :
    sameDouble reading.toDouble (reading.read m) (reading.read n) = sameDouble double m n := by
  rw [sameDouble, reading.reads, reading.reads]
  rfl

def Walk.map {σ τ ν μ : Type} (f : σ → τ) (g : ν → μ) (walk : Walk σ ν) : Walk τ μ :=
  ⟨walk.entries.map (Entry.map f g), walk.count⟩

theorem below_iff {σ : Type} [DecidableEq σ] (left right : Json σ ν) :
    jsonValuesEqual (sameDouble double) [(left, right)] = true ↔ Equal (sameDouble double) left right := by
  rw [jsonValuesEqual_iff, List.forall_mem_singleton]

/-- The walk over text, with names in the order of their UTF-16 code units. -/
def textWalk (keys : Enumeration Text) (cached source : Json Text ν) : Walk Text ν :=
  walk (sameDouble double) (fun left right => jsonValuesEqual (sameDouble double) [(left, right)])
    (sortedNames (fun a b => decide (unitKey a ≤ unitKey b)) keys) maxDepth [] cached source Walk.empty

/-- A host that holds its own strings and numbers walks as text is walked. -/
theorem walk_of_text {τ : Type} [DecidableEq τ] {f : Text → τ} (hf : Function.Injective f)
    (reading : Reading double) {below : Json τ reading.Number → Json τ reading.Number → Bool}
    (hbelow : ∀ left right, below left right = true ↔ Equal (sameDouble reading.toDouble) left right)
    {listing : List (τ × Json τ reading.Number) → List (τ × Json τ reading.Number) → List τ}
    (keys : Enumeration Text)
    (hlisting : ∀ left right : List (Text × Json Text ν),
      listing (left.map fun member => (f member.1, member.2.map f reading.read))
          (right.map fun member => (f member.1, member.2.map f reading.read)) =
        (sortedNames (fun a b => decide (unitKey a ≤ unitKey b)) keys left right).map f)
    (cached source : Json Text ν) :
    walk (sameDouble reading.toDouble) below listing maxDepth [] (cached.map f reading.read)
        (source.map f reading.read) Walk.empty =
      (textWalk double keys cached source).map f reading.read := by
  have hsame : ∀ left right : Json Text ν,
      below (left.map f reading.read) (right.map f reading.read) =
        jsonValuesEqual (sameDouble double) [(left, right)] := by
    intro left right
    rw [Bool.eq_iff_iff, hbelow, below_iff, equal_map_iff hf reading.same]
  rw [walk_root, textWalk, walk_root, Walk.map, differences_map hf reading.same hsame hlisting,
    List.length_map, List.map_take]

theorem units_injective : Function.Injective units := by
  intro s t h
  rw [← scalars_units s, h, scalars_units]

theorem encodeUtf8_injective : Function.Injective encodeUtf8 := by
  intro s t h
  rw [← decodeUtf8_encodeUtf8 s, h, decodeUtf8_encodeUtf8]

theorem codePoints_injective : Function.Injective Python.codePoints := by
  intro s t h
  apply units_injective
  rw [← Python.utf16Units_codePoints, h, Python.utf16Units_codePoints]

theorem unitKey_injective : Function.Injective unitKey := fun _ _ h => unitKey_inj h

theorem toNats_injective : Function.Injective fun s : JsString => s.map UInt16.toNat := by
  apply List.map_injective_iff.mpr
  intro a b h
  exact UInt16.toNat_inj.mp h

/-- The walk is exact and complete: nothing is reported exactly for equal values; the reports
are all differences, in the order of the walk, none below another, with the sides that the
values have there; the first of them are kept; and when all are kept, they turn the cached
value into the source value. On documents of scalar text the ports report the same. -/
theorem walk_exact (double : ν → δ) :
    (∀ (keys : Enumeration JsString) (cached source : Json JsString ν),
      ((TypeScript.walkJson double keys cached source).count = 0 ↔
        Equal (sameDouble double) cached source) ∧
      (∃ all : List (Entry JsString ν),
        TypeScript.walkJson double keys cached source = ⟨all.take maxEntries, all.length⟩ ∧
        (∀ entry, entry ∈ all ↔ Differs (sameDouble double) maxDepth cached source entry.tokens
          entry.cached entry.source) ∧
        (all.Pairwise fun first second =>
          Before (fun a b : JsString => a.map UInt16.toNat < b.map UInt16.toNat) first.tokens
            second.tokens) ∧
        (all.Pairwise fun first second =>
          ¬ first.tokens <+: second.tokens ∧ ¬ second.tokens <+: first.tokens) ∧
        ∀ entry ∈ all, entry.tokens.length ≤ maxDepth ∧
          entry.cached = subvalue entry.tokens cached ∧ entry.source = subvalue entry.tokens source ∧
          (entry.cached.isSome ≠ entry.source.isSome ↔ OneSided cached source entry.tokens) ∧
          (entry.cached.isSome = true ∨ entry.source.isSome = true)) ∧
      ((TypeScript.walkJson double keys cached source).count ≤ maxEntries →
        ∃ patched, patchAll ((TypeScript.walkJson double keys cached source).entries.map Entry.patch)
          (some cached) = some patched ∧ Equal (sameDouble double) patched source)) ∧
    ∀ cached source : Json Text ν, ∃ result : Walk Text ν,
      (∀ (keys : Enumeration JsString) (reading : Reading double),
        TypeScript.walkJson reading.toDouble keys (cached.map units reading.read)
          (source.map units reading.read) = result.map units reading.read) ∧
      (∀ (keys : Enumeration (List UInt8)) (reading : Reading double),
        Go.walkJson reading.toDouble keys (cached.map encodeUtf8 reading.read)
          (source.map encodeUtf8 reading.read) = result.map encodeUtf8 reading.read) ∧
      (∀ (keys : Enumeration Text) (reading : Reading double),
        Rust.walkJson reading.toDouble keys (cached.map id reading.read) (source.map id reading.read) =
          result.map id reading.read) ∧
      (∀ (keys : Enumeration Python.PyString) (reading : Reading double),
        Python.walk reading.toDouble keys (cached.map Python.codePoints reading.read)
          (source.map Python.codePoints reading.read) = result.map Python.codePoints reading.read) := by
  constructor
  · intro keys cached source
    have hlawful : Lawful (sameDouble double)
        (fun left right => jsonValuesEqual (sameDouble double) [(left, right)])
        (sortedNames TypeScript.unitsLe keys)
        fun a b : JsString => a.map UInt16.toNat < b.map UInt16.toNat :=
      lawful_sortedNames (below_iff double) toNats_injective keys
    have hwalk := walk_root (sameDouble double)
      (fun left right => jsonValuesEqual (sameDouble double) [(left, right)])
      (sortedNames TypeScript.unitsLe keys) maxDepth cached source
    have hrefl : ∀ n, sameDouble double n n = true := fun n => decide_eq_true rfl
    rw [TypeScript.walkJson, hwalk]
    refine ⟨?_, ⟨_, rfl, ?_, ?_, ?_, ?_⟩, ?_⟩
    · rw [List.length_eq_zero_iff]
      exact differences_eq_nil_iff hlawful maxDepth cached source
    · exact mem_differences_iff hlawful maxDepth cached source
    · exact pairwise_differences hlawful maxDepth cached source
    · apply (pairwise_differences hlawful maxDepth cached source).imp
      intro first second hbefore
      exact hbefore.not_isPrefix hlawful.irrefl
    · intro entry hentry
      have hdiffers := (mem_differences_iff hlawful maxDepth cached source entry).mp hentry
      exact ⟨hdiffers.length_le, hdiffers.sides.1, hdiffers.sides.2, hdiffers.absent_iff⟩
    · intro hcount
      dsimp only at hcount ⊢
      rw [List.take_of_length_le hcount]
      exact patchAll_differences hlawful hrefl maxDepth cached source
  · intro cached source
    let keys : Enumeration Text := ⟨id, fun _ => List.Perm.refl _⟩
    refine ⟨textWalk double keys cached source, ?_, ?_, ?_, ?_⟩
    · intro keys' reading
      exact walk_of_text double units_injective reading (below_iff reading.toDouble) keys
        (sortedNames_map units_injective unitKey_injective TypeScript.orders keys keys') cached source
    · intro keys' reading
      rw [Go.walkJson, goWalk_eq]
      exact walk_of_text double encodeUtf8_injective reading (deepEqual_iff (sameDouble reading.toDouble))
        keys (sortedNames_map encodeUtf8_injective unitKey_injective Go.orders keys keys') cached source
    · intro keys' reading
      exact walk_of_text double Function.injective_id reading (below_iff reading.toDouble) keys
        (sortedNames_map Function.injective_id unitKey_injective Rust.orders keys keys') cached source
    · intro keys' reading
      exact walk_of_text double codePoints_injective reading (below_iff reading.toDouble) keys
        (sortedUnion_map codePoints_injective unitKey_injective Python.orders keys keys') cached source

end Ports

end DialCache.DifferenceWalks
