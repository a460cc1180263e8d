import DialCache.JsonTrees

/-!
# Differences of two JSON trees

What it means that a cached tree and a source tree differ at a place, down to a depth behind
which containers are only compared as a whole, and the list of all such places in the order
of a walk. Two places of the list never lie below each other, and putting the source side at
every place turns the cached tree into the source tree.
-/

namespace DialCache.JsonDifferences

open JsonTrees

/-- A place and what the two trees have there. -/
structure Entry (σ ν : Type) where
  tokens : List (Token σ)
  cached : Option (Json σ ν)
  source : Option (Json σ ν)

def Entry.under {σ ν : Type} (token : Token σ) (entry : Entry σ ν) : Entry σ ν :=
  { entry with tokens := token :: entry.tokens }

def Entry.patch {σ ν : Type} (entry : Entry σ ν) : Patch σ ν := ⟨entry.tokens, entry.source⟩

/-! ### Order of places -/

section Order

variable {σ : Type} (less : σ → σ → Prop)

/-- Items by index, members by name. -/
def TokenLess : Token σ → Token σ → Prop
  | .index i, .index j => i < j
  | .name a, .name b => less a b
  | _, _ => False

/-- The first place is left of the second one, where their paths part. -/
inductive Before : List (Token σ) → List (Token σ) → Prop
  | here {t u : Token σ} (p q : List (Token σ)) (h : TokenLess less t u) : Before (t :: p) (u :: q)
  | there {p q : List (Token σ)} (t : Token σ) (h : Before p q) : Before (t :: p) (t :: q)

variable {less}

theorem Before.not_isPrefix (hless : ∀ a, ¬ less a a) {p q : List (Token σ)} (h : Before less p q) :
    ¬ p <+: q ∧ ¬ q <+: p := by
  induction h with
  | @here t u p q h =>
    have hne : t ≠ u := by
      rintro rfl
      cases t with
      | index n => exact Nat.lt_irrefl n h
      | name s => exact hless s h
    constructor
    · intro hstart
      exact hne (List.cons_prefix_cons.mp hstart).1
    · intro hstart
      exact hne (List.cons_prefix_cons.mp hstart).1.symm
  | there t h ih =>
    constructor
    · intro hstart
      exact ih.1 (List.cons_prefix_cons.mp hstart).2
    · intro hstart
      exact ih.2 (List.cons_prefix_cons.mp hstart).2

end Order

section Differences

variable {σ ν : Type} [DecidableEq σ] (same : ν → ν → Bool)

/-- `Differs room left right tokens cached source`: the trees differ at `tokens`, where they have
`cached` and `source`. Containers `room` steps down are compared whole. -/
inductive Differs : ℕ → Json σ ν → Json σ ν → List (Token σ) → Option (Json σ ν) →
    Option (Json σ ν) → Prop
  | leaf {room : ℕ} {left right : Json σ ν} (hkind : kind left ≠ kind right ∨ kind left = .primitive)
      (h : samePrimitive same left right = false) : Differs room left right [] (some left) (some right)
  | deep {left right : Json σ ν} (hkind : kind left = kind right) (hcontainer : kind left ≠ .primitive)
      (h : ¬ Equal same left right) : Differs 0 left right [] (some left) (some right)
  | lengths {room : ℕ} {left right : List (Json σ ν)} (h : left.length ≠ right.length) :
      Differs (room + 1) (.array left) (.array right) [] (some (.array left)) (some (.array right))
  | item {room i : ℕ} {left right : List (Json σ ν)} {a b : Json σ ν} {tokens : List (Token σ)}
      {cached source : Option (Json σ ν)} (hlength : left.length = right.length)
      (ha : left[i]? = some a) (hb : right[i]? = some b) (h : Differs room a b tokens cached source) :
      Differs (room + 1) (.array left) (.array right) (.index i :: tokens) cached source
  | onlyCached {room : ℕ} {left right : Object σ ν} {name : σ} {a : Json σ ν}
      (ha : lookup name left = some a) (hb : lookup name right = none) :
      Differs (room + 1) (.object left) (.object right) [.name name] (some a) none
  | onlySource {room : ℕ} {left right : Object σ ν} {name : σ} {b : Json σ ν}
      (ha : lookup name left = none) (hb : lookup name right = some b) :
      Differs (room + 1) (.object left) (.object right) [.name name] none (some b)
  | member {room : ℕ} {left right : Object σ ν} {name : σ} {a b : Json σ ν}
      {tokens : List (Token σ)} {cached source : Option (Json σ ν)} (ha : lookup name left = some a)
      (hb : lookup name right = some b) (h : Differs room a b tokens cached source) :
      Differs (room + 1) (.object left) (.object right) (.name name :: tokens) cached source

variable {same}

section Facts

variable {room : ℕ} {left right : Json σ ν} {tokens : List (Token σ)} {cached source : Option (Json σ ν)}

theorem Differs.length_le (h : Differs same room left right tokens cached source) :
    tokens.length ≤ room := by
  induction h with
  | leaf hkind h => exact Nat.zero_le _
  | deep hkind hcontainer h => exact Nat.le_refl 0
  | lengths h => exact Nat.zero_le _
  | item hlength ha hb h ih => exact Nat.succ_le_succ ih
  | onlyCached ha hb | onlySource ha hb => exact Nat.succ_le_succ (Nat.zero_le _)
  | member ha hb h ih => exact Nat.succ_le_succ ih

/-- The sides are what the trees have at the place. -/
theorem Differs.sides (h : Differs same room left right tokens cached source) :
    cached = subvalue tokens left ∧ source = subvalue tokens right := by
  induction h with
  | leaf hkind h | deep hkind hcontainer h | lengths h => exact ⟨rfl, rfl⟩
  | item hlength ha hb h ih =>
    rw [subvalue, subvalue, ha, hb, Option.bind_some, Option.bind_some]
    exact ih
  | onlyCached ha hb | onlySource ha hb =>
    rw [subvalue, subvalue, ha, hb, Option.bind_some, Option.bind_none]
    exact ⟨rfl, rfl⟩
  | member ha hb h ih =>
    rw [subvalue, subvalue, ha, hb, Option.bind_some, Option.bind_some]
    exact ih

/-- A member that only one of two objects has: that of `tokens` in the objects above it. -/
def OneSided (left right : Json σ ν) (tokens : List (Token σ)) : Prop :=
  ∃ above name leftMembers rightMembers, tokens = above ++ [.name name] ∧
    subvalue above left = some (.object leftMembers) ∧
    subvalue above right = some (.object rightMembers) ∧
    (lookup name leftMembers).isSome ≠ (lookup name rightMembers).isSome

theorem OneSided.item {i : ℕ} {left right : List (Json σ ν)} {a b : Json σ ν} (ha : left[i]? = some a)
    (hb : right[i]? = some b) (h : OneSided a b tokens) :
    OneSided (.array left) (.array right) (.index i :: tokens) := by
  obtain ⟨above, name, leftMembers, rightMembers, htokens, hleft, hright, hone⟩ := h
  refine ⟨.index i :: above, name, leftMembers, rightMembers, ?_, ?_, ?_, hone⟩
  · rw [htokens, List.cons_append]
  · rw [subvalue, ha, Option.bind_some, hleft]
  · rw [subvalue, hb, Option.bind_some, hright]

theorem OneSided.member {name : σ} {left right : Object σ ν} {a b : Json σ ν}
    (ha : lookup name left = some a) (hb : lookup name right = some b) (h : OneSided a b tokens) :
    OneSided (.object left) (.object right) (.name name :: tokens) := by
  obtain ⟨above, name', leftMembers, rightMembers, htokens, hleft, hright, hone⟩ := h
  refine ⟨.name name :: above, name', leftMembers, rightMembers, ?_, ?_, ?_, hone⟩
  · rw [htokens, List.cons_append]
  · rw [subvalue, ha, Option.bind_some, hleft]
  · rw [subvalue, hb, Option.bind_some, hright]

/-- A side is absent only for a member of the other side, and never both are. -/
theorem Differs.present_or_oneSided (h : Differs same room left right tokens cached source) :
    (cached.isSome = true ∧ source.isSome = true) ∨
      (cached.isSome ≠ source.isSome ∧ OneSided left right tokens) := by
  induction h with
  | leaf hkind h | deep hkind hcontainer h | lengths h => exact Or.inl ⟨rfl, rfl⟩
  | item hlength ha hb h ih =>
    rcases ih with hboth | ⟨hsides, hone⟩
    · exact Or.inl hboth
    · exact Or.inr ⟨hsides, hone.item ha hb⟩
  | @onlyCached room left right name a ha hb | @onlySource room left right name b ha hb =>
    refine Or.inr ⟨by simp, [], name, left, right, rfl, rfl, rfl, ?_⟩
    simp [ha, hb]
  | member ha hb h ih =>
    rcases ih with hboth | ⟨hsides, hone⟩
    · exact Or.inl hboth
    · exact Or.inr ⟨hsides, hone.member ha hb⟩

theorem OneSided.sides (h : OneSided left right tokens) :
    (subvalue tokens left).isSome ≠ (subvalue tokens right).isSome := by
  obtain ⟨above, name, leftMembers, rightMembers, rfl, hleft, hright, hone⟩ := h
  have hlast : ∀ (value : Json σ ν) (members : Object σ ν),
      subvalue above value = some (.object members) →
      (subvalue (above ++ [.name name]) value).isSome = (lookup name members).isSome := by
    intro value members hvalue
    rw [subvalue_append, hvalue, Option.bind_some, subvalue]
    cases lookup name members <;> rfl
  rw [hlast left leftMembers hleft, hlast right rightMembers hright]
  exact hone

/-- One side is absent exactly at a member that only one of the objects above it has, and at
least one side is there. -/
theorem Differs.absent_iff (h : Differs same room left right tokens cached source) :
    (cached.isSome ≠ source.isSome ↔ OneSided left right tokens) ∧
      (cached.isSome = true ∨ source.isSome = true) := by
  have hsides := h.sides
  rcases h.present_or_oneSided with hboth | ⟨hone, hmember⟩
  · rw [hboth.1, hboth.2]
    refine ⟨iff_of_false (not_not_intro rfl) ?_, Or.inl rfl⟩
    intro hmember
    apply hmember.sides
    rw [← hsides.1, ← hsides.2, hboth.1, hboth.2]
  · refine ⟨iff_of_true hone hmember, ?_⟩
    cases hcached : cached.isSome with
    | true => exact Or.inl rfl
    | false =>
      right
      cases hsource : source.isSome with
      | true => rfl
      | false =>
        rw [hcached, hsource] at hone
        exact absurd rfl hone

theorem Differs.source_of_root (h : Differs same room left right tokens cached source)
    (htokens : tokens = []) : source.isSome = true := by
  have hsource := h.sides.2
  rw [htokens, subvalue] at hsource
  rw [hsource]
  rfl

end Facts

/-! ### The list of differences -/

variable (same) (below : Json σ ν → Json σ ν → Bool)
  (listing : Object σ ν → Object σ ν → List σ)

/-- What is below a name. -/
def memberDifferences (differences : Json σ ν → Json σ ν → List (Entry σ ν)) :
    Option (Json σ ν) → Option (Json σ ν) → List (Entry σ ν)
  | some a, some b => differences a b
  | a, b => [⟨[], a, b⟩]

def whole (left right : Json σ ν) : Entry σ ν := ⟨[], some left, some right⟩

def differences (room : ℕ) (left right : Json σ ν) : List (Entry σ ν) :=
  if kind left ≠ kind right ∨ kind left = .primitive then
    if samePrimitive same left right then [] else [whole left right]
  else
    match room, left, right with
    | 0, left, right => if below left right then [] else [whole left right]
    | room + 1, .array left, .array right =>
      if left.length ≠ right.length then [whole (.array left) (.array right)]
      else (left.zip right).zipIdx.flatMap fun item =>
        (differences room item.1.1 item.1.2).map (Entry.under (.index item.2))
    | room + 1, .object left, .object right =>
      (listing left right).flatMap fun name =>
        (memberDifferences (differences room) (lookup name left) (lookup name right)).map
          (Entry.under (.name name))
    | _ + 1, _, _ => []

omit [DecidableEq σ] in
/-- Two trees are a leaf of the comparison, two arrays or two objects. -/
theorem kind_cases (left right : Json σ ν) :
    (kind left ≠ kind right ∨ kind left = .primitive) ∨
      (∃ l r, left = .array l ∧ right = .array r) ∨ ∃ l r, left = .object l ∧ right = .object r := by
  cases left with
  | array l =>
    cases right with
    | array r => exact Or.inr (Or.inl ⟨l, r, rfl, rfl⟩)
    | _ => exact Or.inl (Or.inl (by simp [kind]))
  | object l =>
    cases right with
    | object r => exact Or.inr (Or.inr ⟨l, r, rfl, rfl⟩)
    | _ => exact Or.inl (Or.inl (by simp [kind]))
  | _ => exact Or.inl (Or.inr rfl)

omit [DecidableEq σ] in
theorem leaf_of_not {left right : Json σ ν} (harray : ∀ l r, left = .array l → right = .array r → False)
    (hobject : ∀ l r, left = .object l → right = .object r → False) :
    kind left ≠ kind right ∨ kind left = .primitive := by
  rcases kind_cases left right with hkind | ⟨l, r, rfl, rfl⟩ | ⟨l, r, rfl, rfl⟩
  · exact hkind
  · exact absurd rfl (harray l r rfl)
  · exact absurd rfl (hobject l r rfl)

omit [DecidableEq σ] in
/-- Induction along a comparison: leaves, containers at the depth cap, arrays and objects. -/
theorem compare_induction {motive : ℕ → Json σ ν → Json σ ν → Prop}
    (leaf : ∀ room left right, kind left ≠ kind right ∨ kind left = .primitive →
      motive room left right)
    (deep : ∀ left right, ¬ (kind left ≠ kind right ∨ kind left = .primitive) → motive 0 left right)
    (array : ∀ room l r, (∀ a b, motive room a b) → motive (room + 1) (.array l) (.array r))
    (object : ∀ room l r, (∀ a b, motive room a b) → motive (room + 1) (.object l) (.object r))
    (room : ℕ) (left right : Json σ ν) : motive room left right := by
  induction room generalizing left right with
  | zero =>
    by_cases hkind : kind left ≠ kind right ∨ kind left = .primitive
    · exact leaf 0 left right hkind
    · exact deep left right hkind
  | succ room ih =>
    rcases kind_cases left right with hkind | ⟨l, r, rfl, rfl⟩ | ⟨l, r, rfl, rfl⟩
    · exact leaf (room + 1) left right hkind
    · exact array room l r ih
    · exact object room l r ih

variable {room : ℕ} {left right : Json σ ν}

theorem differences_leaf (h : kind left ≠ kind right ∨ kind left = .primitive) :
    differences same below listing room left right =
      if samePrimitive same left right then [] else [whole left right] := by
  rw [differences.eq_def, if_pos h]

theorem differences_zero (h : ¬ (kind left ≠ kind right ∨ kind left = .primitive)) :
    differences same below listing 0 left right =
      if below left right then [] else [whole left right] := by
  rw [differences, if_neg h]

theorem differences_array (room : ℕ) (left right : List (Json σ ν)) :
    differences same below listing (room + 1) (.array left) (.array right) =
      if left.length ≠ right.length then [whole (.array left) (.array right)]
      else (left.zip right).zipIdx.flatMap fun item =>
        (differences same below listing room item.1.1 item.1.2).map (Entry.under (.index item.2)) := by
  rw [differences, if_neg (by simp [kind])]

theorem differences_object (room : ℕ) (left right : Object σ ν) :
    differences same below listing (room + 1) (.object left) (.object right) =
      (listing left right).flatMap fun name =>
        (memberDifferences (differences same below listing room) (lookup name left)
          (lookup name right)).map (Entry.under (.name name)) := by
  rw [differences, if_neg (by simp [kind])]

/-- The assumptions about the comparison behind the depth cap and the order of names. -/
structure Lawful (less : σ → σ → Prop) : Prop where
  below_iff : ∀ left right, below left right = true ↔ Equal same left right
  mem_listing : ∀ left right name, name ∈ listing left right ↔
    (lookup name left).isSome = true ∨ (lookup name right).isSome = true
  sorted : ∀ left right, (listing left right).Pairwise less
  irrefl : ∀ name, ¬ less name name

variable {same below listing} {less : σ → σ → Prop}

theorem Lawful.nodup_listing (h : Lawful same below listing less) (left right : Object σ ν) :
    (listing left right).Nodup := by
  apply (h.sorted left right).imp
  intro a b hab heq
  rw [heq] at hab
  exact h.irrefl b hab

omit [DecidableEq σ] in
theorem memberDifferences_eq_nil {f : Json σ ν → Json σ ν → List (Entry σ ν)}
    {a b : Option (Json σ ν)} : memberDifferences f a b = [] ↔
      ∃ left right, a = some left ∧ b = some right ∧ f left right = [] := by
  cases a with
  | none => exact iff_of_false (List.cons_ne_nil _ _) fun ⟨_, _, h, _⟩ => nomatch h
  | some left =>
    cases b with
    | none => exact iff_of_false (List.cons_ne_nil _ _) fun ⟨_, _, _, h, _⟩ => nomatch h
    | some right =>
      constructor
      · intro h
        exact ⟨left, right, rfl, rfl, h⟩
      · intro h
        obtain ⟨left', right', hleft, hright, hnil⟩ := h
        obtain rfl := Option.some.inj hleft
        obtain rfl := Option.some.inj hright
        exact hnil

omit [DecidableEq σ] in
theorem eq_nil_of_item {f : Json σ ν × Json σ ν → List (Entry σ ν)}
    {pairs : List (Json σ ν × Json σ ν)} :
    (pairs.zipIdx.flatMap fun item => (f item.1).map (Entry.under (.index item.2))) = [] ↔
      ∀ pair ∈ pairs, f pair = [] := by
  rw [List.flatMap_eq_nil_iff]
  constructor
  · intro h pair hpair
    obtain ⟨i, hi, rfl⟩ := List.mem_iff_getElem.mp hpair
    have hmem : (pairs[i], i) ∈ pairs.zipIdx := by
      rw [List.mem_zipIdx_iff_getElem?, List.getElem?_eq_getElem hi]
    exact List.map_eq_nil_iff.mp (h _ hmem)
  · intro h item hitem
    rw [List.map_eq_nil_iff]
    exact h item.1 (List.fst_mem_of_mem_zipIdx hitem)

/-- There is no difference exactly between equal trees. -/
theorem differences_eq_nil_iff (h : Lawful same below listing less) (room : ℕ)
    (left right : Json σ ν) : differences same below listing room left right = [] ↔
      Equal same left right := by
  induction room, left, right using compare_induction with
  | leaf room left right hkind =>
    rw [differences_leaf same below listing hkind, equal_of_primitive hkind]
    split <;> simp_all
  | deep left right hkind =>
    rw [differences_zero same below listing hkind, ← h.below_iff]
    split <;> simp_all
  | array room l r ih =>
    rw [differences_array, equal_array_iff]
    by_cases hlength : l.length = r.length
    · rw [if_neg (not_not_intro hlength), eq_nil_of_item
        (f := fun pair => differences same below listing room pair.1 pair.2)]
      simp only [ih, hlength, true_and]
    · rw [if_pos hlength]
      exact iff_of_false (List.cons_ne_nil _ _) fun hequal => hlength hequal.1
  | object room l r ih =>
    rw [differences_object, equal_object_iff, List.flatMap_eq_nil_iff]
    simp only [List.map_eq_nil_iff, memberDifferences_eq_nil, ih, h.mem_listing]
    constructor
    · intro hall
      constructor
      · intro name
        by_cases hname : (lookup name l).isSome = true ∨ (lookup name r).isSome = true
        · obtain ⟨a, b, ha, hb, -⟩ := hall name hname
          rw [ha, hb]
          rfl
        · rw [not_or] at hname
          rw [Bool.eq_false_iff.mpr hname.1, Bool.eq_false_iff.mpr hname.2]
      · intro name a b ha hb
        obtain ⟨a', b', ha', hb', hequal⟩ := hall name (Or.inl (by rw [ha]; rfl))
        obtain rfl := Option.some.inj (ha.symm.trans ha')
        obtain rfl := Option.some.inj (hb.symm.trans hb')
        exact hequal
    · intro hall name hname
      have hsome := hall.1 name
      have hboth : (lookup name l).isSome = true ∧ (lookup name r).isSome = true := by
        rcases hname with hname | hname
        · exact ⟨hname, hsome ▸ hname⟩
        · exact ⟨hsome ▸ hname, hname⟩
      obtain ⟨a, ha⟩ := Option.isSome_iff_exists.mp hboth.1
      obtain ⟨b, hb⟩ := Option.isSome_iff_exists.mp hboth.2
      exact ⟨a, b, ha, hb, hall.2 name a b ha hb⟩

/-- What one name contributes. -/
theorem mem_memberDifferences {left right : Object σ ν} {name : σ} {entry : Entry σ ν}
    (hname : (lookup name left).isSome = true ∨ (lookup name right).isSome = true)
    (ih : ∀ (a b : Json σ ν) (entry : Entry σ ν), entry ∈
      differences same below listing room a b ↔ Differs same room a b entry.tokens entry.cached
      entry.source) :
    entry ∈ memberDifferences (differences same below listing room) (lookup name left)
        (lookup name right) ↔
      Differs same (room + 1) (.object left) (.object right) (.name name :: entry.tokens) entry.cached
        entry.source := by
  obtain ⟨tokens, cached, source⟩ := entry
  cases ha : lookup name left with
  | none =>
    cases hb : lookup name right with
    | none =>
      rw [ha, hb] at hname
      rcases hname with h | h <;> cases h
    | some b =>
      change _ ∈ [_] ↔ _
      rw [List.mem_singleton]
      constructor
      · intro h
        cases h
        exact .onlySource ha hb
      · intro h
        cases h with
        | onlyCached ha' _ => cases ha.symm.trans ha'
        | onlySource _ hb' =>
          obtain rfl := Option.some.inj (hb.symm.trans hb')
          rfl
        | member ha' _ _ => cases ha.symm.trans ha'
  | some a =>
    cases hb : lookup name right with
    | none =>
      change _ ∈ [_] ↔ _
      rw [List.mem_singleton]
      constructor
      · intro h
        cases h
        exact .onlyCached ha hb
      · intro h
        cases h with
        | onlyCached ha' _ =>
          obtain rfl := Option.some.inj (ha.symm.trans ha')
          rfl
        | onlySource ha' _ => cases ha.symm.trans ha'
        | member _ hb' _ => cases hb.symm.trans hb'
    | some b =>
      rw [memberDifferences, ih]
      constructor
      · exact .member ha hb
      · intro h
        cases h with
        | onlyCached _ hb' => cases hb.symm.trans hb'
        | onlySource ha' _ => cases ha.symm.trans ha'
        | member ha' hb' h =>
          obtain rfl := Option.some.inj (ha.symm.trans ha')
          obtain rfl := Option.some.inj (hb.symm.trans hb')
          exact h

theorem mem_leaf {entry : Entry σ ν} (hkind : kind left ≠ kind right ∨ kind left = .primitive) :
    entry ∈ (if samePrimitive same left right then [] else [whole left right]) ↔
      Differs same room left right entry.tokens entry.cached entry.source := by
  obtain ⟨tokens, cached, source⟩ := entry
  have hcontainers : ¬ (kind left = kind right ∧ kind left ≠ .primitive) := by
    intro h
    rcases hkind with hkind | hkind
    · exact hkind h.1
    · exact h.2 hkind
  have harray : ∀ items : List (Json σ ν), kind (.array items) ≠ .primitive :=
    fun _ h => Kind.noConfusion h
  have hobject : ∀ members : Object σ ν, kind (.object members) ≠ .primitive :=
    fun _ h => Kind.noConfusion h
  constructor
  · intro h
    split at h
    · cases h
    · rename_i hsame
      cases List.mem_singleton.mp h
      exact .leaf hkind (Bool.not_eq_true _ ▸ hsame)
  · intro h
    cases h with
    | leaf _ h =>
      rw [h]
      exact List.mem_singleton_self _
    | deep hsame hcontainer _ => exact absurd ⟨hsame, hcontainer⟩ hcontainers
    | lengths _ | item _ _ _ _ => exact absurd ⟨rfl, harray _⟩ hcontainers
    | onlyCached _ _ | onlySource _ _ | member _ _ _ => exact absurd ⟨rfl, hobject _⟩ hcontainers

/-- The list holds the differences and nothing else. -/
theorem mem_differences_iff (h : Lawful same below listing less) (room : ℕ) (left right : Json σ ν)
    (entry : Entry σ ν) : entry ∈ differences same below listing room left right ↔
      Differs same room left right entry.tokens entry.cached entry.source := by
  induction room, left, right using compare_induction generalizing entry with
  | leaf room left right hkind =>
    rw [differences_leaf same below listing hkind]
    exact mem_leaf hkind
  | deep left right hkind =>
    rw [differences_zero same below listing hkind]
    obtain ⟨tokens, cached, source⟩ := entry
    rw [not_or, not_not] at hkind
    constructor
    · intro hmem
      split at hmem
      · cases hmem
      · rename_i hbelow
        cases List.mem_singleton.mp hmem
        exact .deep hkind.1 hkind.2 fun hequal => hbelow ((h.below_iff _ _).mpr hequal)
    · intro hdiffers
      cases hdiffers with
      | leaf hleaf _ =>
        rcases hleaf with hleaf | hleaf
        · exact absurd hkind.1 hleaf
        · exact absurd hleaf hkind.2
      | deep _ _ hunequal =>
        rw [if_neg fun hbelow => hunequal ((h.below_iff _ _).mp hbelow)]
        exact List.mem_singleton_self _
  | array room l r ih =>
    rw [differences_array]
    by_cases hlength : l.length = r.length
    · rw [if_neg (not_not_intro hlength), List.mem_flatMap]
      constructor
      · intro hmem
        obtain ⟨⟨⟨a, b⟩, i⟩, hitem, hmem⟩ := hmem
        obtain ⟨inner, hinner, rfl⟩ := List.mem_map.mp hmem
        rw [List.mem_zipIdx_iff_getElem?, List.getElem?_zip_eq_some] at hitem
        exact .item hlength hitem.1 hitem.2 ((ih _ _ _).mp hinner)
      · intro hdiffers
        obtain ⟨tokens, cached, source⟩ := entry
        cases hdiffers with
        | leaf hleaf _ => rcases hleaf with hleaf | hleaf <;> simp [kind] at hleaf
        | lengths hne => exact absurd hlength hne
        | @item _ i _ _ a b tokens _ _ _ ha hb hinner =>
          refine ⟨((a, b), i), ?_, ?_⟩
          · rw [List.mem_zipIdx_iff_getElem?, List.getElem?_zip_eq_some]
            exact ⟨ha, hb⟩
          · exact List.mem_map.mpr ⟨⟨tokens, cached, source⟩, (ih _ _ _).mpr hinner, rfl⟩
    · rw [if_pos hlength]
      obtain ⟨tokens, cached, source⟩ := entry
      constructor
      · intro hmem
        cases List.mem_singleton.mp hmem
        exact .lengths hlength
      · intro hdiffers
        cases hdiffers with
        | leaf hleaf _ => rcases hleaf with hleaf | hleaf <;> simp [kind] at hleaf
        | lengths _ => exact List.mem_singleton_self _
        | item hequal _ _ _ => exact absurd hequal hlength
  | object room l r ih =>
    rw [differences_object, List.mem_flatMap]
    constructor
    · intro hmem
      obtain ⟨name, hname, hmem⟩ := hmem
      obtain ⟨inner, hinner, rfl⟩ := List.mem_map.mp hmem
      exact (mem_memberDifferences ((h.mem_listing l r name).mp hname) ih).mp hinner
    · intro hdiffers
      obtain ⟨tokens, cached, source⟩ := entry
      have hnamed : ∃ name rest, tokens = .name name :: rest ∧
          ((lookup name l).isSome = true ∨ (lookup name r).isSome = true) := by
        cases hdiffers with
        | leaf hleaf _ => rcases hleaf with hleaf | hleaf <;> simp [kind] at hleaf
        | @onlyCached _ _ _ name a ha hb => exact ⟨name, [], rfl, Or.inl (by rw [ha]; rfl)⟩
        | @onlySource _ _ _ name b ha hb => exact ⟨name, [], rfl, Or.inr (by rw [hb]; rfl)⟩
        | @member _ _ _ name a b rest _ _ ha hb _ => exact ⟨name, rest, rfl, Or.inl (by rw [ha]; rfl)⟩
      obtain ⟨name, rest, rfl, hsome⟩ := hnamed
      refine ⟨name, (h.mem_listing l r name).mpr hsome, ?_⟩
      exact List.mem_map.mpr ⟨⟨rest, cached, source⟩,
        (mem_memberDifferences hsome ih).mpr hdiffers, rfl⟩

/-- Differences come in the order of a walk. -/
theorem pairwise_differences (h : Lawful same below listing less) (room : ℕ) (left right : Json σ ν) :
    (differences same below listing room left right).Pairwise
      fun first second => Before less first.tokens second.tokens := by
  have hunder : ∀ (token : Token σ) (entries : List (Entry σ ν)),
      (entries.Pairwise fun first second => Before less first.tokens second.tokens) →
      (entries.map (Entry.under token)).Pairwise
        fun first second => Before less first.tokens second.tokens := by
    intro token entries hentries
    rw [List.pairwise_map]
    apply hentries.imp
    intro first second hbefore
    exact .there token hbefore
  have happart : ∀ {t u : Token σ} {front back : List (Entry σ ν)}, TokenLess less t u →
      ∀ first ∈ front.map (Entry.under t), ∀ second ∈ back.map (Entry.under u),
        Before less first.tokens second.tokens := by
    intro t u front back hless first hfirst second hsecond
    obtain ⟨_, -, rfl⟩ := List.mem_map.mp hfirst
    obtain ⟨_, -, rfl⟩ := List.mem_map.mp hsecond
    exact .here _ _ hless
  have hleaf : ∀ test : Prop, ∀ _ : Decidable test, ∀ entry : Entry σ ν,
      (if test then [] else [entry]).Pairwise
        fun first second => Before less first.tokens second.tokens := by
    intro test _ entry
    split
    · exact List.Pairwise.nil
    · exact List.pairwise_singleton _ _
  induction room, left, right using compare_induction with
  | leaf room left right hkind =>
    rw [differences_leaf same below listing hkind]
    exact hleaf _ _ _
  | deep left right hkind =>
    rw [differences_zero same below listing hkind]
    exact hleaf _ _ _
  | array room l r ih =>
    rw [differences_array]
    split
    · exact List.pairwise_singleton _ _
    · rw [List.pairwise_flatMap]
      constructor
      · intro item _
        exact hunder _ _ (ih _ _)
      · have hindices : (l.zip r).zipIdx.Pairwise fun first second => first.2 < second.2 := by
          rw [← List.pairwise_map (f := Prod.snd), List.zipIdx_map_snd]
          exact List.pairwise_lt_range'
        apply hindices.imp
        intro first second hless
        exact happart (t := .index first.2) (u := .index second.2) hless
  | object room l r ih =>
    rw [differences_object, List.pairwise_flatMap]
    constructor
    · intro name _
      apply hunder
      cases lookup name l with
      | none => exact List.pairwise_singleton _ _
      | some a =>
        cases lookup name r with
        | none => exact List.pairwise_singleton _ _
        | some b => exact ih a b
    · apply (h.sorted l r).imp
      intro first second hless
      exact happart (t := .name first) (u := .name second) hless

/-! ### Patching -/

theorem solid_of_mem (h : Lawful same below listing less) {patch : Patch σ ν}
    (hpatch : patch ∈ (differences same below listing room left right).map Entry.patch) :
    patch.Solid := by
  obtain ⟨entry, hentry, rfl⟩ := List.mem_map.mp hpatch
  intro htokens
  exact ((mem_differences_iff h room left right entry).mp hentry).source_of_root htokens

omit [DecidableEq σ] in
theorem map_patch_under (token : Token σ) (entries : List (Entry σ ν)) :
    (entries.map (Entry.under token)).map Entry.patch =
      (entries.map Entry.patch).map (Patch.under token) := by
  rw [List.map_map, List.map_map]
  rfl

/-- Item after item of an array is patched, those before stay as they are. -/
theorem patchAll_items (h : Lawful same below listing less)
    (ih : ∀ a b : Json σ ν, ∃ a', patchAll ((differences same below listing room a b).map
      Entry.patch) (some a) = some a' ∧ Equal same a' b)
    (pairs : List (Json σ ν × Json σ ν)) (front : List (Json σ ν)) :
    ∃ items, patchAll (((pairs.zipIdx front.length).flatMap fun item =>
          (differences same below listing room item.1.1 item.1.2).map
            (Entry.under (.index item.2))).map Entry.patch)
        (some (.array (front ++ pairs.map Prod.fst))) = some (.array (front ++ items)) ∧
      items.length = pairs.length ∧ ∀ pair ∈ items.zip (pairs.map Prod.snd), Equal same pair.1 pair.2 := by
  induction pairs generalizing front with
  | nil => exact ⟨[], rfl, rfl, fun _ hpair => nomatch hpair⟩
  | cons pair pairs ihpairs =>
    obtain ⟨a', hpatched, hequal⟩ := ih pair.1 pair.2
    have hitem : (front ++ pair.1 :: pairs.map Prod.fst)[front.length]? = some pair.1 := by
      rw [List.getElem?_append_right (Nat.le_refl _), Nat.sub_self]
      rfl
    have hsolid : ∀ patch ∈ (differences same below listing room pair.1 pair.2).map Entry.patch,
        patch.Solid := fun patch => solid_of_mem h
    obtain ⟨a'', hpatched', harray⟩ := patchAll_item hsolid hitem
    obtain rfl := Option.some.inj (hpatched.symm.trans hpatched')
    obtain ⟨items, hrest, hlength, hequals⟩ := ihpairs (front ++ [a'])
    refine ⟨a' :: items, ?_, congrArg Nat.succ hlength, ?_⟩
    · rw [List.zipIdx_cons, List.flatMap_cons, List.map_append, patchAll_append, map_patch_under,
        List.map_cons, harray]
      rw [List.length_append, List.length_singleton, List.append_assoc, List.append_assoc] at hrest
      rw [List.set_append_right _ _ (Nat.le_refl _), Nat.sub_self, List.set_cons_zero]
      exact hrest
    · intro other hother
      rw [List.map_cons, List.zip_cons_cons, List.mem_cons] at hother
      rcases hother with rfl | hother
      · exact hequal
      · exact hequals other hother

/-- A comparison that reports at most the two trees themselves. -/
theorem patchAll_whole (h : Lawful same below listing less) (hsame : ∀ n, same n n = true)
    (hlist : differences same below listing room left right = [] ∨
      differences same below listing room left right = [whole left right]) :
    ∃ patched, patchAll ((differences same below listing room left right).map Entry.patch)
      (some left) = some patched ∧ Equal same patched right := by
  rcases hlist with hlist | hlist
  · have hequal := (differences_eq_nil_iff h room left right).mp hlist
    rw [hlist]
    exact ⟨left, rfl, hequal⟩
  · rw [hlist]
    exact ⟨right, rfl, equal_refl hsame right⟩

omit [DecidableEq σ] in
theorem nil_or_whole (test : Prop) [Decidable test] (left right : Json σ ν) :
    (if test then [] else [whole left right]) = [] ∨
      (if test then [] else [whole left right]) = [whole left right] := by
  split
  · exact Or.inl rfl
  · exact Or.inr rfl

/-- What patching does to one name. -/
theorem patchAll_name (hsame : ∀ n, same n n = true) (room : ℕ)
    (ih : ∀ a b : Json σ ν, ∃ a', patchAll ((differences same below listing room a b).map Entry.patch)
      (some a) = some a' ∧ Equal same a' b) (a b : Option (Json σ ν)) :
    (patchAll ((memberDifferences (differences same below listing room) a b).map Entry.patch) a).isSome =
        b.isSome ∧
      ∀ a' b', patchAll ((memberDifferences (differences same below listing room) a b).map Entry.patch)
        a = some a' → b = some b' → Equal same a' b' := by
  cases a with
  | none =>
    refine ⟨rfl, ?_⟩
    intro a' b' ha' hb'
    obtain rfl : a' = b' := Option.some.inj (ha'.symm.trans hb')
    exact equal_refl hsame a'
  | some a =>
    cases b with
    | none =>
      refine ⟨rfl, ?_⟩
      intro a' b' _ hb'
      cases hb'
    | some b =>
      obtain ⟨patched, hpatched, hequal⟩ := ih a b
      rw [memberDifferences, hpatched]
      refine ⟨rfl, ?_⟩
      intro a' b' ha' hb'
      obtain rfl := Option.some.inj ha'
      obtain rfl := Option.some.inj hb'
      exact hequal

/-- The source side at every difference makes the cached tree equal to the source tree. -/
theorem patchAll_differences (h : Lawful same below listing less) (hsame : ∀ n, same n n = true)
    (room : ℕ) (left right : Json σ ν) :
    ∃ patched, patchAll ((differences same below listing room left right).map Entry.patch)
      (some left) = some patched ∧ Equal same patched right := by
  induction room, left, right using compare_induction with
  | leaf room left right hkind =>
    apply patchAll_whole h hsame
    rw [differences_leaf same below listing hkind]
    exact nil_or_whole _ left right
  | deep left right hkind =>
    apply patchAll_whole h hsame
    rw [differences_zero same below listing hkind]
    exact nil_or_whole _ left right
  | array room l r ih =>
    by_cases hlength : l.length = r.length
    · obtain ⟨items, hpatched, hitems, hequals⟩ := patchAll_items h ih (l.zip r) []
      rw [List.map_fst_zip (Nat.le_of_eq hlength)] at hpatched
      rw [List.map_snd_zip (Nat.le_of_eq hlength.symm)] at hequals
      rw [List.length_zip, hlength, Nat.min_self] at hitems
      rw [differences_array, if_neg (not_not_intro hlength)]
      exact ⟨.array items, hpatched, .array hitems hequals⟩
    · apply patchAll_whole h hsame
      rw [differences_array, if_pos hlength]
      exact Or.inr rfl
  | object room l r ih =>
    obtain ⟨members, hpatched, hlookup⟩ := patchAll_members
      (fun name => (memberDifferences (differences same below listing room) (lookup name l)
        (lookup name r)).map Entry.patch) (listing l r) (h.nodup_listing l r) l
    refine ⟨.object members, ?_, ?_⟩
    · rw [differences_object, List.map_flatMap, ← hpatched]
      simp only [map_patch_under]
    have hmember : ∀ name, (lookup name members).isSome = (lookup name r).isSome ∧
        ∀ a b, lookup name members = some a → lookup name r = some b → Equal same a b := by
      intro name
      rw [hlookup]
      by_cases hname : name ∈ listing l r
      · rw [if_pos hname]
        exact patchAll_name hsame room ih (lookup name l) (lookup name r)
      · rw [if_neg hname]
        rw [h.mem_listing, not_or] at hname
        rw [Option.not_isSome_iff_eq_none, Option.not_isSome_iff_eq_none] at hname
        rw [hname.1, hname.2]
        exact ⟨rfl, fun _ _ ha => by cases ha⟩
    exact .object (fun name => (hmember name).1) fun name => (hmember name).2

end Differences

/-! ### Other strings and numbers -/

section Map

variable {σ τ ν μ : Type}

def Entry.map (f : σ → τ) (g : ν → μ) (entry : Entry σ ν) : Entry τ μ :=
  ⟨entry.tokens.map (Token.map f), entry.cached.map (Json.map f g), entry.source.map (Json.map f g)⟩

theorem map_under (f : σ → τ) (g : ν → μ) (token : Token σ) (entries : List (Entry σ ν)) :
    (entries.map (Entry.under token)).map (Entry.map f g) =
      (entries.map (Entry.map f g)).map (Entry.under (token.map f)) := by
  rw [List.map_map, List.map_map]
  rfl

theorem memberDifferences_map {f : σ → τ} {g : ν → μ} {d : Json σ ν → Json σ ν → List (Entry σ ν)}
    {d' : Json τ μ → Json τ μ → List (Entry τ μ)}
    (h : ∀ a b, d' (a.map f g) (b.map f g) = (d a b).map (Entry.map f g)) (a b : Option (Json σ ν)) :
    memberDifferences d' (a.map (Json.map f g)) (b.map (Json.map f g)) =
      (memberDifferences d a b).map (Entry.map f g) := by
  cases a with
  | none => rfl
  | some a =>
    cases b with
    | none => rfl
    | some b => exact h a b

variable [DecidableEq σ] [DecidableEq τ] {f : σ → τ} {g : ν → μ} {same : ν → ν → Bool}
  {same' : μ → μ → Bool} {below : Json σ ν → Json σ ν → Bool} {below' : Json τ μ → Json τ μ → Bool}
  {listing : Object σ ν → Object σ ν → List σ}
  {listing' : List (τ × Json τ μ) → List (τ × Json τ μ) → List τ}

/-- Trees over other strings and numbers differ at the same places. -/
theorem differences_map (hf : Function.Injective f) (hg : ∀ m n, same' (g m) (g n) = same m n)
    (hbelow : ∀ left right, below' (left.map f g) (right.map f g) = below left right)
    (hlisting : ∀ left right : Object σ ν,
      listing' (left.map fun member => (f member.1, member.2.map f g))
        (right.map fun member => (f member.1, member.2.map f g)) = (listing left right).map f)
    (room : ℕ) (left right : Json σ ν) :
    differences same' below' listing' room (left.map f g) (right.map f g) =
      (differences same below listing room left right).map (Entry.map f g) := by
  have hwhole : ∀ (test : Bool) (left right : Json σ ν),
      (if test then [] else [whole (left.map f g) (right.map f g)]) =
        (if test then [] else [whole left right]).map (Entry.map f g) := by
    intro test left right
    cases test <;> rfl
  induction room, left, right using compare_induction with
  | leaf room left right hkind =>
    rw [differences_leaf same below listing hkind, differences_leaf same' below' listing',
      samePrimitive_map hf hg, hwhole]
    rw [kind_map, kind_map]
    exact hkind
  | deep left right hkind =>
    rw [differences_zero same below listing hkind, differences_zero same' below' listing', hbelow,
      hwhole]
    rw [kind_map, kind_map]
    exact hkind
  | array room l r ih =>
    rw [Json.map, Json.map, differences_array, differences_array, List.length_map, List.length_map]
    by_cases hlength : l.length = r.length
    · rw [if_neg (not_not_intro hlength), if_neg (not_not_intro hlength), List.zip_map,
        List.zipIdx_map, List.flatMap_map, List.map_flatMap]
      apply List.flatMap_congr
      intro item _
      rw [map_under, ← ih]
      rfl
    · rw [if_pos hlength, if_pos hlength, List.map_singleton, whole, whole, Entry.map,
        Option.map_some, Option.map_some, Json.map, Json.map]
      rfl
  | object room l r ih =>
    rw [Json.map, Json.map, differences_object, differences_object, hlisting, List.flatMap_map,
      List.map_flatMap]
    apply List.flatMap_congr
    intro name _
    rw [lookup_members hf, lookup_members hf, memberDifferences_map ih, map_under]
    rfl

end Map

end DialCache.JsonDifferences
