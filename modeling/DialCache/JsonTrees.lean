import Mathlib.Data.List.Basic
import Mathlib.Data.List.Nodup
import Mathlib.Data.List.Perm.Subperm

/-!
# JSON trees

Trees over any type of strings and any type of numbers. The members of an object are listed in
some order, and of two members with one name the first one counts, so that every tree is the
tree of a JSON value. Numbers may differ and still compare equal.
-/

namespace DialCache.JsonTrees

inductive Json (σ ν : Type) where
  | null
  | bool (value : Bool)
  | number (value : ν)
  | string (value : σ)
  | array (items : List (Json σ ν))
  | object (members : List (σ × Json σ ν))

/-- The members of an object. -/
abbrev Object (σ ν : Type) := List (σ × Json σ ν)

theorem sizeOf_snd {α β : Type} [SizeOf α] [SizeOf β] {member : α × β} {members : List (α × β)}
    (h : member ∈ members) : sizeOf member.2 < sizeOf members := by
  have := List.sizeOf_lt_of_mem h
  cases member
  simp only [Prod.mk.sizeOf_spec] at this ⊢
  omega

theorem Json.sizeOf_item {σ ν : Type} [SizeOf σ] [SizeOf ν] {item : Json σ ν} {items : List (Json σ ν)}
    (h : item ∈ items) : sizeOf item < sizeOf (Json.array items) := by
  have := List.sizeOf_lt_of_mem h
  rw [Json.array.sizeOf_spec]
  omega

theorem Json.sizeOf_member {σ ν : Type} [SizeOf σ] [SizeOf ν] {member : σ × Json σ ν}
    {members : Object σ ν} (h : member ∈ members) : sizeOf member.2 < sizeOf (Json.object members) := by
  have := sizeOf_snd h
  rw [Json.object.sizeOf_spec]
  omega

/-- A step into a tree: the index of an array item or the name of an object member. -/
inductive Token (σ : Type) where
  | index (n : ℕ)
  | name (s : σ)
deriving DecidableEq

def Token.map {σ ρ : Type} (f : σ → ρ) : Token σ → Token ρ
  | .index n => .index n
  | .name s => .name (f s)

/-! ### Members -/

section Members

variable {σ α : Type} [DecidableEq σ]

def lookup (name : σ) : List (σ × α) → Option α
  | [] => none
  | member :: rest => if member.1 = name then some member.2 else lookup name rest

/-- The members that count, each name once. -/
def own : List (σ × α) → List (σ × α)
  | [] => []
  | member :: rest => member :: (own rest).filter fun other => decide (other.1 ≠ member.1)

def names (members : List (σ × α)) : List σ := (own members).map Prod.fst

theorem mem_own {members : List (σ × α)} {name : σ} {value : α} :
    (name, value) ∈ own members ↔ lookup name members = some value := by
  induction members with
  | nil => exact iff_of_false List.not_mem_nil (by simp [lookup])
  | cons member rest ih =>
    rw [own, lookup, List.mem_cons, List.mem_filter, decide_eq_true_eq, ih]
    by_cases h : member.1 = name
    · rw [if_pos h, Option.some.injEq]
      constructor
      · intro hmem
        rcases hmem with hfirst | hlater
        · rw [← hfirst]
        · exact absurd h.symm hlater.2
      · intro hvalue
        left
        rw [← h, ← hvalue]
    · rw [if_neg h]
      constructor
      · intro hmem
        rcases hmem with hfirst | hlater
        · exact absurd (congrArg Prod.fst hfirst).symm h
        · exact hlater.1
      · intro hvalue
        exact Or.inr ⟨hvalue, fun hname => h hname.symm⟩

theorem mem_names {members : List (σ × α)} {name : σ} :
    name ∈ names members ↔ (lookup name members).isSome = true := by
  rw [names, List.mem_map, Option.isSome_iff_exists]
  constructor
  · intro h
    obtain ⟨member, hmem, rfl⟩ := h
    exact ⟨member.2, mem_own.mp hmem⟩
  · intro h
    obtain ⟨value, hvalue⟩ := h
    exact ⟨(name, value), mem_own.mpr hvalue, rfl⟩

theorem nodup_names (members : List (σ × α)) : (names members).Nodup := by
  induction members with
  | nil => exact List.nodup_nil
  | cons member rest ih =>
    rw [names, own, List.map_cons, List.nodup_cons]
    constructor
    · intro h
      obtain ⟨other, hmem, hname⟩ := List.mem_map.mp h
      exact of_decide_eq_true (List.mem_filter.mp hmem).2 hname
    · exact ih.sublist (List.filter_sublist.map Prod.fst)

/-- Objects with equally many names, each of the left ones on the right, have the same names. -/
theorem matches_iff_own {β : Type} {R : α → β → Prop} {left : List (σ × α)} {right : List (σ × β)} :
    ((∀ name, (lookup name left).isSome = (lookup name right).isSome) ∧
        ∀ name a b, lookup name left = some a → lookup name right = some b → R a b) ↔
      (own left).length = (own right).length ∧
        ∀ member ∈ own left, ∃ other, lookup member.1 right = some other ∧ R member.2 other := by
  have hleft : (own left).length = (names left).length := (List.length_map _).symm
  have hright : (own right).length = (names right).length := (List.length_map _).symm
  rw [hleft, hright]
  constructor
  · intro h
    have hperm : (names left).Perm (names right) := by
      rw [List.perm_ext_iff_of_nodup (nodup_names left) (nodup_names right)]
      intro name
      rw [mem_names, mem_names, h.1]
    refine ⟨hperm.length_eq, ?_⟩
    intro member hmember
    have hvalue : lookup member.1 left = some member.2 := mem_own.mp hmember
    have hsome := h.1 member.1
    rw [hvalue] at hsome
    obtain ⟨other, hother⟩ := Option.isSome_iff_exists.mp hsome.symm
    exact ⟨other, hother, h.2 member.1 member.2 other hvalue hother⟩
  · intro h
    have hsubset : names left ⊆ names right := by
      intro name hname
      obtain ⟨value, hvalue⟩ := Option.isSome_iff_exists.mp (mem_names.mp hname)
      obtain ⟨other, hother, -⟩ := h.2 (name, value) (mem_own.mpr hvalue)
      rw [mem_names, hother]
      rfl
    have hperm : (names left).Perm (names right) :=
      (List.Nodup.subperm (nodup_names left) hsubset).perm_of_length_le (Nat.le_of_eq h.1.symm)
    constructor
    · intro name
      rw [Bool.eq_iff_iff, ← mem_names, ← mem_names]
      exact hperm.mem_iff
    · intro name a b ha hb
      obtain ⟨other, hother, hR⟩ := h.2 (name, a) (mem_own.mpr ha)
      obtain rfl := Option.some.inj (hb.symm.trans hother)
      exact hR

/-- Change the value of a name: `none` stands for a missing member. -/
def alter (name : σ) (change : Option α → Option α) (members : List (σ × α)) : List (σ × α) :=
  let others := members.filter fun member => decide (member.1 ≠ name)
  match change (lookup name members) with
  | none => others
  | some value => (name, value) :: others

theorem lookup_filter_ne {name other : σ} (members : List (σ × α)) :
    lookup other (members.filter fun member => decide (member.1 ≠ name)) =
      if other = name then none else lookup other members := by
  induction members with
  | nil => simp [lookup]
  | cons member rest ih =>
    by_cases hmember : member.1 = name
    · rw [List.filter_cons_of_neg (by simp [hmember]), ih, lookup]
      by_cases hother : other = name
      · rw [if_pos hother, if_pos hother]
      · rw [if_neg hother, if_neg hother, if_neg fun h => hother (h.symm.trans hmember)]
    · rw [List.filter_cons_of_pos (by simp [hmember]), lookup, ih, lookup]
      by_cases hother : other = name
      · rw [if_pos hother, if_pos hother, if_neg fun h => hmember (h.trans hother)]
      · rw [if_neg hother, if_neg hother]

theorem lookup_alter (name other : σ) (change : Option α → Option α) (members : List (σ × α)) :
    lookup other (alter name change members) =
      if other = name then change (lookup name members) else lookup other members := by
  rw [alter]
  cases hchange : change (lookup name members) with
  | none =>
    dsimp only
    rw [lookup_filter_ne]
  | some value =>
    dsimp only
    rw [lookup, lookup_filter_ne]
    by_cases hother : other = name
    · rw [if_pos hother.symm, if_pos hother]
    · rw [if_neg hother, if_neg fun h => hother h.symm, if_neg hother]

theorem lookup_map {τ β : Type} [DecidableEq τ] {f : σ → τ} (hf : Function.Injective f) (g : α → β)
    (name : σ) (members : List (σ × α)) :
    lookup (f name) (members.map fun member => (f member.1, g member.2)) =
      (lookup name members).map g := by
  induction members with
  | nil => rfl
  | cons member rest ih =>
    rw [List.map_cons, lookup, lookup, ih]
    by_cases h : member.1 = name
    · rw [if_pos h, if_pos (congrArg f h), Option.map_some]
    · rw [if_neg h, if_neg fun heq => h (hf heq)]

theorem own_map {τ β : Type} [DecidableEq τ] {f : σ → τ} (hf : Function.Injective f) (g : α → β)
    (members : List (σ × α)) : own (members.map fun member => (f member.1, g member.2)) =
      (own members).map fun member => (f member.1, g member.2) := by
  induction members with
  | nil => rfl
  | cons member rest ih =>
    rw [List.map_cons, own, own, List.map_cons, ih, List.filter_map]
    congr 2
    apply List.filter_congr
    intro other _
    simp only [Function.comp_apply, ne_eq, hf.eq_iff]

end Members

/-! ### Kinds -/

inductive Kind where
  | array
  | object
  | primitive
deriving DecidableEq

section Trees

variable {σ ν : Type}

def kind : Json σ ν → Kind
  | .array _ => .array
  | .object _ => .object
  | _ => .primitive

/-- Equality of primitives. A container equals no other value here. -/
def samePrimitive [DecidableEq σ] (same : ν → ν → Bool) : Json σ ν → Json σ ν → Bool
  | .null, .null => true
  | .bool a, .bool b => a == b
  | .number m, .number n => same m n
  | .string s, .string t => decide (s = t)
  | _, _ => false

/-! ### Structural equality -/

variable [DecidableEq σ] (same : ν → ν → Bool)

/-- Equality up to the order of members and the choice of equal numbers. -/
inductive Equal : Json σ ν → Json σ ν → Prop
  | primitive {left right : Json σ ν} (h : samePrimitive same left right = true) : Equal left right
  | array {left right : List (Json σ ν)} (hlength : left.length = right.length)
      (h : ∀ pair ∈ left.zip right, Equal pair.1 pair.2) : Equal (.array left) (.array right)
  | object {left right : Object σ ν}
      (hnames : ∀ name, (lookup name left).isSome = (lookup name right).isSome)
      (h : ∀ name a b, lookup name left = some a → lookup name right = some b → Equal a b) :
      Equal (.object left) (.object right)

variable {same}

theorem equal_array_iff {left right : List (Json σ ν)} : Equal same (.array left) (.array right) ↔
    left.length = right.length ∧ ∀ pair ∈ left.zip right, Equal same pair.1 pair.2 := by
  constructor
  · intro h
    cases h with
    | primitive h => cases h
    | array hlength h => exact ⟨hlength, h⟩
  · intro h
    exact .array h.1 h.2

theorem equal_object_iff {left right : Object σ ν} :
    Equal same (.object left) (.object right) ↔
      (∀ name, (lookup name left).isSome = (lookup name right).isSome) ∧
        ∀ name a b, lookup name left = some a → lookup name right = some b → Equal same a b := by
  constructor
  · intro h
    cases h with
    | primitive h => cases h
    | object hnames h => exact ⟨hnames, h⟩
  · intro h
    exact .object h.1 h.2

theorem kind_eq_of_equal {left right : Json σ ν} (h : Equal same left right) :
    kind left = kind right := by
  cases h with
  | primitive h =>
    cases left <;> cases right <;> first | rfl | cases h
  | array hlength h => rfl
  | object hnames h => rfl

theorem samePrimitive_of_kind_ne {left right : Json σ ν} (h : kind left ≠ kind right) :
    samePrimitive same left right = false := by
  rw [← Bool.not_eq_true]
  intro hsame
  exact h (kind_eq_of_equal (Equal.primitive hsame))

theorem equal_of_primitive {left right : Json σ ν}
    (hkind : kind left ≠ kind right ∨ kind left = .primitive) :
    Equal same left right ↔ samePrimitive same left right = true := by
  constructor
  · intro h
    cases h with
    | primitive h => exact h
    | array hlength h | object hnames h =>
      rcases hkind with hkind | hkind
      · exact absurd rfl hkind
      · cases hkind
  · exact .primitive

omit [DecidableEq σ] in
/-- Induction over a tree: containers through their items and members. -/
theorem induction {P : Json σ ν → Prop} (leaf : ∀ value, kind value = .primitive → P value)
    (array : ∀ items, (∀ item ∈ items, P item) → P (.array items))
    (object : ∀ members, (∀ member ∈ members, P member.2) → P (.object members)) :
    ∀ value, P value
  | .null => leaf .null rfl
  | .bool value => leaf (.bool value) rfl
  | .number value => leaf (.number value) rfl
  | .string value => leaf (.string value) rfl
  | .array items => array items fun item _ => induction leaf array object item
  | .object members => object members fun member _ => induction leaf array object member.2
termination_by value => sizeOf value
decreasing_by
  · exact Json.sizeOf_item ‹_›
  · exact Json.sizeOf_member ‹_›

theorem mem_of_lookup {α : Type} {members : List (σ × α)} {name : σ} {value : α}
    (h : lookup name members = some value) : (name, value) ∈ members := by
  induction members with
  | nil => cases h
  | cons member rest ih =>
    rw [lookup] at h
    split at h
    · rename_i hname
      rw [← hname, ← Option.some.inj h]
      exact List.mem_cons_self
    · exact List.mem_cons_of_mem _ (ih h)

theorem mem_zip_self {α : Type} {l : List α} {pair : α × α} (h : pair ∈ l.zip l) :
    pair.1 ∈ l ∧ pair.1 = pair.2 := by
  obtain ⟨i, hi, rfl⟩ := List.mem_iff_getElem.mp h
  rw [List.getElem_zip]
  exact ⟨List.getElem_mem _, rfl⟩

theorem equal_refl (hsame : ∀ n, same n n = true) (value : Json σ ν) : Equal same value value := by
  induction value using induction with
  | leaf value hkind =>
    apply Equal.primitive
    cases value with
    | null => rfl
    | bool value => exact beq_self_eq_true value
    | number value => exact hsame value
    | string value => exact decide_eq_true rfl
    | array items => cases hkind
    | object members => cases hkind
  | array items ih =>
    apply Equal.array rfl
    intro pair hpair
    obtain ⟨hitem, hsame⟩ := mem_zip_self hpair
    rw [← hsame]
    exact ih pair.1 hitem
  | object members ih =>
    apply Equal.object fun _ => rfl
    intro name a b ha hb
    obtain rfl := Option.some.inj (ha.symm.trans hb)
    exact ih (name, a) (mem_of_lookup ha)

/-! ### Places in a tree -/

/-- The value at a place. -/
def subvalue : List (Token σ) → Json σ ν → Option (Json σ ν)
  | [], value => some value
  | .index i :: rest, .array items => items[i]?.bind (subvalue rest)
  | .name name :: rest, .object members => (lookup name members).bind (subvalue rest)
  | _ :: _, _ => none

theorem subvalue_append (above rest : List (Token σ)) (value : Json σ ν) :
    subvalue (above ++ rest) value = (subvalue above value).bind (subvalue rest) := by
  induction above generalizing value with
  | nil => rfl
  | cons token above ih =>
    cases token with
    | index i =>
      cases value with
      | array items =>
        rw [List.cons_append, subvalue, subvalue, Option.bind_assoc]
        congr 1
        funext item
        exact ih item
      | _ => rfl
    | name name =>
      cases value with
      | object members =>
        rw [List.cons_append, subvalue, subvalue, Option.bind_assoc]
        congr 1
        funext member
        exact ih member
      | _ => rfl

/-- Put a value at a place; `none` takes the member away. -/
def patchAt (side : Option (Json σ ν)) : List (Token σ) → Option (Json σ ν) → Option (Json σ ν)
  | [], _ => side
  | .index i :: rest, some (.array items) =>
    match patchAt side rest items[i]? with
    | some item => some (.array (items.set i item))
    | none => some (.array items)
  | .name name :: rest, some (.object members) =>
    some (.object (alter name (patchAt side rest) members))
  | _ :: _, value => value

/-- A place and what belongs there. -/
structure Patch (σ ν : Type) where
  tokens : List (Token σ)
  side : Option (Json σ ν)

def Patch.under (token : Token σ) (patch : Patch σ ν) : Patch σ ν :=
  { patch with tokens := token :: patch.tokens }

/-- Apply patches one after the other. -/
def patchAll (patches : List (Patch σ ν)) (value : Option (Json σ ν)) : Option (Json σ ν) :=
  patches.foldl (fun value patch => patchAt patch.side patch.tokens value) value

theorem patchAll_append (front back : List (Patch σ ν)) (value : Option (Json σ ν)) :
    patchAll (front ++ back) value = patchAll back (patchAll front value) :=
  List.foldl_append

/-- Patches below one member change that member as they change a value of its own. -/
theorem patchAll_member (name : σ) (patches : List (Patch σ ν)) (members : Object σ ν) :
    ∃ members', patchAll (patches.map (Patch.under (.name name))) (some (.object members)) =
        some (.object members') ∧
      ∀ other, lookup other members' =
        if other = name then patchAll patches (lookup name members) else lookup other members := by
  induction patches generalizing members with
  | nil =>
    refine ⟨members, rfl, ?_⟩
    intro other
    split
    · rename_i h
      rw [h]
      rfl
    · rfl
  | cons patch patches ih =>
    obtain ⟨members', hpatch, hlookup⟩ := ih (alter name (patchAt patch.side patch.tokens) members)
    refine ⟨members', hpatch, ?_⟩
    intro other
    rw [hlookup, lookup_alter, lookup_alter, if_pos rfl]
    by_cases h : other = name
    · rw [if_pos h, if_pos h]
      rfl
    · rw [if_neg h, if_neg h, if_neg h]

/-- Patches below different members do not meet. -/
theorem patchAll_members (patches : σ → List (Patch σ ν)) (listed : List σ) (hlisted : listed.Nodup)
    (members : Object σ ν) :
    ∃ members', patchAll (listed.flatMap fun name => (patches name).map (Patch.under (.name name)))
        (some (.object members)) = some (.object members') ∧
      ∀ other, lookup other members' =
        if other ∈ listed then patchAll (patches other) (lookup other members)
        else lookup other members := by
  induction listed generalizing members with
  | nil => exact ⟨members, rfl, fun other => (if_neg List.not_mem_nil).symm⟩
  | cons name listed ih =>
    obtain ⟨hfresh, hnodup⟩ := List.nodup_cons.mp hlisted
    obtain ⟨members', hfirst, hlookup⟩ := patchAll_member name (patches name) members
    obtain ⟨members'', hrest, hlookup'⟩ := ih hnodup members'
    refine ⟨members'', ?_, ?_⟩
    · rw [List.flatMap_cons, patchAll_append, hfirst, hrest]
    · intro other
      rw [hlookup', hlookup]
      by_cases h : other = name
      · rw [if_pos h, if_neg (h ▸ hfresh), if_pos (h ▸ List.mem_cons_self), h]
      · rw [if_neg h]
        by_cases hmem : other ∈ listed
        · rw [if_pos hmem, if_pos (List.mem_cons_of_mem _ hmem)]
        · rw [if_neg hmem, if_neg]
          intro hcons
          rcases List.mem_cons.mp hcons with hname | hlater
          · exact h hname
          · exact hmem hlater

/-- A patch that leaves something at the root. -/
def Patch.Solid (patch : Patch σ ν) : Prop := patch.tokens = [] → patch.side.isSome = true

theorem patchAt_isSome {patch : Patch σ ν} (h : patch.Solid) (value : Json σ ν) :
    (patchAt patch.side patch.tokens (some value)).isSome = true := by
  obtain ⟨tokens, side⟩ := patch
  cases tokens with
  | nil => exact h rfl
  | cons token rest =>
    cases token with
    | index i =>
      cases value with
      | array items =>
        dsimp only [patchAt]
        split <;> rfl
      | _ => rfl
    | name name =>
      cases value with
      | object members => rfl
      | _ => rfl

theorem patchAll_item {i : ℕ} {patches : List (Patch σ ν)} (h : ∀ patch ∈ patches, patch.Solid)
    {items : List (Json σ ν)} {item : Json σ ν} (hitem : items[i]? = some item) :
    ∃ item', patchAll patches (some item) = some item' ∧
      patchAll (patches.map (Patch.under (.index i))) (some (.array items)) =
        some (.array (items.set i item')) := by
  induction patches generalizing items item with
  | nil =>
    refine ⟨item, rfl, ?_⟩
    obtain ⟨hi, rfl⟩ := List.getElem?_eq_some_iff.mp hitem
    rw [List.set_getElem_self]
    rfl
  | cons patch patches ih =>
    obtain ⟨first, hfirst⟩ := Option.isSome_iff_exists.mp
      (patchAt_isSome (h patch List.mem_cons_self) item)
    have hi : i < items.length := (List.getElem?_eq_some_iff.mp hitem).1
    have hset : (items.set i first)[i]? = some first := List.getElem?_set_self hi
    obtain ⟨item', hall, harray⟩ := ih (fun patch hpatch => h patch (List.mem_cons_of_mem _ hpatch)) hset
    refine ⟨item', ?_, ?_⟩
    · rw [patchAll, List.foldl_cons, hfirst]
      exact hall
    · rw [List.set_set] at harray
      rw [← harray, List.map_cons, patchAll, List.foldl_cons]
      have hstep : patchAt (patch.under (.index i)).side (patch.under (.index i)).tokens
          (some (.array items)) = some (.array (items.set i first)) := by
        dsimp only [Patch.under, patchAt]
        rw [hitem, hfirst]
      rw [hstep]
      rfl

end Trees

/-! ### Other strings and numbers -/

section Map

variable {σ τ ν μ : Type} (f : σ → τ) (g : ν → μ)

def Json.map : Json σ ν → Json τ μ
  | .null => .null
  | .bool value => .bool value
  | .number value => .number (g value)
  | .string value => .string (f value)
  | .array items => .array (items.map Json.map)
  | .object members => .object (members.map fun member => (f member.1, Json.map member.2))
termination_by value => sizeOf value
decreasing_by
  · exact Json.sizeOf_item ‹_›
  · exact Json.sizeOf_member ‹_›

theorem kind_map (value : Json σ ν) : kind (value.map f g) = kind value := by
  cases value <;> rw [Json.map] <;> rfl

variable [DecidableEq σ] [DecidableEq τ] {f g} {same : ν → ν → Bool} {same' : μ → μ → Bool}

theorem samePrimitive_map (hf : Function.Injective f) (hg : ∀ m n, same' (g m) (g n) = same m n)
    (left right : Json σ ν) :
    samePrimitive same' (left.map f g) (right.map f g) = samePrimitive same left right := by
  cases left <;> cases right <;> simp only [Json.map, samePrimitive, hg, hf.eq_iff]

theorem lookup_members (hf : Function.Injective f) (name : σ) (members : Object σ ν) :
    lookup (f name) (members.map fun member => (f member.1, member.2.map f g)) =
      (lookup name members).map (Json.map f g) :=
  lookup_map hf (Json.map f g) name members

omit [DecidableEq σ] in
theorem lookup_of_not_range {name' : τ} (h : ¬ ∃ name, f name = name') (members : Object σ ν) :
    lookup name' (members.map fun member => (f member.1, member.2.map f g)) = none := by
  rw [← Option.not_isSome_iff_eq_none]
  intro hsome
  obtain ⟨value, hvalue⟩ := Option.isSome_iff_exists.mp hsome
  obtain ⟨member, -, hmember⟩ := List.mem_map.mp (mem_of_lookup hvalue)
  exact h ⟨member.1, congrArg Prod.fst hmember⟩

/-- Trees over other strings and numbers are equal when the trees are. -/
theorem equal_map_iff (hf : Function.Injective f) (hg : ∀ m n, same' (g m) (g n) = same m n)
    (left right : Json σ ν) :
    Equal same' (left.map f g) (right.map f g) ↔ Equal same left right := by
  induction left using induction generalizing right with
  | leaf left hkind =>
    rw [equal_of_primitive (Or.inr hkind), equal_of_primitive (Or.inr ((kind_map f g left).trans hkind)),
      samePrimitive_map hf hg]
  | array items ih =>
    by_cases hkind : kind (Json.array items) = kind right
    · cases right with
      | array others =>
        rw [Json.map, Json.map, equal_array_iff, equal_array_iff, List.length_map, List.length_map,
          List.zip_map, List.forall_mem_map]
        apply and_congr_right
        intro _
        apply forall₂_congr
        intro pair hpair
        exact ih pair.1 (List.of_mem_zip hpair).1 pair.2
      | _ => cases hkind
    · rw [equal_of_primitive (Or.inl hkind), equal_of_primitive, samePrimitive_map hf hg]
      rw [kind_map, kind_map]
      exact Or.inl hkind
  | object members ih =>
    by_cases hkind : kind (Json.object members) = kind right
    · cases right with
      | object others =>
        rw [Json.map, Json.map, equal_object_iff, equal_object_iff]
        constructor
        · intro h
          constructor
          · intro name
            have hname := h.1 (f name)
            rwa [lookup_members hf, lookup_members hf, Option.isSome_map, Option.isSome_map] at hname
          · intro name a b ha hb
            have hequal := h.2 (f name) (a.map f g) (b.map f g)
            rw [lookup_members hf, lookup_members hf, ha, hb] at hequal
            exact (ih (name, a) (mem_of_lookup ha) b).mp (hequal rfl rfl)
        · intro h
          constructor
          · intro name'
            by_cases hname : ∃ name, f name = name'
            · obtain ⟨name, rfl⟩ := hname
              rw [lookup_members hf, lookup_members hf, Option.isSome_map, Option.isSome_map]
              exact h.1 name
            · rw [lookup_of_not_range hname, lookup_of_not_range hname]
          · intro name' a' b' ha' hb'
            by_cases hname : ∃ name, f name = name'
            · obtain ⟨name, rfl⟩ := hname
              rw [lookup_members hf, Option.map_eq_some_iff] at ha' hb'
              obtain ⟨a, ha, rfl⟩ := ha'
              obtain ⟨b, hb, rfl⟩ := hb'
              exact (ih (name, a) (mem_of_lookup ha) b).mpr (h.2 name a b ha hb)
            · rw [lookup_of_not_range hname] at ha'
              cases ha'
      | _ => cases hkind
    · rw [equal_of_primitive (Or.inl hkind), equal_of_primitive, samePrimitive_map hf hg]
      rw [kind_map, kind_map]
      exact Or.inl hkind

end Map

end DialCache.JsonTrees
