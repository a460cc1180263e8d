import Mathlib.Data.NNRat.Lemmas
import DialCache.JsonTrees
import DialCache.RememberedWalks

/-!
# The default comparator of the Go port

`SemanticEqual` compares two values by walking both. Slices, maps, member lists and pointers
are remembered by their addresses, pair by pair, and a pair of addresses that was met before
is answered `true` at once. A slice is remembered by its base address alone, without its
length, and a member list is compared as a temporary map whose address may be used again.
-/

namespace DialCache.SemanticEquality

open JsonTrees RememberedWalks

abbrev GoString := List UInt8

/-- A double. The sign of zero is kept. -/
inductive Float64 where
  | nan
  | infinite (negative : Bool)
  | finite (negative : Bool) (magnitude : ℚ≥0)
deriving DecidableEq

namespace Float64

def isNaN : Float64 → Bool
  | .nan => true
  | _ => false

def isZero : Float64 → Bool
  | .finite _ magnitude => decide (magnitude = 0)
  | _ => false

def signbit : Float64 → Bool
  | .nan => false
  | .infinite negative => negative
  | .finite negative _ => negative

/-- `==`: NaN equals nothing and the zeros are equal. -/
def eq (x y : Float64) : Bool :=
  !x.isNaN && !y.isNaN && (decide (x = y) || (x.isZero && y.isZero))

/-- The comparison of `semanticEqual`. -/
def same (x y : Float64) : Bool :=
  (x.isNaN && y.isNaN) || (x.eq y && (!x.isZero || x.signbit == y.signbit))

theorem same_iff (x y : Float64) : x.same y = true ↔ x = y := by
  cases x <;> cases y <;> simp [same, eq, isNaN, isZero, signbit]
  grind

end Float64

/-- A Go value without its interface wrappers. A slice has a base address and as many items as
its length says; two slices may have one base address. -/
inductive Value where
  | nil
  | absent
  | bool (value : Bool)
  | number (value : Float64)
  | string (value : GoString)
  | nilSlice (bytes : Bool)
  | slice (bytes : Bool) (base : ℕ) (items : List Value)
  | nilMap
  | map (address : ℕ) (members : List (GoString × Value))
  | object (base : ℕ) (members : List (GoString × Value))
  | nilPointer
  | pointer (address : ℕ) (target : Value)

/-- `reflect.Kind` of the remembered kinds. A member list is a slice. -/
inductive Kind where
  | slice
  | map
  | pointer
deriving DecidableEq

/-- The fields of `visit`. -/
structure Visit where
  kind : Kind
  pointer : ℕ
deriving DecidableEq

namespace Value

/-- The kind and `Pointer()` of a remembered value; those of nil values are zero. -/
def visit : Value → Option Visit
  | .nilSlice _ => some ⟨.slice, 0⟩
  | .slice _ base _ => some ⟨.slice, base⟩
  | .nilMap => some ⟨.map, 0⟩
  | .map address _ => some ⟨.map, address⟩
  | .object base _ => some ⟨.slice, base⟩
  | .pointer address _ => some ⟨.pointer, address⟩
  | _ => none

/-- A map or a member list: whether it is nil, and its members. Of the members of a list with one
name the last one counts. -/
def mapping : Value → Option (Bool × List (GoString × Value))
  | .nilMap => some (true, [])
  | .map _ members => some (false, members)
  | .object _ members => some (false, members.reverse)
  | _ => none

def isObject : Value → Bool
  | .object _ _ => true
  | _ => false

/-- A member list as a map that was made at an address. -/
def asMap (temporary : ℕ) : Value → Value
  | .object _ members => .map temporary members.reverse
  | a => a

/-- A slice: whether it has bytes, whether it is nil, and its items. -/
def asSlice : Value → Option (Bool × Bool × List Value)
  | .nilSlice bytes => some (bytes, true, [])
  | .slice bytes _ items => some (bytes, false, items)
  | _ => none

end Value

/-! ### The comparison -/

/-- What the runtime decides in a call, by the path of the call from the outermost one: where the
temporary maps are made, and in which order `MapKeys` lists a map. -/
structure Runtime where
  temporaries : List ℕ → ℕ × ℕ
  mapKeys : List ℕ → List (GoString × Value) → List (GoString × Value)
  mapKeys_perm : ∀ path members, (mapKeys path members).Perm members

/-- A call at a path. The right value is `none` if `MapIndex` finds no value of a name. -/
structure Call where
  path : List ℕ
  left : Value
  right : Option Value

/-- Equal sizes and nil flags of two maps. -/
def sameExtent (left right : Bool × List (GoString × Value)) : Bool :=
  decide ((own left.2).length = (own right.2).length) && left.1 == right.1

/-- What is compared before the pair of addresses is looked up. -/
def precheck (a b : Value) : Bool :=
  match a, b with
  | .nil, .nil => true
  | .absent, .absent => true
  | .bool x, .bool y => x == y
  | .number x, .number y => x.same y
  | .string s, .string t => decide (s = t)
  | .nilPointer, .nilPointer => true
  | .pointer _ _, .pointer _ _ => true
  | a, b =>
    match a.mapping, b.mapping with
    | some left, some right => a.isObject || b.isObject || sameExtent left right
    | _, _ =>
      match a.asSlice, b.asSlice with
      | some (bytes, isNil, items), some (bytes', isNil', items') =>
        bytes == bytes' && decide (items.length = items'.length) && isNil == isNil'
      | _, _ => false

def visitPair (a b : Value) : Option (Visit × Visit) :=
  match a.visit, b.visit with
  | some left, some right => some (left, right)
  | _, _ => none

variable (runtime : Runtime)

/-- What is compared after it: the temporary maps of member lists, or the items or members of the
left value with their partners. -/
def pairs (path : List ℕ) (a b : Value) : List (Value × Option Value) :=
  match a, b with
  | .pointer _ target, .pointer _ target' => [(target, some target')]
  | a, b =>
    if a.isObject || b.isObject then
      [(a.asMap (runtime.temporaries path).1, some (b.asMap (runtime.temporaries path).2))]
    else
      match a.mapping, b.mapping with
      | some left, some right =>
        (runtime.mapKeys path (own left.2)).map fun member => (member.2, lookup member.1 right.2)
      | _, _ =>
        match a.asSlice, b.asSlice with
        | some (_, _, items), some (_, _, items') =>
          (items.zip items').map fun pair => (pair.1, some pair.2)
        | _, _ => []

namespace Call

def precheck (call : Call) : Bool := call.right.any (SemanticEquality.precheck call.left)

def key (call : Call) : Option (Visit × Visit) := call.right.bind (visitPair call.left)

/-- The calls that a call makes. -/
def inner (call : Call) : List Call :=
  match call.right with
  | none => []
  | some b => (pairs runtime call.path call.left b).zipIdx.map fun pair =>
      ⟨pair.2 :: call.path, pair.1.1, pair.1.2⟩

end Call

/-- A loop that ends at the first `false`. -/
def allTrue {α σ : Type} (f : α → σ → Bool × σ) : List α → σ → Bool × σ
  | [], state => (true, state)
  | x :: xs, state => if (f x state).1 then allTrue f xs (f x state).2 else (false, (f x state).2)

/-- A size that counts neither the address of a map nor the order of its members. -/
noncomputable def Value.cost : Value → ℕ
  | .map _ members => sizeOf members
  | a => sizeOf a

theorem Value.cost_le (a : Value) : a.cost ≤ sizeOf a := by
  cases a with
  | map address members =>
    rw [Value.cost, Value.map.sizeOf_spec]
    omega
  | _ => exact Nat.le_refl _

theorem sizeOf_reverse {α : Type} [SizeOf α] (xs : List α) : sizeOf xs.reverse = sizeOf xs := by
  have happend : ∀ ys zs : List α, sizeOf (ys ++ zs) + 1 = sizeOf ys + sizeOf zs := by
    intro ys zs
    induction ys with
    | nil =>
      rw [List.nil_append, List.nil.sizeOf_spec]
      omega
    | cons y ys ih =>
      rw [List.cons_append, List.cons.sizeOf_spec, List.cons.sizeOf_spec]
      omega
  induction xs with
  | nil => rfl
  | cons x xs ih =>
    have hlast := happend xs.reverse [x]
    rw [List.reverse_cons]
    rw [List.cons.sizeOf_spec, List.nil.sizeOf_spec] at hlast
    rw [List.cons.sizeOf_spec]
    omega

theorem Value.cost_asMap (temporary : ℕ) (a : Value) :
    (a.asMap temporary).cost ≤ a.cost ∧ (a.isObject = true → (a.asMap temporary).cost < a.cost) := by
  cases a with
  | object base members =>
    have hlt : sizeOf members.reverse < sizeOf (Value.object base members) := by
      rw [sizeOf_reverse, Value.object.sizeOf_spec]
      omega
    exact ⟨hlt.le, fun _ => hlt⟩
  | _ => exact ⟨Nat.le_refl _, fun h => by cases h⟩

variable {a x : Value} {isNil : Bool}

theorem cost_of_mapping {members : List (GoString × Value)} {name : GoString}
    (hobject : a.isObject = false) (h : a.mapping = some (isNil, members))
    (hx : (name, x) ∈ members) : x.cost < a.cost := by
  have hlt := List.sizeOf_lt_of_mem hx
  rw [Prod.mk.sizeOf_spec] at hlt
  have hle := x.cost_le
  cases a <;> cases h <;> first | (cases hx; done) | cases hobject
  rw [Value.cost]
  omega

variable {bytes : Bool} {items : List Value}

theorem cost_of_asSlice (h : a.asSlice = some (bytes, isNil, items)) (hx : x ∈ items) :
    x.cost < a.cost := by
  have hlt := List.sizeOf_lt_of_mem hx
  have hle := x.cost_le
  cases a <;> cases h <;> first | (cases hx; done) | skip
  show x.cost < sizeOf (Value.slice bytes _ items)
  rw [Value.slice.sizeOf_spec]
  omega

noncomputable def Call.cost (call : Call) : ℕ := call.left.cost + (call.right.map Value.cost).getD 0

variable {b : Value}

theorem cost_of_pairs {runtime : Runtime} {path : List ℕ} {pair : Value × Option Value}
    (h : pair ∈ pairs runtime path a b) :
    pair.1.cost + (pair.2.map Value.cost).getD 0 < a.cost + b.cost := by
  unfold pairs at h
  split at h
  · obtain rfl := List.mem_singleton.mp h
    rename_i target q target'
    have hleft := target.cost_le
    have hright := target'.cost_le
    show target.cost + target'.cost < sizeOf (Value.pointer _ target) + sizeOf (Value.pointer q target')
    rw [Value.pointer.sizeOf_spec, Value.pointer.sizeOf_spec]
    omega
  · split at h
    · rename_i hobject
      obtain rfl := List.mem_singleton.mp h
      have hleft := a.cost_asMap (runtime.temporaries path).1
      have hright := b.cost_asMap (runtime.temporaries path).2
      rw [Bool.or_eq_true] at hobject
      simp only [Option.map_some, Option.getD_some]
      rcases hobject with hobject | hobject
      · have hlt := hleft.2 hobject
        omega
      · have hlt := hright.2 hobject
        omega
    · rename_i hobject
      simp only [Bool.or_eq_true, not_or, Bool.not_eq_true] at hobject
      split at h
      · rename_i left right ha hb
        obtain ⟨member, hmember, rfl⟩ := List.mem_map.mp h
        have hown := (runtime.mapKeys_perm path _).mem_iff.mp hmember
        have hleft := cost_of_mapping hobject.1 ha (mem_of_lookup (mem_own.mp hown))
        cases hpartner : lookup member.1 right.2 with
        | none =>
          simp only [Option.map_none, Option.getD_none]
          omega
        | some y =>
          have hright := cost_of_mapping hobject.2 hb (mem_of_lookup hpartner)
          simp only [Option.map_some, Option.getD_some]
          omega
      · split at h
        · rename_i ha hb
          obtain ⟨both, hboth, rfl⟩ := List.mem_map.mp h
          have hleft := cost_of_asSlice ha (List.of_mem_zip hboth).1
          have hright := cost_of_asSlice hb (List.of_mem_zip hboth).2
          simp only [Option.map_some, Option.getD_some]
          omega
        · cases h

theorem Call.cost_of_inner {runtime : Runtime} {call call' : Call}
    (h : call' ∈ call.inner runtime) : call'.cost < call.cost := by
  unfold Call.inner at h
  split at h
  · cases h
  · rename_i b hright
    obtain ⟨pair, hpair, rfl⟩ := List.mem_map.mp h
    have hcost := cost_of_pairs (List.fst_mem_of_mem_zipIdx hpair)
    rw [Call.cost, Call.cost, hright]
    exact hcost

def semanticEqual (runtime : Runtime) (call : Call) (seen : List (Visit × Visit)) :
    Bool × List (Visit × Visit) :=
  if call.precheck then
    if ∃ key ∈ call.key, key ∈ seen then (true, seen)
    else
      allTrue (fun call' seen => semanticEqual runtime call'.1 seen) (call.inner runtime).attach
        (call.key.toList ++ seen)
  else (false, seen)
termination_by call.cost
decreasing_by exact Call.cost_of_inner call'.2

/-- `SemanticEqual`. -/
def compare (left right : Value) : Bool :=
  (semanticEqual runtime ⟨[], left, some right⟩ []).1

/-! ### Structural equality -/

def Value.isLeaf : Value → Bool
  | .nil => true
  | .absent => true
  | .bool _ => true
  | .number _ => true
  | .string _ => true
  | .nilPointer => true
  | _ => false

/-- What two values without their addresses have in common. -/
inductive Equal : Value → Value → Prop
  | leaf {a : Value} (h : a.isLeaf = true) : Equal a a
  | pointer {p q : ℕ} {x y : Value} (h : Equal x y) : Equal (.pointer p x) (.pointer q y)
  | slice {a b : Value} {bytes isNil : Bool} {items items' : List Value}
      (ha : a.asSlice = some (bytes, isNil, items)) (hb : b.asSlice = some (bytes, isNil, items'))
      (hlength : items.length = items'.length)
      (h : ∀ (i : ℕ) x y, items[i]? = some x → items'[i]? = some y → Equal x y) : Equal a b
  | map {a b : Value} {isNil : Bool} {left right : List (GoString × Value)}
      (ha : a.mapping = some (isNil, left)) (hb : b.mapping = some (isNil, right))
      (hnames : ∀ name, (lookup name left).isSome = (lookup name right).isSome)
      (h : ∀ name x y, lookup name left = some x → lookup name right = some y → Equal x y) :
      Equal a b

theorem allTrue_map {α β σ : Type} (f : β → σ → Bool × σ) (g : α → β) (xs : List α) (state : σ) :
    allTrue f (xs.map g) state = allTrue (fun x => f (g x)) xs state := by
  induction xs generalizing state with
  | nil => rfl
  | cons x xs ih =>
    simp only [List.map_cons, allTrue]
    rw [ih]

/-! ### One pair -/

theorem not_mapping_of_isLeaf (h : a.isLeaf = true) : a.mapping = none := by
  cases a <;> first | rfl | cases h

theorem asSlice_of_mapping {view : Bool × List (GoString × Value)} (h : a.mapping = some view) :
    a.asSlice = none := by
  cases a <;> first | rfl | cases h

theorem precheck_of_isLeaf (h : a.isLeaf = true) : precheck a a = true := by
  cases a <;> first | (cases h; done) | simp [precheck, Float64.same_iff]

theorem pairs_of_isLeaf (path : List ℕ) (h : a.isLeaf = true) : pairs runtime path a a = [] := by
  cases a <;> first | rfl | cases h

theorem precheck_of_asSlice {bytes' isNil' : Bool} {items' : List Value}
    (ha : a.asSlice = some (bytes, isNil, items)) (hb : b.asSlice = some (bytes', isNil', items')) :
    precheck a b =
      (bytes == bytes' && decide (items.length = items'.length) && isNil == isNil') := by
  cases a <;> cases ha <;> cases b <;> cases hb <;> rfl

theorem pairs_of_asSlice (path : List ℕ) {bytes' isNil' : Bool} {items' : List Value}
    (ha : a.asSlice = some (bytes, isNil, items)) (hb : b.asSlice = some (bytes', isNil', items')) :
    pairs runtime path a b = (items.zip items').map fun pair => (pair.1, some pair.2) := by
  cases a <;> cases ha <;> cases b <;> cases hb <;> rfl

section Mappings

variable {a b : Value} {left right : Bool × List (GoString × Value)}
  (ha : a.mapping = some left) (hb : b.mapping = some right)
include ha hb

theorem precheck_of_mapping :
    precheck a b = (a.isObject || b.isObject || sameExtent left right) := by
  cases a <;> cases ha <;> cases b <;> cases hb <;> rfl

theorem pairs_of_mapping (path : List ℕ) :
    pairs runtime path a b = if a.isObject || b.isObject then
        [(a.asMap (runtime.temporaries path).1, some (b.asMap (runtime.temporaries path).2))]
      else
        (runtime.mapKeys path (own left.2)).map
          fun member => (member.2, lookup member.1 right.2) := by
  cases a <;> cases ha <;> cases b <;> cases hb <;> rfl

theorem equal_of_mapping : Equal a b ↔ sameExtent left right = true ∧
    ∀ member ∈ own left.2, ∃ y, lookup member.1 right.2 = some y ∧ Equal member.2 y := by
  rw [sameExtent, Bool.and_eq_true, decide_eq_true_eq, beq_iff_eq, and_right_comm,
    ← matches_iff_own (R := Equal)]
  constructor
  · intro h
    cases h with
    | leaf h => exact absurd (ha.symm.trans (not_mapping_of_isLeaf h)) (by simp)
    | pointer _ => cases ha
    | slice hslice _ _ _ => exact absurd (hslice.symm.trans (asSlice_of_mapping ha)) (by simp)
    | map ha' hb' hnames h =>
      cases ha.symm.trans ha'
      cases hb.symm.trans hb'
      exact ⟨⟨hnames, h⟩, rfl⟩
  · rintro ⟨⟨hnames, h⟩, hnil⟩
    obtain ⟨isNil, left⟩ := left
    obtain ⟨isNil', right⟩ := right
    obtain rfl : isNil = isNil' := hnil
    exact .map ha hb hnames h

end Mappings

theorem mapping_asMap (temporary : ℕ) (a : Value) : (a.asMap temporary).mapping = a.mapping := by
  cases a <;> rfl

/-- The values of a call are structurally equal. -/
def PairEqual (pair : Value × Option Value) : Prop := ∃ y, pair.2 = some y ∧ Equal pair.1 y

theorem pairs_equal_of_mapping {left right : Bool × List (GoString × Value)}
    (ha : a.mapping = some left) (hb : b.mapping = some right) (runtime : Runtime) (path : List ℕ) :
    Equal a b ↔ precheck a b = true ∧ ∀ pair ∈ pairs runtime path a b, PairEqual pair := by
  rw [precheck_of_mapping ha hb, pairs_of_mapping runtime ha hb]
  by_cases hobject : (a.isObject || b.isObject) = true
  · rw [hobject, Bool.true_or, if_pos rfl, List.forall_mem_singleton]
    have hleft := (mapping_asMap (runtime.temporaries path).1 a).trans ha
    have hright := (mapping_asMap (runtime.temporaries path).2 b).trans hb
    simp [PairEqual, equal_of_mapping ha hb, equal_of_mapping hleft hright]
  · rw [if_neg hobject, Bool.eq_false_iff.mpr hobject, Bool.false_or, equal_of_mapping ha hb,
      List.forall_mem_map]
    refine and_congr Iff.rfl ?_
    constructor
    · intro h member hmember
      exact h member ((runtime.mapKeys_perm path _).mem_iff.mp hmember)
    · intro h member hmember
      exact h member ((runtime.mapKeys_perm path _).mem_iff.mpr hmember)

/-- The pairs that are compared any further. -/
theorem precheck_cases (h : precheck a b = true) :
    (a.isLeaf = true ∧ a = b) ∨ (∃ p x q y, a = .pointer p x ∧ b = .pointer q y) ∨
      (∃ left right, a.mapping = some left ∧ b.mapping = some right) ∨
      ∃ bytes isNil items items', a.asSlice = some (bytes, isNil, items) ∧
        b.asSlice = some (bytes, isNil, items') ∧ items.length = items'.length := by
  unfold precheck at h
  split at h
  · exact .inl ⟨rfl, rfl⟩
  · exact .inl ⟨rfl, rfl⟩
  · exact .inl ⟨rfl, congrArg Value.bool (eq_of_beq h)⟩
  · exact .inl ⟨rfl, congrArg Value.number ((Float64.same_iff _ _).mp h)⟩
  · exact .inl ⟨rfl, congrArg Value.string (of_decide_eq_true h)⟩
  · exact .inl ⟨rfl, rfl⟩
  · exact .inr (.inl ⟨_, _, _, _, rfl, rfl⟩)
  · split at h
    · rename_i left right ha hb
      exact .inr (.inr (.inl ⟨left, right, ha, hb⟩))
    · split at h
      · rename_i bytes isNil items bytes' isNil' items' ha hb
        simp only [Bool.and_eq_true, beq_iff_eq, decide_eq_true_eq] at h
        obtain ⟨⟨rfl, hlength⟩, rfl⟩ := h
        exact .inr (.inr (.inr ⟨bytes, isNil, items, items', ha, hb, hlength⟩))
      · cases h

/-- Structural equality is what one call checks, with structural equality below it. -/
theorem equal_iff (path : List ℕ) :
    Equal a b ↔ precheck a b = true ∧ ∀ pair ∈ pairs runtime path a b, PairEqual pair := by
  constructor
  · intro h
    cases h with
    | leaf h =>
      rw [pairs_of_isLeaf runtime path h]
      exact ⟨precheck_of_isLeaf h, List.forall_mem_nil _⟩
    | pointer h => exact ⟨rfl, List.forall_mem_singleton.mpr ⟨_, rfl, h⟩⟩
    | slice ha hb hlength h =>
      rw [precheck_of_asSlice ha hb, pairs_of_asSlice runtime path ha hb, List.forall_mem_map]
      refine ⟨by simpa using hlength, ?_⟩
      intro both hboth
      obtain ⟨i, hi⟩ := List.mem_iff_getElem?.mp hboth
      obtain ⟨hx, hy⟩ := List.getElem?_zip_eq_some.mp hi
      exact ⟨both.2, rfl, h i both.1 both.2 hx hy⟩
    | map ha hb hnames h =>
      exact (pairs_equal_of_mapping ha hb runtime path).mp (.map ha hb hnames h)
  · rintro ⟨hprecheck, h⟩
    rcases precheck_cases hprecheck with ⟨hleaf, rfl⟩ | ⟨p, x, q, y, rfl, rfl⟩ |
      ⟨left, right, ha, hb⟩ | ⟨bytes, isNil, items, items', ha, hb, hlength⟩
    · exact .leaf hleaf
    · obtain ⟨z, hz, h⟩ := List.forall_mem_singleton.mp h
      obtain rfl := Option.some.inj hz
      exact .pointer h
    · exact (pairs_equal_of_mapping ha hb runtime path).mpr ⟨hprecheck, h⟩
    · rw [pairs_of_asSlice runtime path ha hb, List.forall_mem_map] at h
      apply Equal.slice ha hb hlength
      intro i x y hx hy
      have hpair := List.mem_of_getElem? (List.getElem?_zip_eq_some (z := (x, y)) |>.mpr ⟨hx, hy⟩)
      obtain ⟨z, hz, h⟩ := h _ hpair
      obtain rfl := Option.some.inj hz
      exact h

/-! ### The calls of a comparison -/

theorem Call.induction (runtime : Runtime) {P : Call → Prop}
    (h : ∀ call, (∀ call' ∈ call.inner runtime, P call') → P call) (call : Call) : P call :=
  h call fun call' hinner => by
    have hcost := Call.cost_of_inner hinner
    exact Call.induction runtime h call'
termination_by call.cost

def Call.Equal (call : Call) : Prop := PairEqual (call.left, call.right)

theorem Call.equal_iff (call : Call) :
    call.Equal ↔ call.precheck = true ∧ ∀ call' ∈ call.inner runtime, call'.Equal := by
  obtain ⟨path, a, right⟩ := call
  cases right with
  | none => simp [Call.Equal, PairEqual, Call.precheck]
  | some b =>
    have hequal : Call.Equal ⟨path, a, some b⟩ ↔ SemanticEquality.Equal a b := by
      simp [Call.Equal, PairEqual]
    have hnumbered : (∀ pair ∈ pairs runtime path a b, PairEqual pair) ↔
        ∀ pair ∈ (pairs runtime path a b).zipIdx, PairEqual pair.1 := by
      conv_lhs => rw [← List.zipIdx_map_fst 0 (pairs runtime path a b)]
      exact List.forall_mem_map
    rw [hequal, SemanticEquality.equal_iff runtime path, hnumbered]
    refine and_congr Iff.rfl ?_
    rw [Call.inner, List.forall_mem_map]
    rfl

/-- The calls that the comparison makes when nothing is answered from memory, in their order. -/
def steps (runtime : Runtime) (call : Call) : List (Step (Visit × Visit)) :=
  let below := (call.inner runtime).attach.flatMap fun call' => steps runtime call'.1
  ⟨call.precheck, call.key, below.length⟩ :: below
termination_by call.cost
decreasing_by exact Call.cost_of_inner call'.2

theorem steps_eq (call : Call) :
    steps runtime call = ⟨call.precheck, call.key,
      ((call.inner runtime).flatMap (steps runtime)).length⟩ ::
        (call.inner runtime).flatMap (steps runtime) := by
  have hbelow : (call.inner runtime).attach.flatMap (fun call' => steps runtime call'.1) =
      (call.inner runtime).flatMap (steps runtime) := by
    rw [← List.flatMap_map, List.attach_map_subtype_val]
  rw [steps, hbelow]

theorem nested_steps (call : Call) : Nested (steps runtime call) := by
  induction call using Call.induction runtime with
  | h call ih =>
    rw [steps_eq]
    exact nested_cons (nested_flatMap ih) _ _

theorem equal_iff_steps (call : Call) :
    call.Equal ↔ ∀ step ∈ steps runtime call, step.passes = true := by
  induction call using Call.induction runtime with
  | h call ih =>
    rw [steps_eq, List.forall_mem_cons, Call.equal_iff runtime]
    refine and_congr Iff.rfl ?_
    simp only [List.mem_flatMap]
    constructor
    · rintro h step ⟨call', hinner, hstep⟩
      exact (ih call' hinner).mp (h call' hinner) step hstep
    · intro h call' hinner
      exact (ih call' hinner).mpr fun step hstep => h step ⟨call', hinner, hstep⟩

theorem semanticEqual_eq (call : Call) (seen : List (Visit × Visit)) :
    semanticEqual runtime call seen = if call.precheck then
        if ∃ key ∈ call.key, key ∈ seen then (true, seen)
        else allTrue (semanticEqual runtime) (call.inner runtime) (call.key.toList ++ seen)
      else (false, seen) := by
  have hattach : ∀ (calls : List Call) (seen : List (Visit × Visit)),
      allTrue (fun (call' : { x // x ∈ calls }) seen => semanticEqual runtime call'.1 seen)
        calls.attach seen = allTrue (semanticEqual runtime) calls seen := by
    intro calls seen
    have hmap := allTrue_map (semanticEqual runtime) Subtype.val calls.attach seen
    rw [List.attach_map_subtype_val] at hmap
    exact hmap.symm
  rw [semanticEqual, hattach]

/-- A comparison is a walk over its calls. -/
theorem walk_steps (call : Call) (seen : List (Visit × Visit))
    (rest : List (Step (Visit × Visit))) : walk (steps runtime call ++ rest) seen =
      ((semanticEqual runtime call seen).1 && walk rest (semanticEqual runtime call seen).2) := by
  induction call using Call.induction runtime generalizing seen rest with
  | h call ih =>
    have hloop : ∀ calls, (∀ call' ∈ calls, call' ∈ call.inner runtime) → ∀ seen,
        walk (calls.flatMap (steps runtime) ++ rest) seen =
          ((allTrue (semanticEqual runtime) calls seen).1 &&
            walk rest (allTrue (semanticEqual runtime) calls seen).2) := by
      intro calls
      induction calls with
      | nil =>
        intro _ seen
        rfl
      | cons call' calls ihcalls =>
        intro hcalls seen
        rw [List.forall_mem_cons] at hcalls
        rw [List.flatMap_cons, List.append_assoc, ih call' hcalls.1, allTrue]
        cases (semanticEqual runtime call' seen).1 with
        | false => rfl
        | true => exact ihcalls hcalls.2 _
    rw [steps_eq, List.cons_append, walk, semanticEqual_eq]
    by_cases hprecheck : call.precheck = true
    · rw [if_pos hprecheck, if_pos hprecheck]
      by_cases hseen : ∃ key ∈ call.key, key ∈ seen
      · rw [if_pos hseen, if_pos hseen, List.drop_left]
        rfl
      · rw [if_neg hseen, if_neg hseen]
        exact hloop _ (fun _ => id) _
    · rw [if_neg hprecheck, if_neg hprecheck]
      rfl

/-! ### The comparator -/

def Value.ofNat (n : ℕ) : Value := .number (.finite false n)

/-- A slice of two slices over one memory, the second one longer. -/
def Value.cuts (outer base n : ℕ) : Value :=
  .slice false outer [.slice false base [.ofNat 1], .slice false base [.ofNat 1, .ofNat n]]

/-- A slice of two member lists, each with a member of an empty name. -/
def Value.lists (outer first second n : ℕ) : Value :=
  .slice false outer [.object first [([], .ofNat 1)], .object second [([], .ofNat n)]]

/-- Every two temporary maps are made where the last two were. -/
def reusing : Runtime where
  temporaries _ := (7, 8)
  mapKeys _ members := members
  mapKeys_perm _ _ := .refl _

theorem not_equal_ofNat {m n : ℕ} (h : m ≠ n) : ¬ Equal (.ofNat m) (.ofNat n) := by
  intro hequal
  have hsame := (Float64.same_iff _ _).mp ((equal_iff reusing []).mp hequal).1
  simp [h] at hsame

theorem Equal.item {bytes' : Bool} {base base' : ℕ} {items' : List Value}
    (h : Equal (.slice bytes base items) (.slice bytes' base' items')) (i : ℕ) {y : Value}
    (hx : items[i]? = some x) (hy : items'[i]? = some y) : Equal x y := by
  cases h with
  | leaf hleaf => cases hleaf
  | map ha _ _ _ => cases ha
  | slice ha hb _ h =>
    cases ha
    cases hb
    exact h i x y hx hy

end DialCache.SemanticEquality
