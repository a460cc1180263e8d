import Mathlib.Logic.Relation
import DialCache.StaticDefaults

/-!
# Snapshots of mutable defaults

A default is an object of the caller, who may change it after the operation was registered.
Registration copies its groups into fresh objects and freezes them. The objects are kept in a heap
here, and everything that a call reads from the snapshot is the same after any later change of the
heap.
-/

namespace DialCache.DefaultSnapshots

open JsValues CacheKeys RuntimeConfig CacheOperations ShadowValidation CacheTraversal PolicyOverlays
open StaticDefaults

/-! ### Objects in a heap -/

/-- A JavaScript value whose objects are references. -/
inductive Slot where
  | undefined
  | null
  | boolean (value : Bool)
  | number (value : JsNumber)
  | string (units : List UInt16)
  | foreign
  | reference (address : ℕ)

/-- A value without the objects that it refers to. -/
def Slot.value : Slot → JsValue
  | .undefined => .undefined
  | .null => .null
  | .boolean value => .boolean value
  | .number value => .number value
  | .string units => .string units
  | .foreign => .foreign
  | .reference _ => .foreign

abbrev SlotMembers := List (List UInt16 × Slot)

/-- The member of that name, and `undefined` where there is none. -/
def findMember (members : SlotMembers) (name : String) : Slot :=
  ((members.find? fun m => m.1 = text name).map (·.2)).getD .undefined

/-- `members.name = slot` for a member that is there. -/
def setMember (members : SlotMembers) (name : String) (slot : Slot) : SlotMembers :=
  members.map fun m => if m.1 = text name then (m.1, slot) else m

structure HeapObject where
  isArray : Bool
  members : SlotMembers
  frozen : Bool

/-- Objects by their address. -/
abbrev Heap := List HeapObject

namespace Heap

/-- The own members of a value; nothing has members here but a plain object. -/
def members (heap : Heap) (value : Slot) : SlotMembers :=
  match value with
  | .reference address =>
    match heap[address]? with
    | none => []
    | some object => if object.isArray then [] else object.members
  | _ => []

/-- `value.name`. -/
def get (heap : Heap) (value : Slot) (name : String) : Slot := findMember (heap.members value) name

/-- A value as a tree, down to a depth below which no object is looked into. -/
def view (heap : Heap) : ℕ → Slot → JsValue
  | 0, value => value.value
  | depth + 1, .reference address =>
    match heap[address]? with
    | none => .foreign
    | some object =>
      if object.isArray then .array []
      else .object (object.members.map fun member => (member.1, heap.view depth member.2))
  | _ + 1, value => value.value

end Heap

/-! ### The snapshot -/

/-- A frozen copy. -/
def frozenObject (members : SlotMembers) : HeapObject := ⟨false, members, true⟩

/-- A member that is left out where its value is `undefined`. -/
def optional (name : String) : Slot → SlotMembers
  | .undefined => []
  | slot => [(text name, slot)]

def isUnset : Slot → Bool
  | .undefined => true
  | _ => false

/-- The copy of a shadow group, with a copy of its mismatch leaves, after the copies that are
there. -/
def captureShadow (heap copies : Heap) (shadow : Slot) : Heap × Slot :=
  if isUnset shadow then (copies, .undefined)
  else
    let group := heap.get shadow "mismatchLogging"
    if isUnset group then
      (copies ++ [frozenObject (heap.members shadow)], .reference copies.length)
    else
      (copies ++ [frozenObject (heap.members group),
        frozenObject (setMember (heap.members shadow) "mismatchLogging" (.reference copies.length))],
        .reference (copies.length + 1))

variable (heap : Heap)

/-- The members of a `DialCacheKeyConfig`, with its groups. -/
def configMembers (config ttlSec ramp shadow : Slot) : SlotMembers :=
  (text "ttlSec", ttlSec) :: (text "ramp", ramp) :: (optional "shadow" shadow ++
    (optional "requestLocal" (heap.get config "requestLocal") ++
      (optional "coalesce" (heap.get config "coalesce") ++
        (optional "staleOnErrorMaxAgeSec" (heap.get config "staleOnErrorMaxAgeSec") ++
          optional "remoteReadTimeoutMs" (heap.get config "remoteReadTimeoutMs")))))

/-- The copies of the two layer maps. -/
def captureLayers (config : Slot) : Heap :=
  heap ++ [frozenObject (heap.members (heap.get config "ttlSec")),
    frozenObject (heap.members (heap.get config "ramp"))]

/-- The `DialCacheKeyConfig` that registration builds and freezes. -/
def capture (config : Slot) : Heap × Slot :=
  let captured := captureShadow heap (captureLayers heap config) (heap.get config "shadow")
  (captured.1 ++ [frozenObject (configMembers heap config (.reference heap.length)
      (.reference (heap.length + 1)) captured.2)],
    .reference captured.1.length)

/-- `snapshotDefaultConfig` on an object of the caller. -/
def snapshot (config : Slot) : Except ConfigError (Heap × Slot) :=
  match snapshotDefaultConfig (heap.view 3 config) with
  | .error e => .error e
  | .ok none => .ok (heap, .null)
  | .ok (some _) => .ok (capture heap config)

/-- What a call reads from a snapshot. -/
def readShadow (shadow : Slot) : Option ShadowConfig :=
  if isUnset shadow then none
  else
    let group := heap.get shadow "mismatchLogging"
    some ⟨(heap.get shadow "ramp").value, (heap.get shadow "logMismatches").value,
      if isUnset group then none
      else some ⟨(heap.get group "value").value, (heap.get group "diff").value⟩⟩

def readFlag : JsValue → Option Bool
  | .boolean value => some value
  | _ => none

def readDeadline (value : JsValue) : Option DeadlineMs :=
  match deadlineMs "DialCache remoteReadTimeoutMs" value with
  | .ok deadline => deadline
  | .error _ => none

def readConfig (config : Slot) : Option DialCacheKeyConfig :=
  match config with
  | .reference _ =>
    let layers := fun name =>
      (⟨(heap.get (heap.get config name) "local").value,
        (heap.get (heap.get config name) "remote").value⟩ : LayerConfig)
    some {
      ttlSec := layers "ttlSec"
      ramp := layers "ramp"
      shadow := readShadow heap (heap.get config "shadow")
      requestLocal := readFlag (heap.get config "requestLocal").value
      coalesce := readFlag (heap.get config "coalesce").value
      staleOnErrorMaxAgeSec := (heap.get config "staleOnErrorMaxAgeSec").value
      remoteReadTimeoutMs := readDeadline (heap.get config "remoteReadTimeoutMs").value }
  | _ => none

/-! ### Changes of the heap -/

/-- A change of one object that is not frozen, or a new object. -/
inductive Mutation : Heap → Heap → Prop
  | change {heap : Heap} {address : ℕ} {object : HeapObject} (changed : HeapObject)
      (h : heap[address]? = some object) (hopen : object.frozen = false) :
      Mutation heap (heap.set address changed)
  | allocate {heap : Heap} (object : HeapObject) : Mutation heap (heap ++ [object])

variable {heap : Heap} {address : ℕ}

theorem frozen_of_mutation {later : Heap} (h : Mutation heap later) {object : HeapObject}
    (hobject : heap[address]? = some object) (hfrozen : object.frozen = true) :
    later[address]? = some object := by
  cases h with
  | @change other changed h hopen hclosed =>
    by_cases haddress : other = address
    · subst haddress
      obtain rfl := Option.some.inj (hobject.symm.trans hopen)
      exact absurd (hfrozen.symm.trans hclosed) (by simp)
    · rw [List.getElem?_set_ne haddress]
      exact hobject
  | allocate object =>
    rw [List.getElem?_append_left (List.getElem?_eq_some_iff.mp hobject).1]
    exact hobject

/-- A frozen object is there unchanged after every run of changes. -/
theorem frozen_of_run {later : Heap} (h : Relation.ReflTransGen Mutation heap later)
    {object : HeapObject} (hobject : heap[address]? = some object) (hfrozen : object.frozen = true) :
    later[address]? = some object := by
  induction h with
  | refl => exact hobject
  | tail _ hstep ih => exact frozen_of_mutation hstep ih hfrozen

/-! ### What is read -/

theorem view_undefined (heap : Heap) (depth : ℕ) : heap.view depth .undefined = .undefined := by
  cases depth <;> rfl

variable {depth : ℕ} {slot : Slot}

theorem view_eq_undefined : heap.view depth slot = .undefined ↔ isUnset slot = true := by
  cases depth with
  | zero => cases slot <;> simp [Heap.view, Slot.value, isUnset]
  | succ depth =>
    cases slot with
    | reference address =>
      rw [Heap.view]
      split
      · simp [isUnset]
      · split <;> simp [isUnset]
    | _ => simp [Heap.view, Slot.value, isUnset]

/-- A primitive is read without its heap. -/
theorem value_of_isPrimitive (h : isPrimitive (heap.view depth slot) = true) :
    slot.value = heap.view depth slot := by
  cases depth with
  | zero => rfl
  | succ depth =>
    cases slot with
    | reference address =>
      rw [Heap.view] at h
      split at h
      · cases h
      · split at h <;> cases h
    | _ => rfl

/-- Members of a view are views of members. -/
theorem member_view (heap : Heap) (depth : ℕ) (slot : Slot) (name : String) :
    (heap.view (depth + 1) slot).member name = heap.view depth (heap.get slot name) := by
  cases slot with
  | reference address =>
    rw [Heap.view, Heap.get, Heap.members]
    cases heap[address]? with
    | none => exact (view_undefined heap depth).symm
    | some object =>
      obtain ⟨isArray, members, frozen⟩ := object
      cases isArray with
      | true => exact (view_undefined heap depth).symm
      | false =>
        simp only [Bool.false_eq_true, if_false, JsValue.member, findMember, List.find?_map,
          Function.comp_def, Option.map_map]
        cases members.find? fun m => decide (m.1 = text name) with
        | none => exact (view_undefined heap depth).symm
        | some member => rfl
  | _ => exact (view_undefined heap depth).symm

/-- A frozen copy that is in the heap. -/
def Kept (heap : Heap) (address : ℕ) (members : SlotMembers) : Prop :=
  heap[address]? = some (frozenObject members)

variable {members : SlotMembers}

theorem Kept.get (h : Kept heap address members) (name : String) :
    heap.get (.reference address) name = findMember members name := by
  simp only [Heap.get, Heap.members]
  rw [h]
  rfl

theorem Kept.later {later : Heap} (hrun : Relation.ReflTransGen Mutation heap later)
    (h : Kept heap address members) : Kept later address members :=
  frozen_of_run hrun h rfl

theorem Kept.append (h : Kept heap address members) (rest : Heap) :
    Kept (heap ++ rest) address members := by
  rw [Kept, List.getElem?_append_left (List.getElem?_eq_some_iff.mp h).1]
  exact h

theorem kept_last (heap : Heap) (members : SlotMembers) (rest : Heap) :
    Kept (heap ++ frozenObject members :: rest) heap.length members := by
  rw [Kept, List.getElem?_append_right (Nat.le_refl _), Nat.sub_self]
  rfl

/-! ### Members of the copies -/

theorem findMember_cons (member : List UInt16 × Slot) (rest : SlotMembers) (name : String) :
    findMember (member :: rest) name =
      if member.1 = text name then member.2 else findMember rest name := by
  by_cases h : member.1 = text name <;> simp [findMember, h]

theorem findMember_optional_append (name other : String) (slot : Slot) (rest : SlotMembers) :
    findMember (optional name slot ++ rest) other =
      if text name = text other ∧ isUnset slot = false then slot else findMember rest other := by
  cases slot with
  | undefined => simp [optional, isUnset]
  | _ => simp [optional, isUnset, findMember_cons]

theorem findMember_optional (name other : String) (slot : Slot) :
    findMember (optional name slot) other = if text name = text other then slot else .undefined := by
  rw [← List.append_nil (optional name slot), findMember_optional_append]
  cases slot with
  | undefined => simp [isUnset, findMember]
  | _ => simp [isUnset, findMember]

/-- A member of the snapshot is the one it was given. -/
theorem findMember_configMembers (heap : Heap) (config ttlSec ramp shadow : Slot) :
    findMember (configMembers heap config ttlSec ramp shadow) "ttlSec" = ttlSec ∧
      findMember (configMembers heap config ttlSec ramp shadow) "ramp" = ramp ∧
      findMember (configMembers heap config ttlSec ramp shadow) "shadow" = shadow ∧
      ∀ name ∈ ["requestLocal", "coalesce", "staleOnErrorMaxAgeSec", "remoteReadTimeoutMs"],
        findMember (configMembers heap config ttlSec ramp shadow) name = heap.get config name := by
  have hset : ∀ slot : Slot, (if isUnset slot = false then slot else .undefined) = slot := by
    intro slot
    cases slot <;> rfl
  simp +decide only [configMembers, findMember_cons, findMember_optional_append,
    findMember_optional, List.forall_mem_cons, List.not_mem_nil, IsEmpty.forall_iff, implies_true,
    if_true, if_false, true_and, false_and, hset]

theorem findMember_setMember_of_ne (members : SlotMembers) {name other : String}
    (h : text name ≠ text other) (slot : Slot) :
    findMember (setMember members name slot) other = findMember members other := by
  induction members with
  | nil => rfl
  | cons member rest ih =>
    rw [setMember, List.map_cons, findMember_cons, findMember_cons]
    by_cases hname : member.1 = text name
    · rw [if_pos hname, hname, if_neg h, if_neg h]
      exact ih
    · rw [if_neg hname]
      split
      · rfl
      · exact ih

theorem findMember_setMember (members : SlotMembers) (name : String) (slot : Slot)
    (h : isUnset (findMember members name) = false) :
    findMember (setMember members name slot) name = slot := by
  induction members with
  | nil => cases h
  | cons member rest ih =>
    rw [setMember, List.map_cons, findMember_cons]
    rw [findMember_cons] at h
    by_cases hname : member.1 = text name
    · rw [if_pos hname, if_pos hname]
    · rw [if_neg hname, if_neg hname]
      rw [if_neg hname] at h
      exact ih h

/-- The parts of a captured shadow group. -/
theorem captureShadow_cases (heap copies : Heap) (shadow : Slot) :
    (isUnset shadow = true ∧ captureShadow heap copies shadow = (copies, .undefined)) ∨
      (isUnset shadow = false ∧ isUnset (heap.get shadow "mismatchLogging") = true ∧
        captureShadow heap copies shadow =
          (copies ++ [frozenObject (heap.members shadow)], .reference copies.length)) ∨
      (isUnset shadow = false ∧ isUnset (heap.get shadow "mismatchLogging") = false ∧
        captureShadow heap copies shadow =
          (copies ++ [frozenObject (heap.members (heap.get shadow "mismatchLogging")),
            frozenObject (setMember (heap.members shadow) "mismatchLogging"
              (.reference copies.length))], .reference (copies.length + 1))) := by
  cases hshadow : isUnset shadow with
  | true => simp [captureShadow, hshadow]
  | false =>
    cases hgroup : isUnset (heap.get shadow "mismatchLogging") with
    | true | false => simp [captureShadow, hshadow, hgroup]

theorem captureShadow_extends (heap copies : Heap) (shadow : Slot) :
    ∃ rest, (captureShadow heap copies shadow).1 = copies ++ rest := by
  rcases captureShadow_cases heap copies shadow with ⟨-, h⟩ | ⟨-, -, h⟩ | ⟨-, -, h⟩
  · exact ⟨[], by rw [h, List.append_nil]⟩
  · exact ⟨_, congrArg Prod.fst h⟩
  · exact ⟨_, congrArg Prod.fst h⟩

/-! ### Reading a snapshot -/

/-- A leaf of a configuration in the heap. -/
def leafSlot (heap : Heap) (config : Slot) : DefaultLeaf → Slot
  | .ttlSec layer => heap.get (heap.get config "ttlSec") (layerText layer)
  | .ramp layer => heap.get (heap.get config "ramp") (layerText layer)
  | .staleOnErrorMaxAgeSec => heap.get config "staleOnErrorMaxAgeSec"
  | .shadowRamp => heap.get (heap.get config "shadow") "ramp"
  | .logMismatches => heap.get (heap.get config "shadow") "logMismatches"
  | .mismatchValue => heap.get (heap.get (heap.get config "shadow") "mismatchLogging") "value"
  | .mismatchDiff => heap.get (heap.get (heap.get config "shadow") "mismatchLogging") "diff"

variable {config : Slot} {leaf : DefaultLeaf}

theorem leafSlot_value (h : ¬ Invalid (heap.view 3 config) leaf) :
    (leafSlot heap config leaf).value = writtenLeaf (heap.view 3 config) leaf := by
  have hprimitive := isPrimitive_of_valid h
  cases leaf <;> simp only [writtenLeaf, member_view] at hprimitive ⊢ <;>
    exact value_of_isPrimitive hprimitive

/-- A leaf of an accepted default is read as it was written. -/
theorem readShadow_of_default {shadow : Option ShadowConfig}
    (hshadow : defaultShadow ((heap.view 3 config).member "shadow") = .ok shadow)
    (hvalid : ∀ leaf, ¬ Invalid (heap.view 3 config) leaf) :
    readShadow heap (heap.get config "shadow") = shadow := by
  have hleaf : ∀ leaf, (leafSlot heap config leaf).value = writtenLeaf (heap.view 3 config) leaf :=
    fun leaf => leafSlot_value (hvalid leaf)
  have hramp := hleaf .shadowRamp
  have hlog := hleaf .logMismatches
  have hvalue := hleaf .mismatchValue
  have hdiff := hleaf .mismatchDiff
  simp only [leafSlot, writtenLeaf] at hramp hlog hvalue hdiff
  simp only [readShadow, hramp, hlog, hvalue, hdiff]
  have hgroup : isUnset (heap.get (heap.get config "shadow") "mismatchLogging") = true ↔
      ((heap.view 3 config).member "shadow").member "mismatchLogging" = .undefined := by
    rw [member_view, member_view, view_eq_undefined]
  by_cases hunset : isUnset (heap.get config "shadow") = true
  · rw [member_view, view_eq_undefined.mpr hunset] at hshadow
    rw [if_pos hunset]
    exact Except.ok.inj hshadow
  · rw [if_neg hunset]
    rcases overlayShadowConfig_cases (overlayShadowConfig_of_defaultShadow hshadow) with
      ⟨hvalue, -⟩ | ⟨hmember, rfl⟩ | ⟨hmember, rfl⟩
    · rw [member_view, view_eq_undefined] at hvalue
      exact absurd hvalue hunset
    · rw [if_pos (hgroup.mpr hmember)]
    · rw [if_neg (fun h => hmember (hgroup.mp h))]

theorem readFlag_of_defaultFlag {name : String} {flag : Option Bool}
    (h : defaultFlag name (heap.view depth slot) = .ok flag) : readFlag slot.value = flag := by
  have hflag := flagValue_of_defaultFlag h
  have hprimitive : isPrimitive (heap.view depth slot) = true := by
    rw [← hflag]
    cases flag <;> rfl
  rw [value_of_isPrimitive hprimitive, ← hflag]
  cases flag <;> rfl

theorem readDeadline_of_deadlineMs {deadline : Option DeadlineMs}
    (h : deadlineMs "DialCache remoteReadTimeoutMs" (heap.view depth slot) = .ok deadline) :
    readDeadline slot.value = deadline := by
  have hprimitive : isPrimitive (heap.view depth slot) = true := by
    rw [← deadlineValue_of_deadlineMs h]
    cases deadline <;> rfl
  rw [readDeadline, value_of_isPrimitive hprimitive, h]

/-- What is read from the caller's object is what the snapshot holds. -/
theorem readConfig_of_captured {config : DialCacheKeyConfig}
    (h : Captured (heap.view 3 (.reference address)) config) :
    readConfig heap (.reference address) = some config := by
  have hleaf : ∀ leaf, (leafSlot heap (.reference address) leaf).value =
      writtenLeaf (heap.view 3 (.reference address)) leaf := fun leaf => leafSlot_value (h.valid leaf)
  have httlSec : config.ttlSec = ⟨(leafSlot heap (.reference address) (.ttlSec .LOCAL)).value,
      (leafSlot heap (.reference address) (.ttlSec .REMOTE)).value⟩ := by
    rw [hleaf, hleaf, writtenLeaf, writtenLeaf, ← defaultLayerMap_leaf h.ttlSec,
      ← defaultLayerMap_leaf h.ttlSec]
    rfl
  have hramp : config.ramp = ⟨(leafSlot heap (.reference address) (.ramp .LOCAL)).value,
      (leafSlot heap (.reference address) (.ramp .REMOTE)).value⟩ := by
    rw [hleaf, hleaf, writtenLeaf, writtenLeaf, ← defaultLayerMap_leaf h.ramp,
      ← defaultLayerMap_leaf h.ramp]
    rfl
  have hmaxAge : (heap.get (.reference address) "staleOnErrorMaxAgeSec").value =
      config.staleOnErrorMaxAgeSec := (hleaf .staleOnErrorMaxAgeSec).trans h.staleOnErrorMaxAgeSec.symm
  have hrequestLocal := h.requestLocal
  have hcoalesce := h.coalesce
  have hdeadline := h.remoteReadTimeoutMs
  rw [member_view] at hrequestLocal hcoalesce hdeadline
  rw [readConfig, hmaxAge, readShadow_of_default h.shadow h.valid,
    readFlag_of_defaultFlag hrequestLocal, readFlag_of_defaultFlag hcoalesce,
    readDeadline_of_deadlineMs hdeadline]
  obtain ⟨ttlSec, ramp, shadow, requestLocal, coalesce, maxAge, deadline⟩ := config
  dsimp only at httlSec hramp
  rw [httlSec, hramp]
  rfl

/-! ### Copies answer like the caller's objects -/

theorem readShadow_captured {copies later : Heap} {shadow : Slot}
    (hkept : ∀ address members, Kept (captureShadow heap copies shadow).1 address members →
      Kept later address members) :
    readShadow later (captureShadow heap copies shadow).2 = readShadow heap shadow := by
  rcases captureShadow_cases heap copies shadow with ⟨hunset, h⟩ | ⟨hset, hunset, h⟩ |
    ⟨hset, hgroup, h⟩
  · rw [h, readShadow, readShadow, if_pos hunset]
    rfl
  · rw [h] at hkept
    have hcopy := hkept _ _ (kept_last copies (heap.members shadow) [])
    have hunset' : isUnset (findMember (heap.members shadow) "mismatchLogging") = true := hunset
    rw [h]
    simp only [readShadow, hcopy.get]
    rw [if_neg (Bool.eq_false_iff.mp hset), if_pos hunset, if_pos hunset']
    rfl
  · rw [h] at hkept
    have hleaves := hkept _ _ (kept_last copies _ _)
    have hcopy := hkept (copies.length + 1) (setMember (heap.members shadow) "mismatchLogging"
        (.reference copies.length)) (by simp [Kept])
    have hmember : ∀ name, text "mismatchLogging" ≠ text name →
        later.get (.reference (copies.length + 1)) name = heap.get shadow name := by
      intro name hname
      rw [hcopy.get, findMember_setMember_of_ne _ hname]
      rfl
    have hreference : later.get (.reference (copies.length + 1)) "mismatchLogging" =
        .reference copies.length := by
      rw [hcopy.get, findMember_setMember _ _ _ hgroup]
    rw [h]
    simp only [readShadow, hmember "ramp" (by decide), hmember "logMismatches" (by decide),
      hreference, hleaves.get]
    rw [if_neg (Bool.eq_false_iff.mp hset), if_neg (Bool.eq_false_iff.mp hgroup)]
    rfl

/-- The snapshot is read as the caller's object was, whatever is changed later. -/
theorem readConfig_captured {later : Heap}
    (hrun : Relation.ReflTransGen Mutation (capture heap (.reference address)).1 later) :
    readConfig later (capture heap (.reference address)).2 = readConfig heap (.reference address) := by
  have hkept : ∀ {address' members}, Kept (capture heap (.reference address)).1 address' members →
      Kept later address' members := fun h => h.later hrun
  obtain ⟨rest, hrest⟩ := captureShadow_extends heap (captureLayers heap (.reference address))
    (heap.get (.reference address) "shadow")
  have hsnapshot := hkept (kept_last _ _ [])
  have hlayers : ∀ {address' members}, Kept (captureLayers heap (.reference address)) address' members →
      Kept later address' members := by
    intro address' members h
    apply hkept
    rw [capture, hrest]
    exact (h.append rest).append _
  have httlSec := hlayers (kept_last heap _ _)
  have hramp := @hlayers (heap.length + 1) (heap.members (heap.get (.reference address) "ramp"))
    (by simp [Kept, captureLayers])
  have hshadow := @readShadow_captured heap (captureLayers heap (.reference address)) later
    (heap.get (.reference address) "shadow") (fun _ _ h => hkept (h.append _))
  obtain ⟨hfirst, hsecond, hthird, hrest⟩ := findMember_configMembers heap (.reference address)
    (.reference heap.length) (.reference (heap.length + 1))
    (captureShadow heap (captureLayers heap (.reference address))
      (heap.get (.reference address) "shadow")).2
  simp only [List.forall_mem_cons] at hrest
  obtain ⟨hrequestLocal, hcoalesce, hmaxAge, hdeadline, -⟩ := hrest
  simp only [capture, readConfig, hsnapshot.get, hfirst, hsecond, hthird, hrequestLocal, hcoalesce,
    hmaxAge, hdeadline, httlSec.get, hramp.get, hshadow]
  rfl

/-! ### Validation and resolution -/

variable {value : JsValue}

theorem captured_of_some {config : DialCacheKeyConfig}
    (h : snapshotDefaultConfig value = .ok (some config)) : Captured value config := by
  cases value with
  | object members =>
    obtain ⟨config', hconfig, hcaptured⟩ := snapshotDefaultConfig_eq_ok.mp h
    obtain rfl := Option.some.inj hconfig
    exact hcaptured
  | _ => cases h

theorem clean_of_accepted {defaults : Option DialCacheKeyConfig}
    (h : snapshotDefaultConfig value = .ok defaults) (urn : List UInt16) (instanceTimeoutMs : ℕ) :
    Clean (resolve defaults urn instanceTimeoutMs) := by
  cases defaults with
  | none =>
    refine ⟨?_, ?_, rfl, rfl, rfl⟩
    all_goals
      intro layer
      cases layer <;> simp [resolve, outcome, resolveLayerConfigResult,
        resolveRemoteLayerConfigResult, layerOutcome, remoteOutcome]
  | some config =>
    have hcaptured := captured_of_some h
    exact clean_of_valid hcaptured.holds hcaptured.valid urn instanceTimeoutMs

theorem written_of_invalid (h : Invalid value leaf) : value ≠ .null ∧ value ≠ .undefined := by
  constructor
  all_goals
    intro hvalue
    apply h.1
    rw [hvalue]
    cases leaf <;> rfl

/-- A value with an invalid leaf is no default. -/
theorem not_accepted_of_invalid (h : Invalid value leaf) (captured : Option DialCacheKeyConfig) :
    snapshotDefaultConfig value ≠ .ok captured := by
  intro haccepted
  obtain ⟨hnull, hundefined⟩ := written_of_invalid h
  cases value with
  | null => exact hnull rfl
  | undefined => exact hundefined rfl
  | object members =>
    obtain ⟨config, -, hcaptured⟩ := snapshotDefaultConfig_eq_ok.mp haccepted
    exact hcaptured.valid leaf h
  | _ => cases haccepted

/-- A value with an invalid leaf, as an overlay over an empty default. -/
theorem holds_of_overlaid {key : DialCacheKey} (hempty : IsEmpty key.defaultConfig)
    (hinvalid : Invalid value leaf) {merged : Option DialCacheKeyConfig}
    (h : overlaid key value = .ok merged) :
    ∃ config, merged = some config ∧ Holds config value := by
  obtain ⟨hnull, hundefined⟩ := written_of_invalid hinvalid
  have hmap : overlaid key value = (mergeKeyConfig key.defaultConfig value).map some := by
    cases value with
    | null => exact absurd rfl hnull
    | undefined => exact absurd rfl hundefined
    | _ => rfl
  rw [hmap] at h
  cases hmerge : mergeKeyConfig key.defaultConfig value with
  | error e =>
    rw [hmerge] at h
    cases h
  | ok config =>
    rw [hmerge] at h
    exact ⟨config, (Except.ok.inj h).symm, holds_of_mergeKeyConfig hempty hmerge⟩

theorem readConfig_of_snapshot {heap' later : Heap} {snapshotted : Slot}
    (h : snapshot heap config = .ok (heap', snapshotted))
    (hrun : Relation.ReflTransGen Mutation heap' later) :
    snapshotDefaultConfig (heap.view 3 config) = .ok (readConfig later snapshotted) := by
  rw [snapshot] at h
  split at h
  · cases h
  · rename_i hnone
    obtain ⟨-, rfl⟩ := Prod.mk.inj (Except.ok.inj h)
    exact hnone
  · rename_i captured hcaptured
    have hheap : (capture heap config).1 = heap' := congrArg Prod.fst (Except.ok.inj h)
    have hslot : (capture heap config).2 = snapshotted := congrArg Prod.snd (Except.ok.inj h)
    rw [← hheap] at hrun
    rw [← hslot]
    cases config with
    | reference address =>
      rw [hcaptured, readConfig_captured hrun, readConfig_of_captured (captured_of_some hcaptured)]
    | _ => cases hcaptured

/-- The checks of a static default are those that resolution needs. An accepted default resolves
without an error. A value that is rejected for a leaf turns the feature of that leaf off when it is
an overlay over an empty default. A snapshot reads the same after every later change of the
caller's objects. -/
theorem static_validation_matches_resolution :
    (∀ {value : JsValue} {key : DialCacheKey},
      snapshotDefaultConfig value = .ok key.defaultConfig →
      ∀ overlay ∈ [JsValue.null, JsValue.undefined], ∀ instanceTimeoutMs,
        overlaid key overlay = .ok key.defaultConfig ∧
          Clean (resolve key.defaultConfig key.urn instanceTimeoutMs)) ∧
    (∀ {value : JsValue}, WellShaped value →
      ((∃ captured, snapshotDefaultConfig value = .ok captured) ↔
        ∀ leaf, ¬ Invalid value leaf)) ∧
    (∀ {value : JsValue} {leaf : DefaultLeaf}, Invalid value leaf →
      (∀ captured, snapshotDefaultConfig value ≠ .ok captured) ∧
      ∀ {key : DialCacheKey} {merged : Option DialCacheKeyConfig}, IsEmpty key.defaultConfig →
        overlaid key value = .ok merged →
        (∀ instanceTimeoutMs, FeatureOff value (resolve merged key.urn instanceTimeoutMs) leaf) ∧
        (leaf = .shadowRamp → ∀ {V X : Type} (settings : Settings X) (plan : Plan),
          plan.key = key → plan.keyConfig = merged → ∀ start readTimeoutMs,
          scheduleShadowValidation (V := V) settings plan start readTimeoutMs =
            recordError plan.key .REMOTE .configResolution)) ∧
    (∀ {heap heap' later : Heap} {config snapshotted : Slot},
      snapshot heap config = .ok (heap', snapshotted) →
      Relation.ReflTransGen Mutation heap' later →
      snapshotDefaultConfig (heap.view 3 config) = .ok (readConfig later snapshotted)) := by
  refine ⟨?_, accepted_iff, ?_, readConfig_of_snapshot⟩
  · intro value key haccepted overlay hoverlay instanceTimeoutMs
    refine ⟨?_, clean_of_accepted haccepted key.urn instanceTimeoutMs⟩
    simp only [List.mem_cons, List.not_mem_nil, or_false] at hoverlay
    rcases hoverlay with rfl | rfl
    · rfl
    · rfl
  · intro value leaf hinvalid
    refine ⟨not_accepted_of_invalid hinvalid, ?_⟩
    intro key merged hempty hoverlaid
    obtain ⟨config, rfl, hholds⟩ := holds_of_overlaid hempty hinvalid hoverlaid
    refine ⟨fun instanceTimeoutMs => featureOff_of_invalid hholds hinvalid key.urn _, ?_⟩
    intro hleaf V X settings plan hkey hconfig start readTimeoutMs
    subst hleaf
    apply scheduleShadowValidation_invalid
    rw [hkey, hconfig]
    exact shadow_of_invalid hholds key.urn hinvalid

end DialCache.DefaultSnapshots
