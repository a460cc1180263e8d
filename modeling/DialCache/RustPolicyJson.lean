import DialCache.Binary64Integers
import DialCache.RustPolicies

/-!
# Policies as JSON in Rust

`Policy::to_json` writes the leaves that are set and `Policy::from_json` reads them back. A whole
ramp is written as an integer and read as a double again. A policy that is written as a runtime
overlay overrides exactly the leaves that it sets.
-/

namespace DialCache.RustPolicyJson

open JsonValues Binary64Integers PolicyOverlays PolicyPorts PolicyPorts.Rust PolicyLeaves
open PolicyLeaves.Rust
open PortableKeys (Text)
open RuntimeConfig (CacheLayer ShadowMismatchDiffLevel maxCacheTtlSec maxTimerDelayMs)

/-! ### Values -/

/-- `serde_json::Number`; `negInt n` is `-(n + 1)`. -/
inductive Number where
  | posInt (n : ℕ)
  | negInt (n : ℕ)
  | float (x : ℚ)

/-- `Number::as_f64`. -/
def Number.asF64 : Number → ℚ
  | .posInt n => nearest n
  | .negInt n => -nearest (n + 1)
  | .float x => x

inductive Value where
  | null
  | bool (value : Bool)
  | number (value : Number)
  | string (value : String)
  | array (items : List Value)
  | object (members : List (String × Value))

mutual
/-- The value with its numbers as `policy_number` reads them. -/
def Value.read : Value → Json
  | .null => .null
  | .bool value => .bool value
  | .number value => .number value.asF64
  | .string value => .string value
  | .array items => .array (readItems items)
  | .object members => .object (readMembers members)

def Value.readItems : List Value → List Json
  | [] => []
  | item :: items => item.read :: Value.readItems items

def Value.readMembers : List (String × Value) → Members
  | [] => []
  | (name, value) :: members => (name, value.read) :: Value.readMembers members
end

/-! ### Writing -/

/-- `Value::from` of an integer. -/
def ofU64 (n : ℕ) : Value := .number (.posInt n)

def rampJson (ramp : ℚ) : Value :=
  if rampInDomain ramp ∧ ramp.den = 1 then ofU64 ramp.num.toNat else .number (.float ramp)

/-- The members that are there. -/
def present {α : Type} : List (String × Option α) → List (String × α)
  | [] => []
  | (name, some value) :: fields => (name, value) :: present fields
  | (_, none) :: fields => present fields

def mismatchLoggingJson (group : MismatchLogging) : Value :=
  .object (present
    [("value", group.value.map Value.bool),
      ("diff", group.diff.map fun level => Value.string (levelText level))])

def shadowJson (shadow : ShadowPolicy) : Value :=
  .object (present
    [("ramp", shadow.ramp.map rampJson), ("logMismatches", shadow.logMismatches.map Value.bool),
      ("mismatchLogging", shadow.mismatchLogging.map mismatchLoggingJson)])

def policyFields (policy : Policy) : List (String × Option Value) :=
  [("ttlSec", some (.object (present
      [("local", policy.localTtlSec.map ofU64), ("remote", policy.remoteTtlSec.map ofU64)]))),
    ("ramp", some (.object (present
      [("local", policy.localRamp.map rampJson), ("remote", policy.remoteRamp.map rampJson)]))),
    ("requestLocal", policy.requestLocal.map Value.bool),
    ("coalesce", policy.coalesce.map Value.bool),
    ("staleOnErrorMaxAgeSec", policy.staleOnErrorMaxAgeSec.map ofU64),
    ("remoteReadTimeoutMs", policy.remoteReadTimeoutMs.map ofU64),
    ("shadow", policy.shadow.map shadowJson)]

/-- `Policy::to_json`. -/
def toJson (policy : Policy) : Value := .object (present (policyFields policy))

/-! ### Reading -/

/-- A leaf that is read if it is supplied. -/
def readLeaf {α : Type} (leaf : Option Json) (parse : Json → Option α) (message : String) :
    Except PolicyError (Option α) :=
  match leaf with
  | none => .ok none
  | some leaf =>
    match parse leaf with
    | some value => .ok (some value)
    | none => .error ⟨message⟩

/-- The members of a group; an absent group has none. -/
def readGroup (group : Option Json) (name : String) : Except PolicyError Members :=
  match group with
  | none => .ok []
  | some group => policyObject group name

def readRamp (leaf : Json) : Option ℚ := finiteRange leaf 0 100 false

/-- `MismatchDiff::from_json`. -/
def readLevel (leaf : Json) : Option ShadowMismatchDiffLevel := leaf.asString?.bind levelOf

def readAge (leaf : Json) : Option ℕ :=
  (finiteRange leaf 0 maxCacheTtlSec true).map fun n => n.num.toNat

def readDeadline (leaf : Json) : Option ℕ :=
  (finiteRange leaf 1 maxDeadlineMs true).map fun n => n.num.toNat

def readMismatchLogging (group : Option Json) : Except PolicyError (Option MismatchLogging) :=
  match group with
  | none => .ok none
  | some group => do
    let group ← policyObject group "shadow mismatchLogging config"
    let value ← readLeaf (group.get? "value") Json.asBool?
      "shadow.mismatchLogging.value must be boolean"
    let diff ← readLeaf (group.get? "diff") readLevel
      "invalid static shadow.mismatchLogging.diff"
    return some ⟨value, diff⟩

def readShadow (shadow : Option Json) : Except PolicyError (Option ShadowPolicy) :=
  match shadow with
  | none => .ok none
  | some shadow => do
    let shadow ← policyObject shadow "shadow"
    let ramp ← readLeaf (shadow.get? "ramp") readRamp "invalid static shadow.ramp"
    let logMismatches ← readLeaf (shadow.get? "logMismatches") Json.asBool?
      "shadow.logMismatches must be boolean"
    let mismatchLogging ← readMismatchLogging (shadow.get? "mismatchLogging")
    return some ⟨ramp, logMismatches, mismatchLogging⟩

def readObject (value : Json) : Except PolicyError Policy := do
  let config ← policyObject value "defaultConfig"
  rejectShadowRamp config
  let ttls ← readGroup (config.get? "ttlSec") "ttlSec"
  let localTtlSec ← readLeaf (ttls.get? "local") ttlSec "invalid static ttlSec.local"
  let remoteTtlSec ← readLeaf (ttls.get? "remote") ttlSec "invalid static ttlSec.remote"
  let ramps ← readGroup (config.get? "ramp") "ramp"
  let localRamp ← readLeaf (ramps.get? "local") readRamp "invalid static ramp.local"
  let remoteRamp ← readLeaf (ramps.get? "remote") readRamp "invalid static ramp.remote"
  let requestLocal ← readLeaf (config.get? "requestLocal") Json.asBool?
    "requestLocal must be boolean"
  let coalesce ← readLeaf (config.get? "coalesce") Json.asBool? "coalesce must be boolean"
  let staleOnErrorMaxAgeSec ← readLeaf (config.get? "staleOnErrorMaxAgeSec") readAge
    "invalid static staleOnErrorMaxAgeSec"
  let remoteReadTimeoutMs ← readLeaf (config.get? "remoteReadTimeoutMs") readDeadline
    "invalid remoteReadTimeoutMs"
  let shadow ← readShadow (config.get? "shadow")
  let policy : Policy := ⟨requestLocal, coalesce, localTtlSec, remoteTtlSec, localRamp, remoteRamp,
    staleOnErrorMaxAgeSec, remoteReadTimeoutMs, shadow⟩
  policy.validate
  return policy

/-- `Policy::default`. -/
def emptyPolicy : Policy := ⟨none, none, none, none, none, none, none, none, none⟩

/-- `Policy::from_json`. -/
def fromJson (value : Value) : Except PolicyError Policy :=
  match value with
  | .null => .ok emptyPolicy
  | value => readObject value.read

/-! ### What is written -/

variable {members : Members}

variable {name : String}

theorem insert_of_absent (h : members.get? name = none) (value : Json) :
    members.insert name value = members ++ [(name, value)] := by
  induction members with
  | nil => rfl
  | cons member rest ih =>
    rw [Members.get?_cons] at h
    split at h
    · cases h
    · rename_i hne
      rw [Members.insert, if_neg hne, ih h, List.cons_append]

/-- Fields under names that are not there yet are inserted one after the other. -/
theorem readMembers_present {fields : List (String × Option Value)}
    (hnodup : (fields.map Prod.fst).Nodup)
    (habsent : ∀ field ∈ fields, members.get? field.1 = none) :
    members ++ Value.readMembers (present fields) =
      fields.foldl (fun members field => members.insert? field.1 (field.2.map Value.read))
        members := by
  induction fields generalizing members with
  | nil => exact List.append_nil members
  | cons field fields ih =>
    obtain ⟨name, value⟩ := field
    obtain ⟨hname, hrest⟩ := List.nodup_cons.mp hnodup
    cases value with
    | none => exact ih hrest fun field hfield => habsent field (List.mem_cons_of_mem _ hfield)
    | some value =>
      have hinsert := insert_of_absent (habsent _ List.mem_cons_self) value.read
      rw [List.foldl_cons, Option.map_some, Members.insert?, ← ih hrest, hinsert, List.append_assoc]
      · rfl
      · intro field hfield
        have hne : name ≠ field.1 := by
          rintro rfl
          exact hname (List.mem_map.mpr ⟨field, hfield, rfl⟩)
        rw [Members.get?_insert_of_ne members hne]
        exact habsent field (List.mem_cons_of_mem _ hfield)

theorem read_object_present {fields : List (String × Option Value)}
    (h : (fields.map Prod.fst).Nodup) :
    (Value.object (present fields)).read = .object
      (fields.foldl (fun members field => Members.insert? members field.1 (field.2.map Value.read))
        []) :=
  congrArg Json.object (readMembers_present h fun _ _ => Members.get?_nil _)

theorem read_rampJson (ramp : ℚ) : (rampJson ramp).read = .number ramp := by
  rw [rampJson]
  split
  · rename_i h
    obtain ⟨hdomain, hden⟩ := h
    have hrange : 0 ≤ ramp ∧ ramp ≤ 100 := of_decide_eq_true hdomain
    have hnum : ((ramp.num.toNat : ℕ) : ℚ) = ramp := by
      have hcast : ((ramp.num.toNat : ℕ) : ℤ) = ramp.num :=
        Int.toNat_of_nonneg (Rat.num_nonneg.mpr hrange.1)
      calc ((ramp.num.toNat : ℕ) : ℚ) = (((ramp.num.toNat : ℕ) : ℤ) : ℚ) := rfl
        _ = (ramp.num : ℚ) := by rw [hcast]
        _ = ramp := (rat_eq_num hden).symm
    have hle : ramp.num.toNat ≤ 100 := by
      have hle' : ((ramp.num.toNat : ℕ) : ℚ) ≤ (100 : ℕ) := by
        rw [hnum]
        exact hrange.2
      exact_mod_cast hle'
    rw [ofU64, Value.read, Number.asF64, nearest_of_lt (by omega), hnum]
  · rfl

variable {n : ℕ}

theorem read_ofU64 (h : n < 2 ^ 53) : (ofU64 n).read = natural n := by
  rw [ofU64, Value.read, Number.asF64, nearest_of_lt h, natural]

theorem map_read_rampJson (ramp : Option ℚ) :
    (ramp.map rampJson).map Value.read = ramp.map Json.number := by
  rw [Option.map_map]
  exact Option.map_congr fun x _ => read_rampJson x

/-- Integers that a double holds exactly. -/
def Exact (field : Option ℕ) : Prop := ∀ n, field = some n → n < 2 ^ 53

theorem map_read_ofU64 {field : Option ℕ} (h : Exact field) :
    (field.map ofU64).map Value.read = field.map natural := by
  rw [Option.map_map]
  exact Option.map_congr fun n hn => read_ofU64 (h n hn)

structure ExactFields (policy : Policy) : Prop where
  localTtlSec : Exact policy.localTtlSec
  remoteTtlSec : Exact policy.remoteTtlSec
  staleOnErrorMaxAgeSec : Exact policy.staleOnErrorMaxAgeSec
  remoteReadTimeoutMs : Exact policy.remoteReadTimeoutMs

theorem map_read_bool (field : Option Bool) :
    (field.map Value.bool).map Value.read = field.map Json.bool := by
  rw [Option.map_map]
  exact Option.map_congr fun flag _ => by rw [Function.comp_apply, Value.read]

theorem read_mismatchLoggingJson (group : MismatchLogging) :
    (mismatchLoggingJson group).read = group.toJson := by
  have hdiff : (group.diff.map fun level => Value.string (levelText level)).map Value.read =
      group.diff.map fun level => Json.string (levelText level) := by
    rw [Option.map_map]
    exact Option.map_congr fun level _ => by rw [Function.comp_apply, Value.read]
  rw [mismatchLoggingJson, read_object_present (by simp)]
  simp only [List.foldl_cons, List.foldl_nil, map_read_bool, hdiff]
  rfl

variable (shadow : ShadowPolicy)

theorem read_shadowJson : (shadowJson shadow).read = shadow.toJson := by
  have hgroup : (shadow.mismatchLogging.map mismatchLoggingJson).map Value.read =
      shadow.mismatchLogging.map (·.toJson) := by
    rw [Option.map_map]
    exact Option.map_congr fun group _ => read_mismatchLoggingJson group
  rw [shadowJson, read_object_present (by simp)]
  simp only [List.foldl_cons, List.foldl_nil, map_read_bool, map_read_rampJson, hgroup]
  rfl

theorem read_layers (onLocal onRemote : Option Value) :
    (Value.object (present [("local", onLocal), ("remote", onRemote)])).read =
      layerObject (onLocal.map Value.read) (onRemote.map Value.read) := by
  rw [read_object_present (by simp)]
  rfl

variable {policy : Policy}

/-- What is written reads as what the overlay resolution takes a policy to be. -/
theorem read_toJson (h : ExactFields policy) : (toJson policy).read = policy.toJson := by
  have hshadow : (policy.shadow.map shadowJson).map Value.read = policy.shadow.map (·.toJson) := by
    rw [Option.map_map]
    exact Option.map_congr fun shadow _ => read_shadowJson shadow
  rw [toJson, read_object_present (by simp [policyFields])]
  simp only [policyFields, List.foldl_cons, List.foldl_nil, Option.map_some, read_layers,
    map_read_bool, map_read_rampJson, hshadow, map_read_ofU64 h.localTtlSec,
    map_read_ofU64 h.remoteTtlSec, map_read_ofU64 h.staleOnErrorMaxAgeSec,
    map_read_ofU64 h.remoteReadTimeoutMs]
  rfl

/-! ### What is read -/

variable {α : Type}

theorem readLeaf_eq_ok {leaf : Option Json} {parse : Json → Option α} {message : String}
    {value : Option α} :
    readLeaf leaf parse message = .ok value ↔
      leaf.bind parse = value ∧ ∀ present, leaf = some present → (parse present).isSome = true := by
  cases leaf with
  | none => simp [readLeaf]
  | some leaf =>
    rw [readLeaf]
    cases h : parse leaf with
    | none => simp [h]
    | some x => simp [h]

/-- A field that was written is read back. -/
theorem readLeaf_map {field : Option α} {write : α → Json} {parse : Json → Option α}
    (h : ∀ x, field = some x → parse (write x) = some x) (message : String) :
    readLeaf (field.map write) parse message = .ok field := by
  cases field with
  | none => rfl
  | some x =>
    rw [Option.map_some, readLeaf]
    simp only [h x rfl]

theorem readFlag_map (field : Option Bool) (message : String) :
    readLeaf (field.map Json.bool) Json.asBool? message = .ok field := by
  apply readLeaf_map
  intro flag _
  rfl

theorem policyObject_eq_ok {value : Json} :
    policyObject value name = .ok members ↔ value = .object members := by
  cases value <;> simp [policyObject, Json.asObject?]

theorem readGroup_eq_ok {group : Option Json} :
    readGroup group name = .ok members ↔
      objectOrAbsent group = true ∧ (group.bind Json.asObject?).getD [] = members := by
  cases group with
  | none => simp [readGroup, objectOrAbsent]
  | some group =>
    rw [readGroup, policyObject_eq_ok]
    cases group <;> simp [objectOrAbsent, Json.asObject?]

theorem rejectShadowRamp_eq_ok :
    rejectShadowRamp members = .ok () ↔ members.get? "shadowRamp" = none := by
  rw [rejectShadowRamp]
  cases members.get? "shadowRamp" <;> simp

/-- What a value holds when it is read as a policy. -/
structure Read (value : Json) (policy : Policy) : Prop where
  renamed : value.get? "shadowRamp" = none
  ttls : objectOrAbsent (value.get? "ttlSec") = true
  localTtlSec : readLeaf ((value.get? "ttlSec").bind (·.get? "local")) ttlSec
    "invalid static ttlSec.local" = .ok policy.localTtlSec
  remoteTtlSec : readLeaf ((value.get? "ttlSec").bind (·.get? "remote")) ttlSec
    "invalid static ttlSec.remote" = .ok policy.remoteTtlSec
  ramps : objectOrAbsent (value.get? "ramp") = true
  localRamp : readLeaf ((value.get? "ramp").bind (·.get? "local")) readRamp
    "invalid static ramp.local" = .ok policy.localRamp
  remoteRamp : readLeaf ((value.get? "ramp").bind (·.get? "remote")) readRamp
    "invalid static ramp.remote" = .ok policy.remoteRamp
  requestLocal : readLeaf (value.get? "requestLocal") Json.asBool?
    "requestLocal must be boolean" = .ok policy.requestLocal
  coalesce : readLeaf (value.get? "coalesce") Json.asBool?
    "coalesce must be boolean" = .ok policy.coalesce
  staleOnErrorMaxAgeSec : readLeaf (value.get? "staleOnErrorMaxAgeSec") readAge
    "invalid static staleOnErrorMaxAgeSec" = .ok policy.staleOnErrorMaxAgeSec
  remoteReadTimeoutMs : readLeaf (value.get? "remoteReadTimeoutMs") readDeadline
    "invalid remoteReadTimeoutMs" = .ok policy.remoteReadTimeoutMs
  shadow : readShadow (value.get? "shadow") = .ok policy.shadow
  valid : policy.validate = .ok ()

theorem readObject_eq_ok {config : Members} :
    readObject (.object config) = .ok policy ↔ Read (.object config) policy := by
  have hget : ∀ name leaf, (((config.get? name).bind Json.asObject?).getD []).get?
      leaf = (config.get? name).bind (·.get? leaf) := get?_objectAt config
  constructor
  · intro h
    obtain ⟨members, hobject, h⟩ := bind_eq_ok.mp h
    obtain rfl := Except.ok.inj hobject
    obtain ⟨_, hrenamed, h⟩ := bind_eq_ok.mp h
    obtain ⟨ttls, httls, h⟩ := bind_eq_ok.mp h
    obtain ⟨hisTtls, rfl⟩ := readGroup_eq_ok.mp httls
    rw [hget, hget] at h
    obtain ⟨_, hlocalTtl, h⟩ := bind_eq_ok.mp h
    obtain ⟨_, hremoteTtl, h⟩ := bind_eq_ok.mp h
    obtain ⟨ramps, hramps, h⟩ := bind_eq_ok.mp h
    obtain ⟨hisRamps, rfl⟩ := readGroup_eq_ok.mp hramps
    rw [hget, hget] at h
    obtain ⟨_, hlocalRamp, h⟩ := bind_eq_ok.mp h
    obtain ⟨_, hremoteRamp, h⟩ := bind_eq_ok.mp h
    obtain ⟨_, hrequestLocal, h⟩ := bind_eq_ok.mp h
    obtain ⟨_, hcoalesce, h⟩ := bind_eq_ok.mp h
    obtain ⟨_, hage, h⟩ := bind_eq_ok.mp h
    obtain ⟨_, htimeout, h⟩ := bind_eq_ok.mp h
    obtain ⟨_, hshadow, h⟩ := bind_eq_ok.mp h
    obtain ⟨_, hvalid, h⟩ := bind_eq_ok.mp h
    obtain rfl := Except.ok.inj h
    exact ⟨rejectShadowRamp_eq_ok.mp hrenamed, hisTtls, hlocalTtl, hremoteTtl, hisRamps, hlocalRamp,
      hremoteRamp, hrequestLocal, hcoalesce, hage, htimeout, hshadow, hvalid⟩
  · intro h
    apply bind_eq_ok.mpr
    refine ⟨config, rfl, bind_eq_ok.mpr ⟨(), rejectShadowRamp_eq_ok.mpr h.renamed, ?_⟩⟩
    refine bind_eq_ok.mpr ⟨_, readGroup_eq_ok.mpr ⟨h.ttls, rfl⟩, ?_⟩
    rw [hget, hget]
    refine bind_eq_ok.mpr ⟨_, h.localTtlSec, bind_eq_ok.mpr ⟨_, h.remoteTtlSec, ?_⟩⟩
    refine bind_eq_ok.mpr ⟨_, readGroup_eq_ok.mpr ⟨h.ramps, rfl⟩, ?_⟩
    rw [hget, hget]
    exact bind_eq_ok.mpr ⟨_, h.localRamp, bind_eq_ok.mpr ⟨_, h.remoteRamp, bind_eq_ok.mpr ⟨_,
      h.requestLocal, bind_eq_ok.mpr ⟨_, h.coalesce, bind_eq_ok.mpr ⟨_, h.staleOnErrorMaxAgeSec,
        bind_eq_ok.mpr ⟨_, h.remoteReadTimeoutMs, bind_eq_ok.mpr ⟨_, h.shadow,
          bind_eq_ok.mpr ⟨(), h.valid, rfl⟩⟩⟩⟩⟩⟩⟩⟩

/-- A value is read as the policy of its leaves or, if it is null, as the empty policy. -/
theorem fromJson_eq_ok {value : Value} (h : fromJson value = .ok policy) :
    policy.validate = .ok () ∧ (value = .null ∨ Read value.read policy) := by
  cases value with
  | null =>
    obtain rfl := Except.ok.inj h
    exact ⟨rfl, .inl rfl⟩
  | object members =>
    have hread := readObject_eq_ok.mp h
    exact ⟨hread.valid, .inr hread⟩
  | _ => cases h

/-! ### The round trip -/

theorem exact_of_valid (h : Valid policy) : ExactFields policy := by
  have hmax : maxCacheTtlSec < 2 ^ 53 := by decide
  have hdelay : maxTimerDelayMs < 2 ^ 53 := by decide
  exact ⟨fun n hn => (h.localTtlSec n hn).2.trans_lt hmax,
    fun n hn => (h.remoteTtlSec n hn).2.trans_lt hmax,
    fun n hn => (h.staleOnErrorMaxAgeSec n hn).1.trans_lt hmax,
    fun n hn => (h.remoteReadTimeoutMs n hn).2.trans_lt hdelay⟩

theorem ttlSec_natural (h : 0 < n ∧ n ≤ maxCacheTtlSec) :
    PolicyPorts.Rust.ttlSec (natural n) = some n := by
  rw [ttlSec_eq, wholeNumber_natural h]

theorem readDeadline_natural (h : 0 < n ∧ n ≤ maxTimerDelayMs) :
    readDeadline (natural n) = some n := by
  have hmax : ((maxDeadlineMs : ℕ) : ℚ) = ((maxTimerDelayMs : ℕ) : ℚ) := rfl
  rw [readDeadline, hmax, finiteRange_whole, wholeNumber_natural h]
  simp

theorem readAge_natural (h : n ≤ maxCacheTtlSec) : readAge (natural n) = some n := by
  have hrange : (0 : ℚ) ≤ n ∧ (n : ℚ) ≤ maxCacheTtlSec ∧ (true = true → (n : ℚ).den = 1) :=
    ⟨Nat.cast_nonneg n, by exact_mod_cast h, fun _ => Rat.den_natCast n⟩
  rw [readAge, finiteRange]
  change (if (0 : ℚ) ≤ n ∧ (n : ℚ) ≤ maxCacheTtlSec ∧ (true = true → (n : ℚ).den = 1) then
    some (n : ℚ) else none).map _ = _
  rw [if_pos hrange]
  simp

theorem readRamp_number {ramp : ℚ} (h : 0 ≤ ramp ∧ ramp ≤ 100) :
    readRamp (.number ramp) = some ramp := by
  rw [readRamp, finiteRange_percentage, percentage]
  exact if_pos h

theorem readLevel_levelText (level : ShadowMismatchDiffLevel) :
    readLevel (.string (levelText level)) = some level := by
  cases level <;> rfl

theorem readMismatchLogging_map (group : Option MismatchLogging) :
    readMismatchLogging (group.map (·.toJson)) = .ok group := by
  cases group with
  | none => rfl
  | some group =>
    obtain ⟨hvalue, hdiff⟩ := get?_group (group.value.map Json.bool)
      (group.diff.map fun level => Json.string (levelText level))
    apply bind_eq_ok.mpr
    refine ⟨_, rfl, ?_⟩
    refine bind_eq_ok.mpr ⟨group.value, ?_, bind_eq_ok.mpr ⟨group.diff, ?_, rfl⟩⟩
    · exact (congrArg (readLeaf · _ _) hvalue).trans (readFlag_map _ _)
    · exact (congrArg (readLeaf · _ _) hdiff).trans
        (readLeaf_map (fun level _ => readLevel_levelText level) _)

theorem readShadow_map {shadow : Option ShadowPolicy}
    (h : ∀ ramp, shadow.bind (·.ramp) = some ramp → 0 ≤ ramp ∧ ramp ≤ 100) :
    readShadow (shadow.map (·.toJson)) = .ok shadow := by
  cases shadow with
  | none => rfl
  | some shadow =>
    obtain ⟨hramp, hlog, hgroup⟩ := get?_shadowToJson shadow
    apply bind_eq_ok.mpr
    refine ⟨_, rfl, ?_⟩
    refine bind_eq_ok.mpr ⟨shadow.ramp, ?_, bind_eq_ok.mpr ⟨shadow.logMismatches, ?_,
      bind_eq_ok.mpr ⟨shadow.mismatchLogging, ?_, rfl⟩⟩⟩
    · exact (congrArg (readLeaf · _ _) hramp).trans
        (readLeaf_map (fun ramp hr => readRamp_number (h ramp hr)) _)
    · exact (congrArg (readLeaf · _ _) hlog).trans (readFlag_map _ _)
    · exact (congrArg readMismatchLogging hgroup).trans (readMismatchLogging_map _)

/-- A valid policy is read back from what it was written as. -/
theorem fromJson_toJson (h : policy.validate = .ok ()) : fromJson (toJson policy) = .ok policy := by
  have hvalid := validate_eq_ok.mp h
  have hleaf := writtenLeaf_toJson policy
  obtain ⟨httls, hramps, hshadow, hrenamed⟩ := get?_members policy
  change readObject (toJson policy).read = _
  rw [read_toJson (exact_of_valid hvalid)]
  apply readObject_eq_ok.mpr
  refine ⟨hrenamed, ?_, ?_, ?_, ?_, ?_, ?_, ?_, ?_, ?_, ?_, ?_, h⟩
  · exact congrArg objectOrAbsent httls
  · exact (congrArg (readLeaf · _ _) (hleaf (.ttlSec .LOCAL))).trans
      (readLeaf_map (fun n hn => ttlSec_natural (hvalid.localTtlSec n hn)) _)
  · exact (congrArg (readLeaf · _ _) (hleaf (.ttlSec .REMOTE))).trans
      (readLeaf_map (fun n hn => ttlSec_natural (hvalid.remoteTtlSec n hn)) _)
  · exact congrArg objectOrAbsent hramps
  · exact (congrArg (readLeaf · _ _) (hleaf (.ramp .LOCAL))).trans
      (readLeaf_map (fun ramp hr => readRamp_number (hvalid.localRamp ramp hr)) _)
  · exact (congrArg (readLeaf · _ _) (hleaf (.ramp .REMOTE))).trans
      (readLeaf_map (fun ramp hr => readRamp_number (hvalid.remoteRamp ramp hr)) _)
  · exact (congrArg (readLeaf · _ _) (hleaf .requestLocal)).trans (readFlag_map _ _)
  · exact (congrArg (readLeaf · _ _) (hleaf .coalesce)).trans (readFlag_map _ _)
  · exact (congrArg (readLeaf · _ _) (hleaf .staleOnErrorMaxAgeSec)).trans
      (readLeaf_map (fun n hn => readAge_natural (hvalid.staleOnErrorMaxAgeSec n hn).1) _)
  · exact (congrArg (readLeaf · _ _) (hleaf .remoteReadTimeoutMs)).trans
      (readLeaf_map (fun n hn => readDeadline_natural (hvalid.remoteReadTimeoutMs n hn)) _)
  · exact (congrArg readShadow hshadow).trans (readShadow_map hvalid.shadowRamp)

/-! ### Domains -/

/-- The leaves that a static policy may supply. -/
inductive SuppliedLeaf where
  | ttlSec (layer : CacheLayer)
  | ramp (layer : CacheLayer)
  | requestLocal
  | coalesce
  | staleOnErrorMaxAgeSec
  | remoteReadTimeoutMs
  | shadowRamp
  | logMismatches
  | mismatchValue
  | mismatchDiff

def supplied (value : Json) : SuppliedLeaf → Option Json
  | .ttlSec layer => (value.get? "ttlSec").bind (·.get? (layerText layer))
  | .ramp layer => (value.get? "ramp").bind (·.get? (layerText layer))
  | .requestLocal => value.get? "requestLocal"
  | .coalesce => value.get? "coalesce"
  | .staleOnErrorMaxAgeSec => value.get? "staleOnErrorMaxAgeSec"
  | .remoteReadTimeoutMs => value.get? "remoteReadTimeoutMs"
  | .shadowRamp => (value.get? "shadow").bind (·.get? "ramp")
  | .logMismatches => (value.get? "shadow").bind (·.get? "logMismatches")
  | .mismatchValue => ((value.get? "shadow").bind (·.get? "mismatchLogging")).bind (·.get? "value")
  | .mismatchDiff => ((value.get? "shadow").bind (·.get? "mismatchLogging")).bind (·.get? "diff")

/-- The domain of a leaf. Zero is a recovery age but no TTL and no deadline. -/
def inDomain : SuppliedLeaf → Json → Bool
  | .ttlSec _, leaf => (wholeNumber leaf maxCacheTtlSec).isSome
  | .ramp _, leaf => (percentage leaf).isSome
  | .requestLocal, leaf => leaf.asBool?.isSome
  | .coalesce, leaf => leaf.asBool?.isSome
  | .staleOnErrorMaxAgeSec, leaf =>
    leaf.asNumber? = some 0 ∨ (wholeNumber leaf maxCacheTtlSec).isSome
  | .remoteReadTimeoutMs, leaf => (wholeNumber leaf maxTimerDelayMs).isSome
  | .shadowRamp, leaf => (percentage leaf).isSome
  | .logMismatches, leaf => leaf.asBool?.isSome
  | .mismatchValue, leaf => leaf.asBool?.isSome
  | .mismatchDiff, leaf => (leaf.asString?.bind levelOf).isSome

theorem wholeNumber_or_zero {leaf : Json} (h : (readAge leaf).isSome = true) :
    leaf.asNumber? = some 0 ∨ (wholeNumber leaf maxCacheTtlSec).isSome = true := by
  rw [readAge, Option.isSome_map, finiteRange] at h
  rw [wholeNumber]
  cases hnumber : leaf.asNumber? with
  | none =>
    rw [hnumber] at h
    cases h
  | some q =>
    simp only [hnumber] at h
    split at h
    · rename_i hrange
      rcases hrange.1.eq_or_lt with hzero | hpos
      · left
        rw [← hzero]
      · right
        simp only [if_pos (show q.den = 1 ∧ 0 < q ∧ q ≤ maxCacheTtlSec from
          ⟨hrange.2.2 trivial, hpos, hrange.2.1⟩), Option.isSome_some]
    · cases h

/-- The leaves of a group that was read. -/
theorem shadow_domains {value : Option Json} {shadow : Option ShadowPolicy}
    (hread : readShadow value = .ok shadow) {leaf : Json} :
    (value.bind (·.get? "ramp") = some leaf → (readRamp leaf).isSome = true) ∧
      (value.bind (·.get? "logMismatches") = some leaf → leaf.asBool?.isSome = true) ∧
      ((value.bind (·.get? "mismatchLogging")).bind (·.get? "value") = some leaf →
        leaf.asBool?.isSome = true) ∧
      ((value.bind (·.get? "mismatchLogging")).bind (·.get? "diff") = some leaf →
        (readLevel leaf).isSome = true) := by
  cases value with
  | none => simp
  | some value =>
    obtain ⟨members, hobject, h⟩ := bind_eq_ok.mp hread
    obtain rfl := policyObject_eq_ok.mp hobject
    obtain ⟨_, hramp, h⟩ := bind_eq_ok.mp h
    obtain ⟨_, hlog, h⟩ := bind_eq_ok.mp h
    obtain ⟨_, hgroup, h⟩ := bind_eq_ok.mp h
    refine ⟨(readLeaf_eq_ok.mp hramp).2 leaf, (readLeaf_eq_ok.mp hlog).2 leaf, ?_⟩
    change ((members.get? "mismatchLogging").bind _ = _ → _) ∧
      ((members.get? "mismatchLogging").bind _ = _ → _)
    cases hlogging : members.get? "mismatchLogging" with
    | none => simp
    | some group =>
      rw [hlogging] at hgroup
      obtain ⟨leaves, hleaves, hpair⟩ := bind_eq_ok.mp hgroup
      obtain rfl := policyObject_eq_ok.mp hleaves
      obtain ⟨_, hvalue, hrest⟩ := bind_eq_ok.mp hpair
      obtain ⟨_, hdiff, -⟩ := bind_eq_ok.mp hrest
      exact ⟨(readLeaf_eq_ok.mp hvalue).2 leaf, (readLeaf_eq_ok.mp hdiff).2 leaf⟩

/-- Every supplied leaf of a value that is read is in its domain. -/
theorem Read.inDomain {value : Json} (h : Read value policy) {name : SuppliedLeaf} {leaf : Json}
    (hleaf : supplied value name = some leaf) : inDomain name leaf = true := by
  have hshadow := @shadow_domains _ _ h.shadow leaf
  have hmax : ((maxDeadlineMs : ℕ) : ℚ) = ((maxTimerDelayMs : ℕ) : ℚ) := rfl
  cases name with
  | ttlSec layer =>
    rw [RustPolicyJson.inDomain, ← ttlSec_eq]
    cases layer with
    | LOCAL => exact (readLeaf_eq_ok.mp h.localTtlSec).2 leaf hleaf
    | REMOTE => exact (readLeaf_eq_ok.mp h.remoteTtlSec).2 leaf hleaf
  | ramp layer =>
    rw [RustPolicyJson.inDomain, ← finiteRange_percentage]
    cases layer with
    | LOCAL => exact (readLeaf_eq_ok.mp h.localRamp).2 leaf hleaf
    | REMOTE => exact (readLeaf_eq_ok.mp h.remoteRamp).2 leaf hleaf
  | requestLocal => exact (readLeaf_eq_ok.mp h.requestLocal).2 leaf hleaf
  | coalesce => exact (readLeaf_eq_ok.mp h.coalesce).2 leaf hleaf
  | staleOnErrorMaxAgeSec =>
    have hage := wholeNumber_or_zero ((readLeaf_eq_ok.mp h.staleOnErrorMaxAgeSec).2 leaf hleaf)
    exact decide_eq_true hage
  | remoteReadTimeoutMs =>
    have hdeadline := (readLeaf_eq_ok.mp h.remoteReadTimeoutMs).2 leaf hleaf
    rw [readDeadline, hmax, finiteRange_whole, Option.isSome_map, Option.isSome_map] at hdeadline
    exact hdeadline
  | shadowRamp =>
    rw [RustPolicyJson.inDomain, ← finiteRange_percentage]
    exact hshadow.1 hleaf
  | logMismatches => exact hshadow.2.1 hleaf
  | mismatchValue => exact hshadow.2.2.1 hleaf
  | mismatchDiff => exact hshadow.2.2.2 hleaf

/-! ### A policy as an overlay -/

/-- The mismatch leaves of a shadow group with its shorthand replaced by the leaves that it stands
for. Leaves beside the shorthand win. -/
def expandedGroup (shadow : ShadowPolicy) : Option MismatchLogging :=
  match shadow.logMismatches with
  | none => shadow.mismatchLogging
  | some flag =>
    some ⟨(shadow.mismatchLogging.bind (·.value)).or (some flag),
      (shadow.mismatchLogging.bind (·.diff)).or
        (some (if flag then ShadowMismatchDiffLevel.values else .off))⟩

def expanded (policy : Policy) : Policy :=
  { policy with shadow := policy.shadow.map fun shadow => ⟨shadow.ramp, none, expandedGroup shadow⟩ }

/-- Override the leaves that the second group sets. -/
def overriddenGroup : Option MismatchLogging → Option MismatchLogging → Option MismatchLogging
  | base, none => base
  | none, some group => some group
  | some base, some group => some ⟨group.value.or base.value, group.diff.or base.diff⟩

def overriddenShadow : Option ShadowPolicy → Option ShadowPolicy → Option ShadowPolicy
  | base, none => base
  | none, some shadow => some shadow
  | some base, some shadow =>
    some ⟨shadow.ramp.or base.ramp, shadow.logMismatches.or base.logMismatches,
      overriddenGroup base.mismatchLogging shadow.mismatchLogging⟩

/-- Override the leaves that the second policy sets, and no others. -/
def overridden (base policy : Policy) : Policy where
  requestLocal := policy.requestLocal.or base.requestLocal
  coalesce := policy.coalesce.or base.coalesce
  localTtlSec := policy.localTtlSec.or base.localTtlSec
  remoteTtlSec := policy.remoteTtlSec.or base.remoteTtlSec
  localRamp := policy.localRamp.or base.localRamp
  remoteRamp := policy.remoteRamp.or base.remoteRamp
  staleOnErrorMaxAgeSec := policy.staleOnErrorMaxAgeSec.or base.staleOnErrorMaxAgeSec
  remoteReadTimeoutMs := policy.remoteReadTimeoutMs.or base.remoteReadTimeoutMs
  shadow := overriddenShadow base.shadow policy.shadow

theorem groupValue_none (value : Option Json) :
    groupValue (Option.map Json.bool none) value = value := Option.or_none

theorem groupDiff_none (diff : Option Json) :
    groupDiff (Option.map Json.bool none) diff = diff := Option.or_none

theorem expandedGroup_value :
    ((expandedGroup shadow).bind (·.value)).map Json.bool =
      groupValue (shadow.logMismatches.map Json.bool)
        ((shadow.mismatchLogging.bind (·.value)).map Json.bool) := by
  rw [expandedGroup]
  cases shadow.logMismatches with
  | none => exact Option.or_none.symm
  | some flag =>
    cases shadow.mismatchLogging.bind (·.value) with
    | some value => rfl
    | none => cases flag <;> rfl

theorem expandedGroup_diff :
    ((expandedGroup shadow).bind (·.diff)).map (fun level => Json.string (levelText level)) =
      groupDiff (shadow.logMismatches.map Json.bool)
        ((shadow.mismatchLogging.bind (·.diff)).map fun level => Json.string (levelText level)) := by
  rw [expandedGroup]
  cases shadow.logMismatches with
  | none => exact Option.or_none.symm
  | some flag =>
    cases shadow.mismatchLogging.bind (·.diff) with
    | some level => rfl
    | none => cases flag <;> rfl

/-- Expanding the shorthand keeps every leaf. -/
theorem setLeaf_expanded (policy : Policy) (leaf : PolicyLeaf) :
    setLeaf (expanded policy) leaf = setLeaf policy leaf := by
  cases leaf with
  | ttlSec layer => cases layer <;> rfl
  | ramp layer => cases layer <;> rfl
  | shadowRamp =>
    simp only [setLeaf, expanded]
    cases policy.shadow <;> rfl
  | mismatchValue =>
    simp only [setLeaf, expanded]
    cases policy.shadow with
    | none => rfl
    | some shadow =>
      exact (groupValue_none _).trans (expandedGroup_value shadow)
  | mismatchDiff =>
    simp only [setLeaf, expanded]
    cases policy.shadow with
    | none => rfl
    | some shadow =>
      exact (groupDiff_none _).trans (expandedGroup_diff shadow)
  | _ => rfl

/-- No shadow group of the policy has a shorthand. -/
def Plain (policy : Policy) : Prop := policy.shadow.bind (·.logMismatches) = none

theorem plain_expanded (policy : Policy) : Plain (expanded policy) := by
  simp only [Plain, expanded]
  cases policy.shadow <;> rfl

theorem overriddenGroup_leaves (base group : Option MismatchLogging) :
    (overriddenGroup base group).bind (·.value) =
        (group.bind (·.value)).or (base.bind (·.value)) ∧
      (overriddenGroup base group).bind (·.diff) = (group.bind (·.diff)).or (base.bind (·.diff)) := by
  cases group with
  | none => exact ⟨rfl, rfl⟩
  | some group =>
    cases base with
    | none => exact ⟨Option.or_none.symm, Option.or_none.symm⟩
    | some base => exact ⟨rfl, rfl⟩

theorem overriddenShadow_leaves (base shadow : Option ShadowPolicy) :
    (overriddenShadow base shadow).bind (·.ramp) =
        (shadow.bind (·.ramp)).or (base.bind (·.ramp)) ∧
      (overriddenShadow base shadow).bind (·.logMismatches) =
        (shadow.bind (·.logMismatches)).or (base.bind (·.logMismatches)) ∧
      (overriddenShadow base shadow).bind (·.mismatchLogging) =
        overriddenGroup (base.bind (·.mismatchLogging)) (shadow.bind (·.mismatchLogging)) := by
  cases shadow with
  | none => exact ⟨rfl, rfl, rfl⟩
  | some shadow =>
    cases base with
    | none =>
      refine ⟨Option.or_none.symm, Option.or_none.symm, ?_⟩
      change shadow.mismatchLogging = overriddenGroup none shadow.mismatchLogging
      cases shadow.mismatchLogging <;> rfl
    | some base => exact ⟨rfl, rfl, rfl⟩

variable {base : Policy}

/-- Without shorthands the leaves of an overridden policy are overridden one by one. -/
theorem setLeaf_overridden (hbase : Plain base) (hpolicy : Plain policy) (leaf : PolicyLeaf) :
    setLeaf (overridden base policy) leaf =
      (setLeaf policy leaf).or (setLeaf base leaf) := by
  obtain ⟨hramp, hlog, hgroup⟩ := overriddenShadow_leaves base.shadow policy.shadow
  obtain ⟨hvalue, hdiff⟩ := overriddenGroup_leaves (base.shadow.bind (·.mismatchLogging))
    (policy.shadow.bind (·.mismatchLogging))
  cases leaf with
  | ttlSec layer | ramp layer => cases layer <;> exact Option.map_or
  | shadowRamp =>
    simp only [setLeaf, overridden]
    rw [hramp, Option.map_or]
  | mismatchValue =>
    simp only [setLeaf, overridden]
    rw [hlog, hgroup, hvalue, hbase, hpolicy, Option.or_none, groupValue_none, groupValue_none,
      groupValue_none, Option.map_or]
  | mismatchDiff =>
    simp only [setLeaf, overridden]
    rw [hlog, hgroup, hdiff, hbase, hpolicy, Option.or_none, groupDiff_none, groupDiff_none,
      groupDiff_none, Option.map_or]
  | requestLocal => exact Option.map_or
  | coalesce => exact Option.map_or
  | staleOnErrorMaxAgeSec => exact Option.map_or
  | remoteReadTimeoutMs => exact Option.map_or

/-- The policy that a base and an overlaid policy amount to. -/
def combined (base policy : Policy) : Policy := overridden (expanded base) (expanded policy)

theorem setLeaf_combined (base policy : Policy) (leaf : PolicyLeaf) :
    setLeaf (combined base policy) leaf =
      (setLeaf policy leaf).or (setLeaf base leaf) := by
  rw [combined, setLeaf_overridden (plain_expanded base) (plain_expanded policy),
    setLeaf_expanded, setLeaf_expanded]

/-! ### Resolution -/

theorem resolveShadow_objectAt (merged : Members) (key : Text) :
    resolveShadow merged key =
      resolveShadow [("shadow", .object (objectAt merged "shadow"))] key := by
  rw [resolveShadow, resolveShadow, objectAt]
  cases (merged.get? "shadow").bind Json.asObject? <;> rfl

theorem resolveShadow_congr {leaves leaves' : Members}
    (hramp : leaves.get? "ramp" = leaves'.get? "ramp")
    (hexpanded : expandMismatchLogging leaves = expandMismatchLogging leaves') (key : Text) :
    resolveShadow [("shadow", .object leaves)] key =
      resolveShadow [("shadow", .object leaves')] key := by
  have hlogging : resolveMismatchLogging leaves = resolveMismatchLogging leaves' := by
    rw [resolveMismatchLogging, resolveMismatchLogging, hexpanded]
  have hobject : ∀ members : Members,
      (Members.get? [("shadow", .object members)] "shadow").bind Json.asObject? = some members :=
    fun _ => rfl
  simp only [resolveShadow, hobject, hlogging, hramp]

/-- Members with the same leaves resolve alike. -/
theorem resolveMembers_congr {merged merged' : Members}
    (hleaf : ∀ leaf, writtenLeaf (.object merged) leaf = writtenLeaf (.object merged') leaf)
    (hmalformed : malformedOverlay (.object merged) = malformedOverlay (.object merged'))
    (key : Text) (inherited : ℕ) :
    resolveMembers merged key inherited = resolveMembers merged' key inherited := by
  have hscalar : ∀ name leaf, (∀ members : Members, writtenLeaf (.object members) leaf =
      members.get? name) → merged.get? name = merged'.get? name := by
    intro name leaf h
    rw [← h, ← h, hleaf]
  have hget : ∀ members : Members, ∀ name leaf, (objectAt members name).get? leaf =
      (members.get? name).bind (·.get? leaf) := get?_objectAt
  have hlayer : ∀ name, (objectAt merged "ttlSec").get? name =
        (objectAt merged' "ttlSec").get? name →
      (objectAt merged "ramp").get? name = (objectAt merged' "ramp").get? name →
      resolveLayer (objectAt merged "ttlSec") (objectAt merged "ramp") key name =
        resolveLayer (objectAt merged' "ttlSec") (objectAt merged' "ramp") key name := by
    intro name httl hramp
    rw [resolveLayer, resolveLayer, httl, hramp]
  have hlocal := hlayer "local" (by rw [hget, hget]; exact hleaf (.ttlSec .LOCAL))
    (by rw [hget, hget]; exact hleaf (.ramp .LOCAL))
  have hremote := hlayer "remote" (by rw [hget, hget]; exact hleaf (.ttlSec .REMOTE))
    (by rw [hget, hget]; exact hleaf (.ramp .REMOTE))
  have hshadow : resolveShadow merged key = resolveShadow merged' key := by
    rw [resolveShadow_objectAt merged, resolveShadow_objectAt merged']
    obtain ⟨hramp, hvalue, hdiff, hinvalid⟩ := writtenLeaf_group merged
    obtain ⟨hramp', hvalue', hdiff', hinvalid'⟩ := writtenLeaf_group merged'
    apply resolveShadow_congr
    · rw [← hramp, ← hramp', hleaf]
    · exact (MismatchLeaves.mk.injEq _ _ _ _ _ _).mpr
        ⟨hvalue.symm.trans ((hleaf _).trans hvalue'), hdiff.symm.trans ((hleaf _).trans hdiff'),
          hinvalid.symm.trans (hmalformed.trans hinvalid')⟩
  have hrequestLocal := hscalar "requestLocal" .requestLocal fun _ => rfl
  have hcoalesce := hscalar "coalesce" .coalesce fun _ => rfl
  have hage := hscalar "staleOnErrorMaxAgeSec" .staleOnErrorMaxAgeSec fun _ => rfl
  have htimeout := hscalar "remoteReadTimeoutMs" .remoteReadTimeoutMs fun _ => rfl
  simp only [resolveMembers, flag, deadline, resolveRecovery, hrequestLocal, hcoalesce, hage,
    htimeout, hlocal, hremote, hshadow]

theorem withDefaults_combined (base policy : Policy) (leaf : PolicyLeaf) :
    (setLeaf policy leaf).or (withDefaults (setLeaf base) leaf) =
      withDefaults (setLeaf (combined base policy)) leaf := by
  have hleaf := setLeaf_combined base policy leaf
  cases leaf with
  | requestLocal | coalesce =>
    simp only [withDefaults]
    rw [hleaf, Option.or_assoc]
  | _ => exact hleaf.symm

theorem shaped_toJson (policy : Policy) : Shaped policy.toJson := by
  obtain ⟨httls, hramps, hshadow, hrenamed⟩ := get?_members policy
  refine ⟨rfl, hrenamed, congrArg objectOrAbsent httls, congrArg objectOrAbsent hramps, ?_, ?_⟩
  · refine (congrArg objectOrAbsent hshadow).trans ?_
    cases policy.shadow <;> rfl
  · refine (congrArg (fun shadow => objectOrAbsent (shadow.bind (·.get? "mismatchLogging")))
      hshadow).trans ?_
    cases policy.shadow with
    | none => rfl
    | some shadow =>
      rw [Option.map_some, Option.bind_some, (get?_shadowToJson shadow).2.2]
      cases shadow.mismatchLogging <;> rfl

/-- A valid combination holds the policy's own integers. -/
theorem exact_of_combined (h : Valid (combined base policy)) : ExactFields policy := by
  have hor : ∀ {a b : Option ℕ}, Exact (a.or b) → Exact a := by
    intro a b h n hn
    apply h
    rw [hn]
    rfl
  have hexact := exact_of_valid h
  exact ⟨hor hexact.localTtlSec, hor hexact.remoteTtlSec, hor hexact.staleOnErrorMaxAgeSec,
    hor hexact.remoteReadTimeoutMs⟩

/-- Overlaying a written policy resolves as the combined policy does. -/
theorem resolvePolicy_toJson (hbase : base.validate = .ok ())
    (hcombined : (combined base policy).validate = .ok ()) (key : Text)
    (instanceReadTimeoutMs : ℕ) :
    PolicyPorts.Rust.resolvePolicy base (some (toJson policy).read) key instanceReadTimeoutMs =
      PolicyPorts.Rust.resolvePolicy (combined base policy) none key instanceReadTimeoutMs := by
  have hmerge : applyOverlay (filled base) (some policy.toJson) =
      .ok (overlaidMembers (filled base) policy.members) :=
    mergeOverlay_eq_ok.mpr ⟨shaped_toJson policy, rfl⟩
  have hwritten : Json.object policy.members = policy.toJson := rfl
  have hmembers : ∀ inherited, resolveMembers (overlaidMembers (filled base) policy.members) key
      inherited = resolveMembers (filled (combined base policy)) key inherited := by
    intro inherited
    apply resolveMembers_congr
    · intro leaf
      rw [writtenLeaf_overlaidMembers, hwritten, writtenLeaf_toJson, writtenLeaf_filled,
        writtenLeaf_filled, withDefaults_combined]
    · rw [malformedOverlay_overlaidMembers (malformedOverlay_filled base), hwritten,
        malformedOverlay_toJson, malformedOverlay_filled]
  rw [read_toJson (exact_of_combined (validate_eq_ok.mp hcombined))]
  rw [resolvePolicy_of_valid hbase, resolvePolicy_of_valid hcombined, hmerge]
  simp only [applyOverlay, KeyAgreement.ok_bind, hmembers]

/-- Policies and their JSON. A valid policy is read back from what it is written as, and so is every
policy that was read. A supplied leaf outside its domain is refused. A policy that is written as a
runtime overlay overrides the leaves that it sets and no others. -/
theorem policy_json_roundTrip :
    (∀ policy : Policy, policy.validate = .ok () → fromJson (toJson policy) = .ok policy) ∧
    (∀ (value : Value) (policy : Policy), fromJson value = .ok policy →
      policy.validate = .ok () ∧ fromJson (toJson policy) = .ok policy) ∧
    (∀ (value : Value) (name : SuppliedLeaf) (leaf : Json), supplied value.read name = some leaf →
      inDomain name leaf = false → ∃ error, fromJson value = .error error) ∧
    (∀ base policy : Policy, base.validate = .ok () → (combined base policy).validate = .ok () →
      ∀ (key : Text) (instanceReadTimeoutMs : ℕ),
        PolicyPorts.Rust.resolvePolicy base (some (toJson policy).read) key instanceReadTimeoutMs =
          PolicyPorts.Rust.resolvePolicy (combined base policy) none key instanceReadTimeoutMs) ∧
    (∀ (base policy : Policy) (leaf : PolicyLeaf), setLeaf policy leaf = none →
      setLeaf (combined base policy) leaf = setLeaf base leaf) := by
  refine ⟨fun _ => fromJson_toJson, ?_, ?_, ?_, ?_⟩
  · intro value policy h
    have hvalid := (fromJson_eq_ok h).1
    exact ⟨hvalid, fromJson_toJson hvalid⟩
  · intro value name leaf hleaf hdomain
    cases hread : fromJson value with
    | error error => exact ⟨error, rfl⟩
    | ok policy =>
      rcases (fromJson_eq_ok hread).2 with rfl | hpolicy
      · cases name <;> cases hleaf
      · exact absurd (hpolicy.inDomain hleaf) (by simp [hdomain])
  · intro base policy hbase hcombined key instanceReadTimeoutMs
    exact resolvePolicy_toJson hbase hcombined key instanceReadTimeoutMs
  · intro base policy leaf hleaf
    rw [setLeaf_combined, hleaf]
    rfl

end DialCache.RustPolicyJson
