import Mathlib.Data.Rat.Lemmas
import Mathlib.Algebra.Order.Ring.Unbundled.Rat
import DialCache.JsValues

/-!
# Runtime policy

The per-key policy and its resolution against one cache layer. Leaves of a policy come
from application code and stay JavaScript values until they are resolved; a resolved
layer carries the proof that its lifetime is supported, so that converting it to
milliseconds cannot fail.
-/

namespace DialCache.RuntimeConfig

open JsValues

inductive CacheLayer where
  | LOCAL
  | REMOTE
deriving DecidableEq

inductive DisabledReason where
  | context
  | policyDisabled
  | invalidTtl
  | invalidRamp
  | rampedDown
  | configError
deriving DecidableEq

inductive ShadowMismatchDiffLevel where
  | off
  | paths
  | values
deriving DecidableEq

/-- Per-layer leaves; `undefined` is a leaf that was not written. -/
structure LayerConfig where
  onLocal : JsValue
  onRemote : JsValue

def LayerConfig.leaf (config : LayerConfig) : CacheLayer → JsValue
  | .LOCAL => config.onLocal
  | .REMOTE => config.onRemote

structure MismatchLoggingConfig where
  value : JsValue
  diff : JsValue

structure ShadowConfig where
  ramp : JsValue
  logMismatches : JsValue
  mismatchLogging : Option MismatchLoggingConfig

/-- `MAX_TIMER_DELAY_MS`. -/
def maxTimerDelayMs : ℕ := 2147483647

/-- `MAX_CACHE_TTL_SEC`, 365 days. -/
def maxCacheTtlSec : ℕ := 31536000

/-- A deadline that `assertValidDeadlineMs` accepts. -/
structure DeadlineMs where
  ms : ℕ
  pos : 0 < ms
  le : ms ≤ maxTimerDelayMs
deriving DecidableEq

/-- A `DialCacheKeyConfig` instance. Its constructor has checked the two flags, the read
deadline and the shapes of the groups; every other leaf is unchecked. -/
structure DialCacheKeyConfig where
  ttlSec : LayerConfig
  ramp : LayerConfig
  shadow : Option ShadowConfig
  requestLocal : Option Bool
  coalesce : Option Bool
  staleOnErrorMaxAgeSec : JsValue
  remoteReadTimeoutMs : Option DeadlineMs

structure ResolvedLayerConfig where
  ttlSec : ℕ
  ramp : ℚ
  supported : 0 < ttlSec ∧ ttlSec ≤ maxCacheTtlSec

structure ResolvedRemoteLayerConfig extends ResolvedLayerConfig where
  staleOnErrorMaxAgeSec : Option ℕ
  maxAge_supported : ∀ maxAge, staleOnErrorMaxAgeSec = some maxAge →
    ttlSec < maxAge ∧ maxAge ≤ maxCacheTtlSec

/-- A layer is enabled, excluded by its ramp with a valid policy, or disabled. -/
inductive LayerConfigResolution (Config : Type) where
  | enabled (config : Config)
  | rampedDown (config : Config)
  | disabled (reason : DisabledReason)

/-- `cacheTtlSecToMs` on a supported lifetime. -/
def cacheTtlSecToMs (ttlSec : ℕ) : ℕ := ttlSec * 1000

/-- The 32-bit FNV-1a hash of a string's code units, scaled to `[0, 100)`. -/
def stablePercent (value : List UInt16) : ℚ :=
  let hash := value.foldl (fun hash unit => (hash ^^^ unit.toUInt32) * 0x01000193) 0x811c9dc5
  hash.toNat * 100 / 4294967296

def layerName : CacheLayer → List UInt16
  | .LOCAL => text "local"
  | .REMOTE => text "remote"

def deterministicRampSample (urn : List UInt16) (layer : CacheLayer) : ℚ :=
  stablePercent (urn ++ text ":" ++ layerName layer)

def deterministicShadowRampSample (urn : List UInt16) : ℚ :=
  stablePercent (urn ++ text ":shadow")

/-- A finite number from 0 through 100. -/
def percentage? : JsValue → Option ℚ
  | .number (.finite q) => if 0 ≤ q ∧ q ≤ 100 then some q else none
  | _ => none

/-- `configuredRampValue === undefined ? 100 : configuredRampValue`, if it is a percentage. -/
def configuredRamp? : JsValue → Option ℚ
  | .undefined => some 100
  | value => percentage? value

def resolveLayerConfigResult (config : Option DialCacheKeyConfig) (urn : List UInt16)
    (layer : CacheLayer) : LayerConfigResolution ResolvedLayerConfig :=
  match config with
  | none => .disabled .policyDisabled
  | some config =>
    match config.ttlSec.leaf layer with
    | .undefined => .disabled .policyDisabled
    | leaf =>
      match leaf.natural? with
      | none => .disabled .invalidTtl
      | some ttlSec =>
        if supported : 0 < ttlSec ∧ ttlSec ≤ maxCacheTtlSec then
          match configuredRamp? (config.ramp.leaf layer) with
          | none => .disabled .invalidRamp
          | some ramp =>
            let resolved : ResolvedLayerConfig := ⟨ttlSec, ramp, supported⟩
            if ramp ≤ 0 then .rampedDown resolved
            else if 100 ≤ ramp then .enabled resolved
            else if deterministicRampSample urn layer < ramp then .enabled resolved
            else .rampedDown resolved
        else .disabled .invalidTtl

/-- The stale-recovery age of a resolved remote layer, and whether the configured value
was malformed. -/
def resolveMaxAge (configured : JsValue) (base : ResolvedLayerConfig) :
    ResolvedRemoteLayerConfig × Bool :=
  let without : ResolvedRemoteLayerConfig := { base with
    staleOnErrorMaxAgeSec := none, maxAge_supported := by simp }
  match configured with
  | .undefined => (without, false)
  | leaf =>
    match leaf.natural? with
    | some 0 => (without, false)
    | none => (without, true)
    | some maxAge =>
      if h : base.ttlSec < maxAge ∧ maxAge ≤ maxCacheTtlSec then
        ({ base with
            staleOnErrorMaxAgeSec := some maxAge
            maxAge_supported := by
              rintro m hm
              cases hm
              exact h }, false)
      else (without, true)

/-- A malformed optional stale policy leaves the layer available without recovery. -/
def resolveRemoteLayerConfigResult (config : Option DialCacheKeyConfig) (urn : List UInt16) :
    LayerConfigResolution ResolvedRemoteLayerConfig × Bool :=
  let configuredMaxAge := (config.map (·.staleOnErrorMaxAgeSec)).getD .undefined
  match resolveLayerConfigResult config urn .REMOTE with
  | .enabled base =>
    let (resolved, malformed) := resolveMaxAge configuredMaxAge base
    (.enabled resolved, malformed)
  | .rampedDown base =>
    let (resolved, malformed) := resolveMaxAge configuredMaxAge base
    (.rampedDown resolved, malformed)
  | .disabled reason =>
    let unset := match configuredMaxAge with
      | .undefined => true
      | leaf => leaf.natural? == some 0
    (.disabled reason, reason == .policyDisabled && !unset)

section Layers

variable {config : DialCacheKeyConfig} {layer : CacheLayer}

theorem resolveLayerConfigResult_invalidTtl (hdefined : config.ttlSec.leaf layer ≠ .undefined)
    (hinvalid : ∀ n, (config.ttlSec.leaf layer).natural? = some n → ¬ (0 < n ∧ n ≤ maxCacheTtlSec))
    (urn : List UInt16) :
    resolveLayerConfigResult (some config) urn layer = .disabled .invalidTtl := by
  unfold resolveLayerConfigResult
  dsimp only
  split
  · contradiction
  · split
    · rfl
    · rename_i n hnatural
      exact dif_neg (hinvalid n hnatural)

/-- A layer with a supported lifetime is decided by its ramp. -/
theorem resolveLayerConfigResult_supported {seconds : ℕ}
    (httl : (config.ttlSec.leaf layer).natural? = some seconds)
    (hsupported : 0 < seconds ∧ seconds ≤ maxCacheTtlSec) (urn : List UInt16) :
    resolveLayerConfigResult (some config) urn layer =
      match configuredRamp? (config.ramp.leaf layer) with
      | none => .disabled .invalidRamp
      | some ramp =>
        if ramp ≤ 0 then .rampedDown ⟨seconds, ramp, hsupported⟩
        else if 100 ≤ ramp then .enabled ⟨seconds, ramp, hsupported⟩
        else if deterministicRampSample urn layer < ramp then .enabled ⟨seconds, ramp, hsupported⟩
        else .rampedDown ⟨seconds, ramp, hsupported⟩ := by
  unfold resolveLayerConfigResult
  dsimp only
  split
  · rename_i hundefined
    rw [hundefined] at httl
    cases httl
  · simp only [httl, hsupported, and_self, dif_pos]

end Layers

/-- A policy that resolves never disables its layer as an error of the policy. -/
theorem resolveLayerConfigResult_ne_configError (config : Option DialCacheKeyConfig)
    (urn : List UInt16) (layer : CacheLayer) :
    resolveLayerConfigResult config urn layer ≠ .disabled .configError := by
  unfold resolveLayerConfigResult
  repeat' split
  all_goals simp

theorem resolveRemoteLayerConfigResult_ne_configError (config : Option DialCacheKeyConfig)
    (urn : List UInt16) :
    (resolveRemoteLayerConfigResult config urn).1 ≠ .disabled .configError := by
  have h := resolveLayerConfigResult_ne_configError config urn .REMOTE
  unfold resolveRemoteLayerConfigResult
  cases hlayer : resolveLayerConfigResult config urn .REMOTE with
  | enabled base => simp
  | rampedDown base => simp
  | disabled reason =>
    rw [hlayer] at h
    simpa using h

structure MismatchLoggingLeaves where
  value : JsValue
  diff : JsValue
  invalid : Bool

def isShadowMismatchDiffLevel : JsValue → Option ShadowMismatchDiffLevel
  | .string units =>
      if units = text "off" then some .off
      else if units = text "paths" then some .paths
      else if units = text "values" then some .values
      else none
  | _ => none

def expandMismatchLogging (shadow : ShadowConfig) : MismatchLoggingLeaves :=
  let expanded : MismatchLoggingLeaves := match shadow.logMismatches with
    | .undefined => ⟨.undefined, .undefined, false⟩
    | .boolean true => ⟨.boolean true, .string (text "values"), false⟩
    | .boolean false => ⟨.boolean false, .string (text "off"), false⟩
    | _ => ⟨.boolean false, .string (text "off"), true⟩
  match shadow.mismatchLogging with
  | none => expanded
  | some written =>
    ⟨written.value.orElse expanded.value, written.diff.orElse expanded.diff, expanded.invalid⟩

structure MismatchLoggingResolution where
  value : Bool
  diff : ShadowMismatchDiffLevel
  invalid : Bool

def resolveValueLeaf : JsValue → Option Bool
  | .undefined => some false
  | .boolean value => some value
  | _ => none

def resolveDiffLeaf : JsValue → Option ShadowMismatchDiffLevel
  | .undefined => some .off
  | leaf => isShadowMismatchDiffLevel leaf

def resolveMismatchLogging (shadow : ShadowConfig) : MismatchLoggingResolution :=
  let leaves := expandMismatchLogging shadow
  let value := resolveValueLeaf leaves.value
  let diff := resolveDiffLeaf leaves.diff
  ⟨value.getD false, diff.getD .off, leaves.invalid || value.isNone || diff.isNone⟩

/-- The errors that building a policy throws, with their messages. -/
inductive ConfigError where
  | typeError (message : String)
  | rangeError (message : String)
deriving DecidableEq

def isPlainObject : JsValue → Bool
  | .object _ => true
  | _ => false

def assertKeyConfig (config : JsValue) : Except ConfigError Unit :=
  if !isPlainObject config then .error (.typeError "DialCache key config must be an object")
  else if config.hasOwn "shadowRamp" then
    .error (.typeError "DialCacheKeyConfig.shadowRamp was replaced by \"shadow.ramp\"")
  else .ok ()

def mergeLayerConfig (defaults : Option LayerConfig) (overlay : JsValue) (name : String) :
    Except ConfigError LayerConfig :=
  let merge := fun (layer : JsValue → JsValue) (inherited : LayerConfig → JsValue) =>
    (layer overlay).orElse ((defaults.map inherited).getD .undefined)
  match overlay with
  | .undefined | .object _ =>
      .ok ⟨merge (·.member "local") (·.onLocal), merge (·.member "remote") (·.onRemote)⟩
  | _ => .error (.typeError ("DialCache " ++ name ++ " config must be a layer map"))

/-- An overlay's shadow group, if it has one of the right shape. -/
def overlayShadowConfig (overlay : JsValue) : Except ConfigError (Option ShadowConfig) :=
  match overlay with
  | .undefined => .ok none
  | .object _ =>
    match overlay.member "mismatchLogging" with
    | .undefined => .ok (some ⟨overlay.member "ramp", overlay.member "logMismatches", none⟩)
    | .object members =>
      let group := JsValue.object members
      .ok (some ⟨overlay.member "ramp", overlay.member "logMismatches",
        some ⟨group.member "value", group.member "diff"⟩⟩)
    | _ => .error (.typeError "DialCache shadow mismatchLogging config must be an object")
  | _ => .error (.typeError "DialCache shadow config must be an object")

def mergeShadowConfig (defaults overlay : Option ShadowConfig) : Option ShadowConfig :=
  match defaults, overlay with
  | none, none => none
  | _, _ =>
    let unwritten : MismatchLoggingLeaves := ⟨.undefined, .undefined, false⟩
    let inherited := (defaults.map expandMismatchLogging).getD unwritten
    let written := (overlay.map expandMismatchLogging).getD unwritten
    let leafOf := fun (leaf : ShadowConfig → JsValue) (config : Option ShadowConfig) =>
      (config.map leaf).getD .undefined
    let group : MismatchLoggingConfig :=
      ⟨written.value.orElse inherited.value, written.diff.orElse inherited.diff⟩
    some {
      ramp := (leafOf (·.ramp) overlay).orElse (leafOf (·.ramp) defaults)
      logMismatches := if written.invalid then leafOf (·.logMismatches) overlay else .undefined
      mismatchLogging := match group with
        | ⟨.undefined, .undefined⟩ => none
        | group => some group }

/-- A flag the constructor accepts. -/
def booleanFlag (name : String) : JsValue → Except ConfigError (Option Bool)
  | .undefined => .ok none
  | .boolean value => .ok (some value)
  | _ => .error (.typeError ("DialCache " ++ name ++ " config must be a boolean"))

def deadlineMs (name : String) : JsValue → Except ConfigError (Option DeadlineMs)
  | .undefined => .ok none
  | leaf =>
    match leaf.natural? with
    | some ms =>
      if h : 0 < ms ∧ ms ≤ maxTimerDelayMs then .ok (some ⟨ms, h.1, h.2⟩)
      else .error (.rangeError (name ++
        " must be a positive safe integer no greater than 2147483647"))
    | none => .error (.rangeError (name ++
        " must be a positive safe integer no greater than 2147483647"))

def flagValue : Option Bool → JsValue
  | none => .undefined
  | some value => .boolean value

/-- Overlay a provider result on the static default, leaf by leaf. -/
def mergeKeyConfig (defaults : Option DialCacheKeyConfig) (overlay : JsValue) :
    Except ConfigError DialCacheKeyConfig := do
  assertKeyConfig overlay
  let shadow := mergeShadowConfig (defaults.bind (·.shadow))
    (← overlayShadowConfig (overlay.member "shadow"))
  let ttlSec ← mergeLayerConfig (defaults.map (·.ttlSec)) (overlay.member "ttlSec") "ttlSec"
  let ramp ← mergeLayerConfig (defaults.map (·.ramp)) (overlay.member "ramp") "ramp"
  let requestLocal ← booleanFlag "requestLocal" ((overlay.member "requestLocal").orElse
    (flagValue (defaults.bind (·.requestLocal))))
  let coalesce ← booleanFlag "coalesce" ((overlay.member "coalesce").orElse
    (flagValue (defaults.bind (·.coalesce))))
  let remoteReadTimeoutMs ← match overlay.member "remoteReadTimeoutMs" with
    | .undefined => .ok (defaults.bind (·.remoteReadTimeoutMs))
    | leaf => deadlineMs "DialCache remoteReadTimeoutMs" leaf
  return {
    ttlSec, ramp, shadow, requestLocal, coalesce, remoteReadTimeoutMs
    staleOnErrorMaxAgeSec := (overlay.member "staleOnErrorMaxAgeSec").orElse
      ((defaults.map (·.staleOnErrorMaxAgeSec)).getD .undefined) }

end DialCache.RuntimeConfig
