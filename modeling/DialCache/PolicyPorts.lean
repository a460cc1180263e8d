import DialCache.JsonValues
import DialCache.PolicyOverlays
import DialCache.RolloutCohorts

/-!
# Policy resolution in Go, Rust and Python

A statically valid policy as every port can hold it, and the merge and resolution of a JSON
overlay as Go, Rust and Python compute them. Numbers are exact; the cohort of a key is sampled
by each port's own hash.
-/

namespace DialCache.PolicyPorts

open UnicodeText JsonValues RuntimeConfig PortableKeys PolicyOverlays

/-! ### Static policies -/

structure StaticMismatchLogging where
  value : Option Bool
  diff : Option ShadowMismatchDiffLevel
deriving DecidableEq

structure StaticShadow where
  ramp : Option ℚ
  logMismatches : Option Bool
  mismatchLogging : Option StaticMismatchLogging
  ramp_range : ∀ percentage, ramp = some percentage → 0 ≤ percentage ∧ percentage ≤ 100

/-- A policy that every port accepts for an operation. -/
structure StaticPolicy where
  localTtlSec : Option ℕ
  remoteTtlSec : Option ℕ
  localRamp : Option ℚ
  remoteRamp : Option ℚ
  requestLocal : Option Bool
  coalesce : Option Bool
  staleOnErrorMaxAgeSec : Option ℕ
  remoteReadTimeoutMs : Option ℕ
  shadow : Option StaticShadow
  localTtl_range : ∀ seconds, localTtlSec = some seconds → 0 < seconds ∧ seconds ≤ maxCacheTtlSec
  remoteTtl_range : ∀ seconds, remoteTtlSec = some seconds → 0 < seconds ∧ seconds ≤ maxCacheTtlSec
  localRamp_range : ∀ percentage, localRamp = some percentage → 0 ≤ percentage ∧ percentage ≤ 100
  remoteRamp_range : ∀ percentage, remoteRamp = some percentage → 0 ≤ percentage ∧ percentage ≤ 100
  maxAge_range : ∀ maxAge, staleOnErrorMaxAgeSec = some maxAge → 0 < maxAge →
    maxAge ≤ maxCacheTtlSec ∧ ∃ seconds, remoteTtlSec = some seconds ∧ seconds < maxAge
  timeout_range : ∀ ms, remoteReadTimeoutMs = some ms → 0 < ms ∧ ms ≤ maxTimerDelayMs

/-- A diff level as the configuration spells it. -/
def levelText : ShadowMismatchDiffLevel → String
  | .off => "off"
  | .paths => "paths"
  | .values => "values"

def levelOf (spelling : String) : Option ShadowMismatchDiffLevel :=
  if spelling = "off" then some .off
  else if spelling = "paths" then some .paths
  else if spelling = "values" then some .values
  else none

/-- The leaves that one shadow group writes; `none` is unwritten, which Go
spells `Absent`. -/
structure MismatchLeaves where
  value : Option Json
  diff : Option Json
  invalid : Bool

/-- What `logMismatches` writes, in every port. -/
def shorthandLeaves : Option Json → MismatchLeaves
  | none => ⟨none, none, false⟩
  | some (.bool true) => ⟨some (.bool true), some (.string (levelText .values)), false⟩
  | some (.bool false) => ⟨some (.bool false), some (.string (levelText .off)), false⟩
  | some _ => ⟨some (.bool false), some (.string (levelText .off)), true⟩

def MismatchLeaves.overlaidBy (inherited written : MismatchLeaves) : MismatchLeaves :=
  ⟨written.value.or inherited.value, written.diff.or inherited.diff, written.invalid⟩

def natural (n : ℕ) : Json := .number n

variable (value : Json)

/-- The numeric domain of Go and Rust: a number in a range, and whole if so asked. -/
def finiteRange (min max : ℚ) (integer : Bool) : Option ℚ :=
  match value.asNumber? with
  | none => none
  | some n => if min ≤ n ∧ n ≤ max ∧ (integer = true → n.den = 1) then some n else none

/-- The ramp of a layer in Go and Rust; a missing one is full. -/
def configuredRamp : Option Json → Option ℚ
  | none => some 100
  | some leaf => finiteRange leaf 0 100 false

/-! ### TypeScript -/

namespace TypeScript

open Json

def mismatchLogging (group : StaticMismatchLogging) : MismatchLoggingConfig :=
  ⟨leafToJs (group.value.map Json.bool),
    leafToJs (group.diff.map fun level => Json.string (levelText level))⟩

def shadow (shadow : StaticShadow) : ShadowConfig :=
  ⟨leafToJs (shadow.ramp.map Json.number), leafToJs (shadow.logMismatches.map Json.bool),
    shadow.mismatchLogging.map mismatchLogging⟩

def deadline (policy : StaticPolicy) : Option DeadlineMs :=
  match h : policy.remoteReadTimeoutMs with
  | none => none
  | some ms => some ⟨ms, (policy.timeout_range ms h).1, (policy.timeout_range ms h).2⟩

/-- The static policy as a `DialCacheKeyConfig`. -/
def policy (policy : StaticPolicy) : DialCacheKeyConfig where
  ttlSec := ⟨leafToJs (policy.localTtlSec.map natural), leafToJs (policy.remoteTtlSec.map natural)⟩
  ramp := ⟨leafToJs (policy.localRamp.map Json.number), leafToJs (policy.remoteRamp.map Json.number)⟩
  shadow := policy.shadow.map shadow
  requestLocal := policy.requestLocal
  coalesce := policy.coalesce
  staleOnErrorMaxAgeSec := leafToJs (policy.staleOnErrorMaxAgeSec.map natural)
  remoteReadTimeoutMs := deadline policy

end TypeScript

/-! ### Rust -/

namespace Rust

structure PolicyError where
  message : String
deriving DecidableEq

structure MismatchLogging where
  value : Option Bool
  diff : Option ShadowMismatchDiffLevel

structure ShadowPolicy where
  ramp : Option ℚ
  logMismatches : Option Bool
  mismatchLogging : Option MismatchLogging

structure Policy where
  requestLocal : Option Bool
  coalesce : Option Bool
  localTtlSec : Option ℕ
  remoteTtlSec : Option ℕ
  localRamp : Option ℚ
  remoteRamp : Option ℚ
  staleOnErrorMaxAgeSec : Option ℕ
  remoteReadTimeoutMs : Option ℕ
  shadow : Option ShadowPolicy

def Policy.disabled : Policy where
  requestLocal := some false
  coalesce := none
  localTtlSec := none
  remoteTtlSec := none
  localRamp := some 0
  remoteRamp := some 0
  staleOnErrorMaxAgeSec := some 0
  remoteReadTimeoutMs := none
  shadow := some ⟨some 0, none, some ⟨some false, some .off⟩⟩

/-- The static policy as this port holds it. -/
def policy (policy : StaticPolicy) : Policy where
  requestLocal := policy.requestLocal
  coalesce := policy.coalesce
  localTtlSec := policy.localTtlSec
  remoteTtlSec := policy.remoteTtlSec
  localRamp := policy.localRamp
  remoteRamp := policy.remoteRamp
  staleOnErrorMaxAgeSec := policy.staleOnErrorMaxAgeSec
  remoteReadTimeoutMs := policy.remoteReadTimeoutMs
  shadow := policy.shadow.map fun shadow =>
    ⟨shadow.ramp, shadow.logMismatches, shadow.mismatchLogging.map fun group =>
      ⟨group.value, group.diff⟩⟩

def maxDeadlineMs : ℕ := 2147483647
def defaultRemoteReadTimeoutMs : ℕ := 50

def rampInDomain (ramp : ℚ) : Bool := 0 ≤ ramp ∧ ramp ≤ 100

def Policy.validate (policy : Policy) : Except PolicyError Unit :=
  if ([policy.localTtlSec, policy.remoteTtlSec].reduceOption).any
      fun ttl => !(decide (1 ≤ ttl) && decide (ttl ≤ maxCacheTtlSec)) then
    .error ⟨"static TTL must be whole seconds within 365 days"⟩
  else if ([policy.localRamp, policy.remoteRamp].reduceOption).any fun ramp => !rampInDomain ramp then
    .error ⟨"static ramp must be between zero and 100"⟩
  else if policy.staleOnErrorMaxAgeSec.any fun age =>
      decide (maxCacheTtlSec < age) || (decide (0 < age) &&
        !policy.remoteTtlSec.any fun remote => 0 < remote ∧ remote < age) then
    .error ⟨"static recovery age must exceed a positive remote TTL"⟩
  else if policy.remoteReadTimeoutMs.any fun ms =>
      !(decide (1 ≤ ms) && decide (ms ≤ maxDeadlineMs)) then
    .error ⟨"invalid remote read deadline"⟩
  else if (policy.shadow.bind (·.ramp)).any fun ramp => !rampInDomain ramp then
    .error ⟨"static shadow ramp must be between zero and 100"⟩
  else .ok ()

def MismatchLogging.toJson (group : MismatchLogging) : Json :=
  let written := Members.insert? [] "value" (group.value.map Json.bool)
  .object (written.insert? "diff" (group.diff.map fun level => Json.string (levelText level)))

def ShadowPolicy.toJson (shadow : ShadowPolicy) : Json :=
  let leaves := Members.insert? [] "ramp" (shadow.ramp.map Json.number)
  let leaves := leaves.insert? "logMismatches" (shadow.logMismatches.map Json.bool)
  .object (leaves.insert? "mismatchLogging" (shadow.mismatchLogging.map (·.toJson)))

def layerObject (onLocal onRemote : Option Json) : Json :=
  .object (Members.insert? (Members.insert? [] "local" onLocal) "remote" onRemote)

/-- The members of `to_json`. -/
def Policy.members (policy : Policy) : Members :=
  let ttl := layerObject (policy.localTtlSec.map natural) (policy.remoteTtlSec.map natural)
  let ramp := layerObject (policy.localRamp.map Json.number) (policy.remoteRamp.map Json.number)
  let object := Members.insert (Members.insert [] "ttlSec" ttl) "ramp" ramp
  let object := object.insert? "requestLocal" (policy.requestLocal.map Json.bool)
  let object := object.insert? "coalesce" (policy.coalesce.map Json.bool)
  let object := object.insert? "staleOnErrorMaxAgeSec"
    (policy.staleOnErrorMaxAgeSec.map natural)
  let object := object.insert? "remoteReadTimeoutMs" (policy.remoteReadTimeoutMs.map natural)
  object.insert? "shadow" (policy.shadow.map (·.toJson))

def Policy.toJson (policy : Policy) : Json := .object policy.members

structure ResolvedLayer where
  enabled : Bool
  reason : Option DisabledReason
  configured : Bool
  ttlMs : ℕ
  ramp : ℚ

def ResolvedLayer.disabled (reason : DisabledReason) : ResolvedLayer := ⟨false, some reason, false, 0, 0⟩

structure ResolvedShadow where
  enabled : Bool
  ramp : ℚ
  mismatchValue : Bool
  mismatchDiff : ShadowMismatchDiffLevel
  configError : Bool
  loggingConfigError : Bool

structure ResolvedPolicy where
  requestLocal : Bool
  coalesce : Bool
  onLocal : ResolvedLayer
  onRemote : ResolvedLayer
  remoteReadTimeoutMs : ℕ
  staleOnErrorMaxAgeMs : ℕ
  staleOnErrorConfigError : Bool
  shadow : ResolvedShadow

def policyObject (name : String) : Except PolicyError Members :=
  match value.asObject? with
  | some members => .ok members
  | none => .error ⟨"DialCache " ++ name ++ " must be an object"⟩

def rejectShadowRamp (object : Members) : Except PolicyError Unit :=
  if (object.get? "shadowRamp").isSome then .error ⟨"shadowRamp was replaced by shadow.ramp"⟩
  else .ok ()

def expandMismatchLogging (shadow : Members) : MismatchLeaves :=
  let leaves := shorthandLeaves (shadow.get? "logMismatches")
  match (shadow.get? "mismatchLogging").bind Json.asObject? with
  | none => leaves
  | some group =>
    ⟨(group.get? "value").or leaves.value, (group.get? "diff").or leaves.diff,
      leaves.invalid⟩

def checkMismatchLogging (incoming : Members) : Except PolicyError Unit :=
  match incoming.get? "mismatchLogging" with
  | none => .ok ()
  | some group => (policyObject group "shadow mismatchLogging config").map fun _ => ()

/-- The merged group, once the overlay's mismatch leaves are known to be an object. -/
def mergedShadow (inherited incoming : Members) : Members :=
  let output := Members.insert? [] "ramp"
    ((incoming.get? "ramp").or (inherited.get? "ramp"))
  let base := expandMismatchLogging inherited
  let written := expandMismatchLogging incoming
  let output := if written.invalid then
      output.insert? "logMismatches" (incoming.get? "logMismatches")
    else output
  let group := Members.insert? [] "value" (written.value.or base.value)
  let group := group.insert? "diff" (written.diff.or base.diff)
  if group.isEmpty then output else output.insert "mismatchLogging" (.object group)

def mergeShadow (inherited incoming : Members) : Except PolicyError Members :=
  (checkMismatchLogging incoming).map fun _ => mergedShadow inherited incoming

/-- Merge one layer map of the overlay. -/
def mergeLayers (merged overlay : Members) (name : String) : Except PolicyError Members :=
  match overlay.get? name with
  | none => .ok merged
  | some incoming => do
    let incoming ← policyObject incoming name
    let output := ((merged.get? name).bind Json.asObject?).getD []
    let output := output.insert? "local" (incoming.get? "local")
    let output := output.insert? "remote" (incoming.get? "remote")
    return merged.insert name (.object output)

def mergeShadowGroup (merged overlay : Members) : Except PolicyError Members :=
  match overlay.get? "shadow" with
  | none => .ok merged
  | some incoming => do
    let incoming ← policyObject incoming "shadow"
    let inherited := ((merged.get? "shadow").bind Json.asObject?).getD []
    return merged.insert "shadow" (.object (← mergeShadow inherited incoming))

variable (merged : Members)

def mergeOverlay (overlay : Json) : Except PolicyError Members := do
  let overlay ← policyObject overlay "runtime config"
  rejectShadowRamp overlay
  let merged ← mergeLayers merged overlay "ttlSec"
  let merged ← mergeLayers merged overlay "ramp"
  let merged ← mergeShadowGroup merged overlay
  let merged := merged.insert? "requestLocal" (overlay.get? "requestLocal")
  let merged := merged.insert? "coalesce" (overlay.get? "coalesce")
  let merged := merged.insert? "staleOnErrorMaxAgeSec"
    (overlay.get? "staleOnErrorMaxAgeSec")
  return merged.insert? "remoteReadTimeoutMs" (overlay.get? "remoteReadTimeoutMs")

/-- A TTL-domain leaf in whole seconds. -/
def ttlSec : Option ℕ :=
  (finiteRange value 1 maxCacheTtlSec true).map fun n => n.num.toNat

def resolveLayer (ttls ramps : Members) (logicalKey : Text) (layer : String) : ResolvedLayer :=
  match ttls.get? layer with
  | none => .disabled .policyDisabled
  | some ttl =>
    match (ttlSec ttl).map (· * 1000) with
    | none => .disabled .invalidTtl
    | some ttlMs =>
      match configuredRamp (ramps.get? layer) with
      | none => .disabled .invalidRamp
      | some ramp =>
        let enabled := RolloutCohorts.Rust.admits ramp logicalKey layer.toList
        ⟨enabled, if enabled then none else some .rampedDown, true, ttlMs, ramp⟩

structure MismatchLoggingResolution where
  value : Bool
  diff : ShadowMismatchDiffLevel
  invalid : Bool

def resolveMismatchLogging (shadow : Members) : MismatchLoggingResolution :=
  let leaves := expandMismatchLogging shadow
  let value := match leaves.value with
    | none => some false
    | some leaf => leaf.asBool?
  let diff := match leaves.diff with
    | none => some ShadowMismatchDiffLevel.off
    | some leaf => leaf.asString?.bind levelOf
  ⟨value.getD false, diff.getD .off, leaves.invalid || value.isNone || diff.isNone⟩

/-- The recovery age in milliseconds, and whether its leaf was invalid. -/
def resolveRecovery (remote : ResolvedLayer) : ℕ × Bool :=
  match merged.get? "staleOnErrorMaxAgeSec" with
  | none => (0, false)
  | some age =>
    let numericZero := age.asNumber? = some 0
    if !remote.configured then (0, remote.reason = some .policyDisabled ∧ ¬ numericZero)
    else if numericZero then (0, false)
    else
      match (ttlSec age).map (· * 1000) with
      | some ms => if remote.ttlMs < ms then (ms, false) else (0, true)
      | none => (0, true)

def resolveShadow (logicalKey : Text) : ResolvedShadow :=
  match (merged.get? "shadow").bind Json.asObject? with
  | none => ⟨false, 0, false, .off, false, false⟩
  | some leaves =>
    let logging := resolveMismatchLogging leaves
    match leaves.get? "ramp" with
    | none => ⟨false, 0, logging.value, logging.diff, false, logging.invalid⟩
    | some leaf =>
      match finiteRange leaf 0 100 false with
      | some ramp =>
        ⟨RolloutCohorts.Rust.admits ramp logicalKey "shadow".toList, ramp, logging.value,
          logging.diff, false, logging.invalid⟩
      | none => ⟨false, 0, logging.value, logging.diff, true, logging.invalid⟩

/-- A merged flag. -/
def flag (name : String) : Except PolicyError Bool :=
  match (merged.get? name).bind Json.asBool? with
  | some value => .ok value
  | none => .error ⟨"runtime " ++ name ++ " must be boolean"⟩

def deadline (remoteReadTimeoutMs : ℕ) : Except PolicyError ℕ :=
  match merged.get? "remoteReadTimeoutMs" with
  | none => .ok remoteReadTimeoutMs
  | some leaf =>
    match finiteRange leaf 1 maxDeadlineMs true with
    | some ms => .ok ms.num.toNat
    | none => .error ⟨"invalid runtime remoteReadTimeoutMs"⟩

def applyOverlay : Option Json → Except PolicyError Members
  | none => .ok merged
  | some .null => .ok merged
  | some overlay => mergeOverlay merged overlay

def objectAt (name : String) : Members :=
  ((merged.get? name).bind Json.asObject?).getD []

def resolvePolicy (base : Policy) (overlay : Option Json) (logicalKey : Text)
    (instanceReadTimeoutMs : ℕ) : Except PolicyError ResolvedPolicy := do
  let remoteReadTimeoutMs := if instanceReadTimeoutMs = 0 then defaultRemoteReadTimeoutMs
    else instanceReadTimeoutMs
  if maxDeadlineMs < remoteReadTimeoutMs then .error ⟨"invalid instance read deadline"⟩
  else
    base.validate
    let merged := Members.orInsert (Members.orInsert base.members "requestLocal" (.bool false))
      "coalesce" (.bool true)
    let merged ← applyOverlay merged overlay
    let requestLocal ← flag merged "requestLocal"
    let coalesce ← flag merged "coalesce"
    let remoteReadTimeoutMs ← deadline merged remoteReadTimeoutMs
    let onLocal := resolveLayer (objectAt merged "ttlSec") (objectAt merged "ramp") logicalKey "local"
    let onRemote :=
      resolveLayer (objectAt merged "ttlSec") (objectAt merged "ramp") logicalKey "remote"
    let recovery := resolveRecovery merged onRemote
    return ⟨requestLocal, coalesce, onLocal, onRemote, remoteReadTimeoutMs, recovery.1, recovery.2,
      resolveShadow merged logicalKey⟩

end Rust

/-! ### Go -/

namespace Go

open KeyPorts.Go

def second : ℤ := 1000000000
def millisecond : ℤ := 1000000

structure MismatchLoggingPolicy where
  value : Option Bool
  diff : Option String

structure ShadowPolicy where
  ramp : Option ℚ
  logMismatches : Option Bool
  mismatchLogging : Option MismatchLoggingPolicy

/-- A policy with its durations in nanoseconds; a zero TTL is an omitted one. -/
structure Policy where
  requestLocal : Bool
  localTTL : ℤ
  remoteTTL : ℤ
  localRamp : Option ℚ
  remoteRamp : Option ℚ
  coalesce : Option Bool
  staleOnErrorMaxAge : Option ℤ
  remoteReadTimeout : Option ℤ
  shadow : Option ShadowPolicy

/-- The static policy as this port holds it. -/
def policy (policy : StaticPolicy) : Policy where
  requestLocal := policy.requestLocal.getD false
  localTTL := (policy.localTtlSec.getD 0 : ℕ) * second
  remoteTTL := (policy.remoteTtlSec.getD 0 : ℕ) * second
  localRamp := policy.localRamp
  remoteRamp := policy.remoteRamp
  coalesce := policy.coalesce
  staleOnErrorMaxAge := policy.staleOnErrorMaxAgeSec.map fun age : ℕ => (age : ℤ) * second
  remoteReadTimeout := policy.remoteReadTimeoutMs.map fun ms : ℕ => (ms : ℤ) * millisecond
  shadow := policy.shadow.map fun shadow =>
    ⟨shadow.ramp, shadow.logMismatches, shadow.mismatchLogging.map fun group =>
      ⟨group.value, group.diff.map levelText⟩⟩

def maxSupportedDuration : ℤ := 31536000000 * millisecond
def maxDeadline : ℤ := 2147483647 * millisecond
def defaultRemoteReadTimeout : ℤ := 50 * millisecond

def invalidTTL (ttl : ℤ) : Bool := ttl < 0 ∨ maxSupportedDuration < ttl ∨ ttl % second ≠ 0

def invalidRamp (ramp : Option ℚ) : Bool := ramp.any fun n => !(decide (0 ≤ n) && decide (n ≤ 100))

def validatePolicy (p : Policy) : Except String Unit :=
  if invalidTTL p.localTTL || invalidTTL p.remoteTTL then
    .error "static TTL must be whole seconds within 365 days"
  else if invalidRamp p.localRamp || invalidRamp p.remoteRamp then
    .error "static ramp must be between zero and 100"
  else if p.staleOnErrorMaxAge.any fun age => invalidTTL age ||
      (decide (0 < age) && (decide (p.remoteTTL = 0) || decide (age ≤ p.remoteTTL))) then
    .error "static recovery age must be whole seconds exceeding a positive remote TTL"
  else if p.remoteReadTimeout.any fun timeout =>
      decide (timeout ≤ 0) || decide (maxDeadline < timeout) || decide (timeout % millisecond ≠ 0) then
    .error "remote read timeout must be whole milliseconds between 1ms and 596h31m23.647s"
  else if invalidRamp (p.shadow.bind (·.ramp)) then
    .error "static shadow ramp must be between zero and 100"
  else if ((p.shadow.bind (·.mismatchLogging)).bind (·.diff)).any fun level =>
      (levelOf level).isNone then
    .error "static shadow mismatch diff must be \"off\", \"paths\" or \"values\""
  else .ok ()

def mismatchLoggingMap (group : MismatchLoggingPolicy) : Json :=
  let leaves := Members.insert? [] "value" (group.value.map Json.bool)
  .object (leaves.insert? "diff" (group.diff.map Json.string))

def shadowPolicyMap (p : ShadowPolicy) : Members :=
  let shadow := Members.insert? [] "ramp" (p.ramp.map Json.number)
  let shadow := shadow.insert? "logMismatches" (p.logMismatches.map Json.bool)
  shadow.insert? "mismatchLogging" (p.mismatchLogging.map mismatchLoggingMap)

def seconds (ttl : ℤ) : Option Json := if 0 < ttl then some (.number (ttl / second : ℤ)) else none

def layerMap (onLocal onRemote : Option Json) : Json :=
  .object (Members.insert? (Members.insert? [] "local" onLocal) "remote" onRemote)

def staticPolicyMap (p : Policy) : Members :=
  let m := Members.insert [] "ttlSec" (layerMap (seconds p.localTTL) (seconds p.remoteTTL))
  let m := m.insert "ramp"
    (layerMap (p.localRamp.map Json.number) (p.remoteRamp.map Json.number))
  let m := m.insert "requestLocal" (.bool p.requestLocal)
  let m := m.insert "coalesce" (.bool (p.coalesce.getD true))
  let m := m.insert? "staleOnErrorMaxAgeSec"
    (p.staleOnErrorMaxAge.map fun age => Json.number (age / second : ℤ))
  let m := m.insert? "remoteReadTimeoutMs"
    (p.remoteReadTimeout.map fun timeout => Json.number (timeout / millisecond : ℤ))
  m.insert? "shadow" (p.shadow.map fun shadow => Json.object (shadowPolicyMap shadow))

def policyMap (name : String) : Except String Members :=
  match value.asObject? with
  | some members => .ok members
  | none => .error (name ++ " must be an object")

def expandMismatchLogging (shadow : Members) : Except String MismatchLeaves :=
  let leaves := shorthandLeaves (shadow.get? "logMismatches")
  match shadow.get? "mismatchLogging" with
  | none => .ok leaves
  | some group => (policyMap group "shadow.mismatchLogging").map fun group =>
      ⟨(group.get? "value").or leaves.value, (group.get? "diff").or leaves.diff,
        leaves.invalid⟩

/-- A value leaf and whether it is valid. -/
def resolveValueLeaf : Option Json → Bool × Bool
  | none => (false, true)
  | some (.bool value) => (value, true)
  | some _ => (false, false)

def resolveDiffLeaf : Option Json → ShadowMismatchDiffLevel × Bool
  | none => (.off, true)
  | some leaf =>
    match leaf.asString?.bind levelOf with
    | some level => (level, true)
    | none => (.off, false)

/-- Merge one layer map of the overlay. -/
def mergeLayers (merged overlay : Members) (name : String) : Except String Members :=
  match overlay.get? name with
  | none => .ok merged
  | some incoming => (policyMap incoming name).map fun incoming =>
      let output := ((merged.get? name).bind Json.asObject?).getD []
      let output := output.insert? "local" (incoming.get? "local")
      let output := output.insert? "remote" (incoming.get? "remote")
      merged.insert name (.object output)

/-- Merge the shadow group, and the mismatch leaves beside it. -/
def mergeShadow (merged overlay : Members) (logging : MismatchLeaves) :
    Except String (Members × MismatchLeaves) :=
  match overlay.get? "shadow" with
  | none => .ok (merged, logging)
  | some incoming => do
    let incoming ← policyMap incoming "shadow"
    let output := ((merged.get? "shadow").bind Json.asObject?).getD []
    let written ← expandMismatchLogging incoming
    let output := output.insert? "ramp" (incoming.get? "ramp")
    return (merged.insert "shadow" (.object output), logging.overlaidBy written)

def rejectShadowRamp (m : Members) : Except String Unit :=
  if (m.get? "shadowRamp").isSome then .error "shadowRamp was replaced by shadow.ramp"
  else .ok ()

variable (merged : Members)

def mergeOverlay (logging : MismatchLeaves) (raw : Json) :
    Except String (Members × MismatchLeaves) := do
  let m ← policyMap raw "runtime config"
  rejectShadowRamp m
  let merged ← mergeLayers merged m "ttlSec"
  let merged ← mergeLayers merged m "ramp"
  let (merged, logging) ← mergeShadow merged m logging
  let merged := merged.insert? "requestLocal" (m.get? "requestLocal")
  let merged := merged.insert? "coalesce" (m.get? "coalesce")
  let merged := merged.insert? "staleOnErrorMaxAgeSec"
    (m.get? "staleOnErrorMaxAgeSec")
  return (merged.insert? "remoteReadTimeoutMs" (m.get? "remoteReadTimeoutMs"),
    logging)

structure ResolvedLayer where
  enabled : Bool
  reason : Option DisabledReason
  configured : Bool
  ttl : ℤ
  ramp : ℚ

structure ResolvedShadow where
  enabled : Bool
  ramp : ℚ
  logValue : Bool
  logDiff : ShadowMismatchDiffLevel
  configError : Bool
  loggingConfigError : Bool

structure ResolvedPolicy where
  requestLocal : Bool
  coalesce : Bool
  onLocal : ResolvedLayer
  onRemote : ResolvedLayer
  remoteReadTimeout : ℤ
  staleOnErrorMaxAge : ℤ
  staleOnErrorConfigError : Bool
  shadow : ResolvedShadow

def policyTTLMS : Option ℤ :=
  (finiteRange value 1 (31536000000 / 1000) true).map fun n => n.num * 1000

def resolveLayer (ttls ramps : Members) (logical : GoString) (layer : String) : ResolvedLayer :=
  match ttls.get? layer with
  | none => ⟨false, some .policyDisabled, false, 0, 0⟩
  | some v =>
    match policyTTLMS v with
    | none => ⟨false, some .invalidTtl, false, 0, 0⟩
    | some ttl =>
      match configuredRamp (ramps.get? layer) with
      | none => ⟨false, some .invalidRamp, false, 0, 0⟩
      | some ramp =>
        let enabled := RolloutCohorts.Go.admits ramp logical (literal layer)
        ⟨enabled, if enabled then none else some .rampedDown, true, ttl * millisecond, ramp⟩

/-- The recovery age, and whether its leaf was invalid. -/
def resolveRecovery (remote : ResolvedLayer) : ℤ × Bool :=
  match merged.get? "staleOnErrorMaxAgeSec" with
  | none => (0, false)
  | some age =>
    let numericZero := age.asNumber? = some 0
    if !remote.configured then (0, remote.reason = some .policyDisabled ∧ ¬ numericZero)
    else if numericZero then (0, false)
    else
      match policyTTLMS age with
      | none => (0, true)
      | some ms =>
        if ms * millisecond ≤ remote.ttl then (0, true) else (ms * millisecond, false)

def resolveShadow (logging : MismatchLeaves) (logical : GoString) : ResolvedShadow :=
  let value := resolveValueLeaf logging.value
  let diff := resolveDiffLeaf logging.diff
  let invalid := logging.invalid || !value.2 || !diff.2
  match ((merged.get? "shadow").bind Json.asObject?).bind (Members.get? · "ramp") with
  | none => ⟨false, 0, value.1, diff.1, false, invalid⟩
  | some v =>
    match finiteRange v 0 100 false with
    | none => ⟨false, 0, value.1, diff.1, true, invalid⟩
    | some ramp =>
      ⟨RolloutCohorts.Go.admits ramp logical (literal "shadow"), ramp, value.1, diff.1, false,
        invalid⟩

def flag (name : String) : Except String Bool :=
  match (merged.get? name).bind Json.asBool? with
  | some value => .ok value
  | none => .error ("runtime " ++ name ++ " must be boolean")

def deadline (remoteReadTimeout : ℤ) : Except String ℤ :=
  match merged.get? "remoteReadTimeoutMs" with
  | none => .ok remoteReadTimeout
  | some v =>
    match finiteRange v 1 2147483647 true with
    | some n => .ok (n.num * millisecond)
    | none => .error "invalid runtime remoteReadTimeoutMs"

def applyOverlay (logging : MismatchLeaves) : Option Json → Except String (Members × MismatchLeaves)
  | none => .ok (merged, logging)
  | some .null => .ok (merged, logging)
  | some raw => mergeOverlay merged logging raw

def objectAt (name : String) : Members :=
  ((merged.get? name).bind Json.asObject?).getD []

/-- `ResolvePolicy` for an identity whose logical key is given. -/
def resolvePolicy (base : Policy) (overlay : Option Json) (logical : GoString)
    (instanceReadTimeout : ℤ) : Except String ResolvedPolicy := do
  let remoteReadTimeout := if instanceReadTimeout = 0 then defaultRemoteReadTimeout
    else instanceReadTimeout
  if remoteReadTimeout ≤ 0 ∨ maxDeadline < remoteReadTimeout then
    .error "invalid instance read deadline"
  else
    validatePolicy base
    let merged := staticPolicyMap base
    -- the static group is written from typed fields, so it always expands
    let logging ← expandMismatchLogging (objectAt merged "shadow")
    let (merged, logging) ← applyOverlay merged logging overlay
    let requestLocal ← flag merged "requestLocal"
    let coalesce ← flag merged "coalesce"
    let remoteReadTimeout ← deadline merged remoteReadTimeout
    let onLocal := resolveLayer (objectAt merged "ttlSec") (objectAt merged "ramp") logical "local"
    let onRemote := resolveLayer (objectAt merged "ttlSec") (objectAt merged "ramp") logical "remote"
    let recovery := resolveRecovery merged onRemote
    return ⟨requestLocal, coalesce, onLocal, onRemote, remoteReadTimeout, recovery.1, recovery.2,
      resolveShadow merged logging logical⟩

end Go

/-! ### Python -/

namespace Python

open KeyAgreement.Python

structure ConfigError where
  message : String
deriving DecidableEq

/-- A `Policy` object; `none` is `UNSET`. -/
structure Policy where
  ttlSec : Members
  ramp : Members
  requestLocal : Option Bool
  coalesce : Option Bool
  staleOnErrorMaxAgeSec : Option Json
  remoteReadTimeoutMs : Option ℕ
  shadow : Option Members

/-- The fields that are passed to the constructor. -/
structure Fields where
  ttlSec : Option Json
  ramp : Option Json
  requestLocal : Option Json
  coalesce : Option Json
  staleOnErrorMaxAgeSec : Option Json
  remoteReadTimeoutMs : Option Json
  shadow : Option Json

def maxSafeInteger : ℚ := 9007199254740991

/-- The integer that `is_safe_integer` accepts. -/
def safeInteger? : Option ℤ :=
  match value.asNumber? with
  | none => none
  | some n => if |n| ≤ maxSafeInteger ∧ n.den = 1 then some n.num else none

def isSupportedCacheTtlSec : Bool :=
  (safeInteger? value).any fun n => 0 < n ∧ n ≤ (maxCacheTtlSec : ℤ)

def validateDeadlineMs (name : String) : Except ConfigError ℕ :=
  match safeInteger? value with
  | none => .error ⟨name ++ " must be an integer from 1 through 2147483647 milliseconds"⟩
  | some n =>
    if n ≤ 0 ∨ (maxTimerDelayMs : ℤ) < n then
      .error ⟨name ++ " must be an integer from 1 through 2147483647 milliseconds"⟩
    else .ok n.toNat

/-- The members of those names, where they are present. -/
def only (names : List String) (value : Members) : Members :=
  names.filterMap fun name => (value.get? name).map fun leaf => (name, leaf)

/-- `_layer_map`. -/
def layerMap (value : Option Json) (name : String) : Except ConfigError Members :=
  match value with
  | none => .ok []
  | some value =>
    match value.asObject? with
    | none => .error ⟨name ++ " must be a layer map"⟩
    | some members => .ok (only ["local", "remote"] members)

/-- `_mismatch_logging_map`. -/
def mismatchLoggingMap : Except ConfigError Json :=
  match value.asObject? with
  | none => .error ⟨"shadow.mismatch_logging must be an object"⟩
  | some members => .ok (.object (only ["value", "diff"] members))

/-- A member under its native name, or else under its portable one. -/
def aliased (value : Members) (native portable : String) : Option Json :=
  (value.get? native).or (value.get? portable)

def normalizedMismatchLogging : Option Json → Except ConfigError (Option Json)
  | none => .ok none
  | some group => (mismatchLoggingMap group).map some

/-- `_shadow_map`. -/
def shadowMap (value : Option Json) : Except ConfigError (Option Members) :=
  match value with
  | none => .ok none
  | some value =>
    match value.asObject? with
    | none => .error ⟨"shadow must be an object"⟩
    | some members => do
      let result := Members.insert? [] "ramp" (members.get? "ramp")
      let result := result.insert? "log_mismatches"
        (aliased members "log_mismatches" "logMismatches")
      let group ← normalizedMismatchLogging (aliased members "mismatch_logging" "mismatchLogging")
      return some (result.insert? "mismatch_logging" group)

def booleanField (value : Option Json) (name : String) : Except ConfigError (Option Bool) :=
  match value with
  | none => .ok none
  | some (.bool flag) => .ok (some flag)
  | some _ => .error ⟨name ++ " must be a boolean"⟩

def deadlineField : Option Json → Except ConfigError (Option ℕ)
  | none => .ok none
  | some value => (validateDeadlineMs value "remote_read_timeout_ms").map some

/-- `Policy.__post_init__`. -/
def construct (fields : Fields) : Except ConfigError Policy := do
  let ttlSec ← layerMap fields.ttlSec "ttl_sec"
  let ramp ← layerMap fields.ramp "ramp"
  let shadow ← shadowMap fields.shadow
  let requestLocal ← booleanField fields.requestLocal "request_local"
  let coalesce ← booleanField fields.coalesce "coalesce"
  let remoteReadTimeoutMs ← deadlineField fields.remoteReadTimeoutMs
  return ⟨ttlSec, ramp, requestLocal, coalesce, fields.staleOnErrorMaxAgeSec, remoteReadTimeoutMs,
    shadow⟩

/-- `normalize_policy` on a provider reply. -/
def normalizePolicy : Option Json → Except ConfigError (Option Policy)
  | none => .ok none
  | some .null => .ok none
  | some value =>
    match value.asObject? with
    | none => .error ⟨"DialCache policy must be an object"⟩
    | some members =>
      if (members.get? "shadowRamp").isSome || (members.get? "shadow_ramp").isSome then
        .error ⟨"shadow_ramp was replaced by \"shadow.ramp\""⟩
      else (construct {
        ttlSec := aliased members "ttl_sec" "ttlSec"
        ramp := members.get? "ramp"
        requestLocal := aliased members "request_local" "requestLocal"
        coalesce := members.get? "coalesce"
        staleOnErrorMaxAgeSec := aliased members "stale_on_error_max_age_sec" "staleOnErrorMaxAgeSec"
        remoteReadTimeoutMs := aliased members "remote_read_timeout_ms" "remoteReadTimeoutMs"
        shadow := members.get? "shadow" }).map some

def staticMismatchLogging (group : StaticMismatchLogging) : Json :=
  let leaves := Members.insert? [] "value" (group.value.map Json.bool)
  .object (leaves.insert? "diff" (group.diff.map fun level => Json.string (levelText level)))

def staticShadow (shadow : StaticShadow) : Json :=
  let leaves := Members.insert? [] "ramp" (shadow.ramp.map Json.number)
  let leaves := leaves.insert? "log_mismatches" (shadow.logMismatches.map Json.bool)
  .object (leaves.insert? "mismatch_logging" (shadow.mismatchLogging.map staticMismatchLogging))

def staticLayers (onLocal onRemote : Option Json) : Json :=
  .object (Members.insert? (Members.insert? [] "local" onLocal) "remote" onRemote)

/-- The static policy as the arguments of this port's constructor. -/
def fields (policy : StaticPolicy) : Fields where
  ttlSec := some (staticLayers (policy.localTtlSec.map natural) (policy.remoteTtlSec.map natural))
  ramp := some (staticLayers (policy.localRamp.map Json.number) (policy.remoteRamp.map Json.number))
  requestLocal := policy.requestLocal.map Json.bool
  coalesce := policy.coalesce.map Json.bool
  staleOnErrorMaxAgeSec := policy.staleOnErrorMaxAgeSec.map natural
  remoteReadTimeoutMs := policy.remoteReadTimeoutMs.map natural
  shadow := policy.shadow.map staticShadow

/-- The number that `_valid_ramp` accepts. -/
def validRamp? : Option ℚ :=
  match value.asNumber? with
  | none => none
  | some n => if 0 ≤ n ∧ n ≤ 100 then some n else none

def validDiffLevel : Bool := (value.asString?.bind levelOf).isSome

def validateStaticLayer (policy : Policy) (layer : String) : Except ConfigError Unit :=
  if (Members.get? policy.ttlSec layer).any fun ttl => !isSupportedCacheTtlSec ttl then
    .error ⟨"ttl_sec." ++ layer ++ " must be an integer from 1 through 31536000"⟩
  else if (Members.get? policy.ramp layer).any fun ramp => (validRamp? ramp).isNone then
    .error ⟨"ramp." ++ layer ++ " must be a finite number from 0 through 100"⟩
  else .ok ()

def validateStaticAge (policy : Policy) : Except ConfigError Unit :=
  match policy.staleOnErrorMaxAgeSec with
  | none => .ok ()
  | some age =>
    match safeInteger? age with
    | none => .error ⟨"stale_on_error_max_age_sec must be a supported nonnegative integer"⟩
    | some seconds =>
      if seconds < 0 ∨ (maxCacheTtlSec : ℤ) < seconds then
        .error ⟨"stale_on_error_max_age_sec must be a supported nonnegative integer"⟩
      else if 0 < seconds ∧ ((Members.get? policy.ttlSec "remote").bind safeInteger?).all
          (fun ttl => seconds ≤ ttl) = true then
        .error ⟨"stale_on_error_max_age_sec requires a smaller positive remote TTL"⟩
      else .ok ()

def validateStaticShadow (shadow : Members) : Except ConfigError Unit :=
  let group := shadow.get? "mismatch_logging"
  if (shadow.get? "ramp").any fun ramp => (validRamp? ramp).isNone then
    .error ⟨"shadow.ramp must be a finite number from 0 through 100"⟩
  else if (shadow.get? "log_mismatches").any fun leaf => leaf.asBool?.isNone then
    .error ⟨"shadow.log_mismatches must be a boolean"⟩
  else if (group.bind (·.get? "value")).any fun leaf => leaf.asBool?.isNone then
    .error ⟨"shadow.mismatch_logging.value must be a boolean"⟩
  else if (group.bind (·.get? "diff")).any fun leaf => !validDiffLevel leaf then
    .error ⟨"shadow.mismatch_logging.diff must be \"off\", \"paths\" or \"values\""⟩
  else .ok ()

/-- `validate_static_policy` on a constructed policy. -/
def validateStaticPolicy (policy : Policy) : Except ConfigError Policy := do
  validateStaticLayer policy "local"
  validateStaticLayer policy "remote"
  validateStaticAge policy
  match policy.shadow with
  | none => return policy
  | some shadow =>
    validateStaticShadow shadow
    return policy

/-- `{**base, **overlay}`, for an overlay without repeated names. -/
def update (base overlay : Members) : Members :=
  overlay.foldr (fun member merged => merged.insert member.1 member.2) base

def expandMismatchLogging (shadow : Members) : MismatchLeaves :=
  let expanded := shorthandLeaves (shadow.get? "log_mismatches")
  match shadow.get? "mismatch_logging" with
  | none => expanded
  | some group =>
    ⟨(group.get? "value").or expanded.value, (group.get? "diff").or expanded.diff, expanded.invalid⟩

/-- `_merge_shadow`. -/
def mergeShadow (base overlay : Option Members) : Option Members :=
  match base, overlay with
  | none, none => none
  | _, _ =>
    let defaults := base.getD []
    let runtime := overlay.getD []
    let merged := Members.insert? [] "ramp"
      ((runtime.get? "ramp").or (defaults.get? "ramp"))
    let inherited := expandMismatchLogging defaults
    let written := expandMismatchLogging runtime
    let merged := if written.invalid then
        merged.insert? "log_mismatches" (runtime.get? "log_mismatches")
      else merged
    let group := Members.insert? [] "value" (written.value.or inherited.value)
    let group := group.insert? "diff" (written.diff.or inherited.diff)
    some (if group.isEmpty then merged else merged.insert "mismatch_logging" (.object group))

/-- The constructor arguments of a merge. -/
def mergedFields (base overlay : Policy) : Fields where
  ttlSec := some (.object (update base.ttlSec overlay.ttlSec))
  ramp := some (.object (update base.ramp overlay.ramp))
  requestLocal := (overlay.requestLocal.or base.requestLocal).map Json.bool
  coalesce := (overlay.coalesce.or base.coalesce).map Json.bool
  staleOnErrorMaxAgeSec := overlay.staleOnErrorMaxAgeSec.or base.staleOnErrorMaxAgeSec
  remoteReadTimeoutMs := (overlay.remoteReadTimeoutMs.or base.remoteReadTimeoutMs).map natural
  shadow := (mergeShadow base.shadow overlay.shadow).map Json.object

/-- `merge_policy` of a static policy and a provider reply. -/
def mergePolicy (base : Option Policy) (runtime : Option Json) : Except ConfigError (Option Policy) := do
  match base, ← normalizePolicy runtime with
  | base, none => return base
  | none, some overlay => return some overlay
  | some base, some overlay =>
    let merged ← construct (mergedFields base overlay)
    return some merged

structure MismatchLogging where
  value : Bool
  diff : ShadowMismatchDiffLevel
  invalid : Bool

def resolveMismatchLogging (shadow : Members) : MismatchLogging :=
  let leaves := expandMismatchLogging shadow
  let value := (leaves.value.getD (.bool false)).asBool?
  let diff := (leaves.diff.getD (.string "off")).asString?.bind levelOf
  ⟨value.getD false, diff.getD .off, leaves.invalid || value.isNone || diff.isNone⟩

structure LayerResolution where
  enabled : Bool
  reason : Option DisabledReason
  ttlSec : Option ℕ
  ramp : Option ℚ
  staleOnErrorMaxAgeSec : Option ℕ
  staleOnErrorConfigError : Bool

def recoveryOff : Option Json → Bool
  | none => true
  | some age => safeInteger? age = some 0

/-- The recovery age of the remote layer, and whether its leaf was invalid. -/
def resolveRecovery (age : Option Json) (ttl : Json) : Option ℕ × Bool :=
  if recoveryOff age then (none, false)
  else
    match age with
    | none => (none, false)
    | some age =>
      match safeInteger? age, safeInteger? ttl with
      | some seconds, some ttlSec =>
        if (0 < seconds ∧ seconds ≤ maxCacheTtlSec) ∧ ttlSec < seconds then (some seconds.toNat, false)
        else (none, true)
      | _, _ => (none, true)

def resolveLayer (policy : Option Policy) (urn : PyString) (layer : String) : LayerResolution :=
  let age := policy.bind (·.staleOnErrorMaxAgeSec)
  match policy.bind fun policy => Members.get? policy.ttlSec layer with
  | none => ⟨false, some .policyDisabled, none, none, none, layer = "remote" ∧ !recoveryOff age⟩
  | some ttl =>
    if !isSupportedCacheTtlSec ttl then ⟨false, some .invalidTtl, none, none, none, false⟩
    else
      let leaf := (policy.bind fun policy => Members.get? policy.ramp layer).getD (.number 100)
      match validRamp? leaf with
      | none => ⟨false, some .invalidRamp, none, none, none, false⟩
      | some ramp =>
        let enabled := RolloutCohorts.Python.admits ramp urn (literal layer)
        let recovery := if layer = "remote" then resolveRecovery age ttl else (none, false)
        ⟨enabled, if enabled then none else some .rampedDown, (safeInteger? ttl).map Int.toNat,
          some ramp, recovery.1, recovery.2⟩

/-- The sampling of `_schedule_shadow`: whether a job is admitted, and whether its ramp is
malformed. -/
def scheduleShadow (shadow : Option Members) (urn : PyString) : Bool × Bool :=
  match shadow with
  | none => (false, false)
  | some shadow =>
    match validRamp? ((shadow.get? "ramp").getD (.number 0)) with
    | none => (false, true)
    | some ramp => (ramp ≠ 0 ∧ RolloutCohorts.Python.admitsShadow ramp urn = true, false)

end Python

end DialCache.PolicyPorts
