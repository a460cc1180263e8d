import DialCache.PolicyPorts

/-!
# Resolution by leaves

One portable reading of a policy: which overlays are accepted, what each leaf is after a merge,
and what the leaves resolve to. A port agrees with it when its merge keeps the leaves and its
resolution reads nothing else.
-/

namespace DialCache.PolicyLeaves

open UnicodeText JsValues JsonValues RuntimeConfig PortableKeys PolicyOverlays PolicyPorts
open RolloutCohorts

/-! ### Leaves -/

def shorthandValue : Option Json → Option Json
  | none => none
  | some (.bool true) => some (.bool true)
  | some _ => some (.bool false)

def shorthandDiff : Option Json → Option Json
  | none => none
  | some (.bool true) => some (.string "values")
  | some _ => some (.string "off")

def malformedShorthand : Option Json → Bool
  | none => false
  | some (.bool _) => false
  | some _ => true

/-- What one shadow group writes, by its shorthand and its own leaves. -/
def groupValue (logMismatches value : Option Json) : Option Json :=
  value.or (shorthandValue logMismatches)

def groupDiff (logMismatches diff : Option Json) : Option Json :=
  diff.or (shorthandDiff logMismatches)

variable (policy : StaticPolicy)

/-- The leaves of a static policy. -/
def staticLeaf : PolicyLeaf → Option Json
  | .ttlSec .LOCAL => policy.localTtlSec.map natural
  | .ttlSec .REMOTE => policy.remoteTtlSec.map natural
  | .ramp .LOCAL => policy.localRamp.map Json.number
  | .ramp .REMOTE => policy.remoteRamp.map Json.number
  | .requestLocal => policy.requestLocal.map Json.bool
  | .coalesce => policy.coalesce.map Json.bool
  | .staleOnErrorMaxAgeSec => policy.staleOnErrorMaxAgeSec.map natural
  | .remoteReadTimeoutMs => policy.remoteReadTimeoutMs.map natural
  | .shadowRamp => (policy.shadow.bind (·.ramp)).map Json.number
  | .mismatchValue => groupValue ((policy.shadow.bind (·.logMismatches)).map Json.bool)
      (((policy.shadow.bind (·.mismatchLogging)).bind (·.value)).map Json.bool)
  | .mismatchDiff => groupDiff ((policy.shadow.bind (·.logMismatches)).map Json.bool)
      (((policy.shadow.bind (·.mismatchLogging)).bind (·.diff)).map fun level =>
        Json.string (levelText level))

/-- The leaves that an overlay writes. -/
def writtenLeaf (overlay : Json) : PolicyLeaf → Option Json
  | .ttlSec layer => (overlay.get? "ttlSec").bind (·.get? (layerText layer))
  | .ramp layer => (overlay.get? "ramp").bind (·.get? (layerText layer))
  | .requestLocal => overlay.get? "requestLocal"
  | .coalesce => overlay.get? "coalesce"
  | .staleOnErrorMaxAgeSec => overlay.get? "staleOnErrorMaxAgeSec"
  | .remoteReadTimeoutMs => overlay.get? "remoteReadTimeoutMs"
  | .shadowRamp => (overlay.get? "shadow").bind (·.get? "ramp")
  | .mismatchValue => groupValue ((overlay.get? "shadow").bind (·.get? "logMismatches"))
      (((overlay.get? "shadow").bind (·.get? "mismatchLogging")).bind (·.get? "value"))
  | .mismatchDiff => groupDiff ((overlay.get? "shadow").bind (·.get? "logMismatches"))
      (((overlay.get? "shadow").bind (·.get? "mismatchLogging")).bind (·.get? "diff"))

def malformedOverlay (overlay : Json) : Bool :=
  malformedShorthand ((overlay.get? "shadow").bind (·.get? "logMismatches"))

/-- A merged leaf. -/
def mergedLeaf (overlay : Json) (leaf : PolicyLeaf) : Option Json :=
  (writtenLeaf overlay leaf).or (staticLeaf policy leaf)

/-! ### Accepted overlays -/

def wholeNumber (value : Json) (max : ℕ) : Option ℕ :=
  match value.asNumber? with
  | none => none
  | some n => if n.den = 1 ∧ 0 < n ∧ n ≤ max then some n.num.toNat else none

def percentage (value : Json) : Option ℚ :=
  match value.asNumber? with
  | none => none
  | some n => if 0 ≤ n ∧ n ≤ 100 then some n else none

def objectOrAbsent (leaf : Option Json) : Bool := leaf.all fun value => value.asObject?.isSome

def booleanOrAbsent (leaf : Option Json) : Bool := leaf.all fun value => value.asBool?.isSome

def deadlineOrAbsent (leaf : Option Json) : Bool :=
  leaf.all fun value => (wholeNumber value maxTimerDelayMs).isSome

/-- An overlay that does not fail the invocation's policy as a whole. -/
structure Accepted (overlay : Json) : Prop where
  shape : overlay.asObject?.isSome = true
  renamed : overlay.get? "shadowRamp" = none
  ttlSec : objectOrAbsent (overlay.get? "ttlSec") = true
  ramp : objectOrAbsent (overlay.get? "ramp") = true
  shadow : objectOrAbsent (overlay.get? "shadow") = true
  mismatchLogging : objectOrAbsent ((overlay.get? "shadow").bind (·.get? "mismatchLogging")) = true
  requestLocal : booleanOrAbsent (overlay.get? "requestLocal") = true
  coalesce : booleanOrAbsent (overlay.get? "coalesce") = true
  remoteReadTimeoutMs : deadlineOrAbsent (overlay.get? "remoteReadTimeoutMs") = true

/-! ### Resolution -/

/-- Whether a key is in the cohort of a discriminator under a ramp. -/
def sampled (key : Text) (discriminator : String) (ramp : ℚ) : Bool :=
  (fnv (cohortUnits key discriminator.toList)).toNat * 100 < ramp * 2 ^ 32

theorem sampled_iff (key : Text) (discriminator : String) (ramp : ℚ) :
    sampled key discriminator ramp = true ↔
      Admitted (fnv (cohortUnits key discriminator.toList)) ramp := by
  rw [sampled, decide_eq_true_eq]
  rfl

/-- A configured TTL implies a full ramp. -/
def rampSpec : Option Json → Option ℚ
  | none => some 100
  | some leaf => percentage leaf

def layerSpec (ttl ramp : Option Json) (admitted : ℚ → Bool) : LayerOutcome :=
  match ttl with
  | none => ⟨false, some .policyDisabled, none⟩
  | some ttl =>
    match wholeNumber ttl maxCacheTtlSec with
    | none => ⟨false, some .invalidTtl, none⟩
    | some seconds =>
      match rampSpec ramp with
      | none => ⟨false, some .invalidRamp, none⟩
      | some ramp =>
        if admitted ramp then ⟨true, none, some seconds⟩
        else ⟨false, some .rampedDown, some seconds⟩

/-- The recovery age beside a resolved remote layer, and whether its leaf is an error. -/
def recoverySpec (age : Option Json) (remote : LayerOutcome) : Option ℕ × Bool :=
  match age with
  | none => (none, false)
  | some age =>
    if age.asNumber? = some 0 then (none, false)
    else
      match remote.ttlSec with
      | none => (none, remote.reason = some .policyDisabled)
      | some ttlSec =>
        match wholeNumber age maxCacheTtlSec with
        | none => (none, true)
        | some seconds => if ttlSec < seconds then (some seconds, false) else (none, true)

/-- Whether shadow work is sampled, and whether its ramp is an error. -/
def shadowSpec (ramp : Option Json) (admitted : ℚ → Bool) : Bool × Bool :=
  match ramp with
  | none => (false, false)
  | some leaf =>
    match percentage leaf with
    | none => (false, true)
    | some ramp => (admitted ramp, false)

def valueSpec : Option Json → Option Bool
  | none => some false
  | some leaf => leaf.asBool?

def diffSpec : Option Json → Option ShadowMismatchDiffLevel
  | none => some .off
  | some leaf => leaf.asString?.bind levelOf

def flagSpec (flag : Option Json) (default : Bool) : Bool := (flag.bind Json.asBool?).getD default

/-- What leaves resolve to. -/
def resolveLeaves (leaf : PolicyLeaf → Option Json) (malformed : Bool) (key : Text)
    (instanceTimeoutMs : ℕ) : Resolved :=
  let onRemote := layerSpec (leaf (.ttlSec .REMOTE)) (leaf (.ramp .REMOTE)) (sampled key "remote")
  let recovery := recoverySpec (leaf .staleOnErrorMaxAgeSec) onRemote
  let shadow := shadowSpec (leaf .shadowRamp) (sampled key "shadow")
  let value := valueSpec (leaf .mismatchValue)
  let diff := diffSpec (leaf .mismatchDiff)
  { requestLocal := flagSpec (leaf .requestLocal) false
    coalesce := flagSpec (leaf .coalesce) true
    onLocal := layerSpec (leaf (.ttlSec .LOCAL)) (leaf (.ramp .LOCAL)) (sampled key "local")
    onRemote := onRemote
    readTimeoutMs := ((leaf .remoteReadTimeoutMs).bind
      fun leaf => wholeNumber leaf maxTimerDelayMs).getD instanceTimeoutMs
    staleOnErrorMaxAgeSec := recovery.1
    staleOnErrorConfigError := recovery.2
    shadowAdmitted := shadow.1
    shadowConfigError := shadow.2
    mismatchValue := value.getD false
    mismatchDiff := diff.getD .off
    loggingConfigError := malformed || value.isNone || diff.isNone }

instance (overlay : Json) : Decidable (Accepted overlay) :=
  decidable_of_iff
    (overlay.asObject?.isSome = true ∧ (overlay.get? "shadowRamp").isNone = true ∧
      objectOrAbsent (overlay.get? "ttlSec") = true ∧ objectOrAbsent (overlay.get? "ramp") = true ∧
      objectOrAbsent (overlay.get? "shadow") = true ∧
      objectOrAbsent ((overlay.get? "shadow").bind (·.get? "mismatchLogging")) = true ∧
      booleanOrAbsent (overlay.get? "requestLocal") = true ∧
      booleanOrAbsent (overlay.get? "coalesce") = true ∧
      deadlineOrAbsent (overlay.get? "remoteReadTimeoutMs") = true)
    ⟨fun ⟨h1, h2, h3, h4, h5, h6, h7, h8, h9⟩ =>
        ⟨h1, Option.isNone_iff_eq_none.mp h2, h3, h4, h5, h6, h7, h8, h9⟩,
      fun ⟨h1, h2, h3, h4, h5, h6, h7, h8, h9⟩ =>
        ⟨h1, Option.isNone_iff_eq_none.mpr h2, h3, h4, h5, h6, h7, h8, h9⟩⟩

/-- The portable resolution: the static leaves without an overlay, the merged leaves under an
accepted one, and a failure under any other. -/
def resolvePolicy (overlay : Option Json) (key : Text) (instanceTimeoutMs : ℕ) : Option Resolved :=
  match overlay with
  | none => some (resolveLeaves (staticLeaf policy) false key instanceTimeoutMs)
  | some .null => some (resolveLeaves (staticLeaf policy) false key instanceTimeoutMs)
  | some overlay =>
    if Accepted overlay then
      some (resolveLeaves (mergedLeaf policy overlay) (malformedOverlay overlay) key
        instanceTimeoutMs)
    else none

theorem resolvePolicy_some {overlay : Json} (h : overlay ≠ .null) (key : Text)
    (instanceTimeoutMs : ℕ) : resolvePolicy policy (some overlay) key instanceTimeoutMs =
      if Accepted overlay then
        some (resolveLeaves (mergedLeaf policy overlay) (malformedOverlay overlay) key
          instanceTimeoutMs)
      else none := by
  cases overlay with
  | null => exact absurd rfl h
  | _ => rfl

end DialCache.PolicyLeaves
