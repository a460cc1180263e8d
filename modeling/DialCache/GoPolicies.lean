import DialCache.MemberPolicies

/-!
# Policy resolution in Go

The mismatch leaves are expanded once from the static group and travel beside the merged members.
Together they hold the overlay's leaves over the static ones, and they resolve as the portable
definition resolves the leaves.
-/

namespace DialCache.PolicyLeaves

open UnicodeText JsonValues PortableKeys PolicyOverlays PolicyPorts RolloutCohorts
open RuntimeConfig (CacheLayer DisabledReason ShadowMismatchDiffLevel maxCacheTtlSec maxTimerDelayMs)

variable (policy : StaticPolicy)

namespace Go

open PolicyPorts.Go

/-! ### The merge -/

variable {merged : Members}

theorem mergeLayers_eq_ok {overlay merged' : Members} {name : String} :
    mergeLayers merged overlay name = .ok merged' ↔
      objectOrAbsent (overlay.get? name) = true ∧ layered merged overlay name = merged' := by
  rw [mergeLayers, layered]
  cases overlay.get? name with
  | none => simp [objectOrAbsent]
  | some incoming =>
    cases incoming with
    | object incoming => simp [objectOrAbsent, Json.asObject?, policyMap, Except.map]
    | _ => simp [objectOrAbsent, Json.asObject?, policyMap, Except.map]

/-- What a shadow group writes for its mismatch leaves. -/
def groupLeaves (shadow : Members) : MismatchLeaves :=
  ⟨groupValue (shadow.get? "logMismatches")
      ((shadow.get? "mismatchLogging").bind (·.get? "value")),
    groupDiff (shadow.get? "logMismatches")
      ((shadow.get? "mismatchLogging").bind (·.get? "diff")),
    malformedShorthand (shadow.get? "logMismatches")⟩

theorem expandMismatchLogging_eq_ok {shadow : Members} {leaves : MismatchLeaves} :
    expandMismatchLogging shadow = .ok leaves ↔
      objectOrAbsent (shadow.get? "mismatchLogging") = true ∧ groupLeaves shadow = leaves := by
  rw [expandMismatchLogging, groupLeaves, shorthandLeaves_eq]
  cases shadow.get? "mismatchLogging" with
  | none => simp [objectOrAbsent, groupValue, groupDiff]
  | some group =>
    cases group with
    | object group =>
      simp [objectOrAbsent, Json.asObject?, policyMap, Except.map, groupValue, groupDiff, Json.get?]
    | _ => simp [objectOrAbsent, Json.asObject?, policyMap, Except.map]

/-- The members and the mismatch leaves after the overlay's shadow group was merged. -/
def shadowed (merged overlay : Members) (logging : MismatchLeaves) : Members × MismatchLeaves :=
  match (overlay.get? "shadow").bind Json.asObject? with
  | none => (merged, logging)
  | some incoming =>
    (merged.insert "shadow" (.object (Members.insert? (objectAt merged "shadow") "ramp"
      (incoming.get? "ramp"))), logging.overlaidBy (groupLeaves incoming))

theorem mergeShadow_eq_ok {overlay : Members} {logging : MismatchLeaves}
    {output : Members × MismatchLeaves} :
    mergeShadow merged overlay logging = .ok output ↔
      (objectOrAbsent (overlay.get? "shadow") = true ∧
        objectOrAbsent ((overlay.get? "shadow").bind (·.get? "mismatchLogging")) = true) ∧
        shadowed merged overlay logging = output := by
  rw [mergeShadow, shadowed]
  cases overlay.get? "shadow" with
  | none => simp [objectOrAbsent]
  | some incoming =>
    cases incoming with
    | object incoming =>
      change (do
          let written ← expandMismatchLogging incoming
          pure (merged.insert "shadow" (.object (Members.insert? (objectAt merged "shadow") "ramp"
            (Members.get? incoming "ramp"))), logging.overlaidBy written)) = Except.ok output ↔
        (true = true ∧ objectOrAbsent (Members.get? incoming "mismatchLogging") = true) ∧ _
      rw [bind_eq_ok]
      constructor
      · intro h
        obtain ⟨written, hwritten, h⟩ := h
        obtain ⟨hobject, rfl⟩ := expandMismatchLogging_eq_ok.mp hwritten
        exact ⟨⟨rfl, hobject⟩, Except.ok.inj h⟩
      · intro h
        obtain ⟨⟨_, hobject⟩, rfl⟩ := h
        exact ⟨_, expandMismatchLogging_eq_ok.mpr ⟨hobject, rfl⟩, rfl⟩
    | _ => simp [objectOrAbsent, Json.asObject?, policyMap, bind, Except.bind]

/-- The members and the mismatch leaves of a successful merge. -/
def overlaidMembers (merged overlay : Members) (logging : MismatchLeaves) : Members × MismatchLeaves :=
  let (merged, logging) := shadowed (layers merged overlay) overlay logging
  (scalars merged overlay, logging)

theorem mergeOverlay_eq_ok {logging : MismatchLeaves} {overlay : Json}
    {output : Members × MismatchLeaves} :
    mergeOverlay merged logging overlay = .ok output ↔
      Shaped overlay ∧ overlaidMembers merged (overlay.asObject?.getD []) logging = output := by
  cases overlay with
  | object members =>
    rw [mergeOverlay]
    constructor
    · intro h
      obtain ⟨overlay, hshape, h⟩ := bind_eq_ok.mp h
      obtain rfl := Except.ok.inj hshape
      obtain ⟨_, hrenamed, h⟩ := bind_eq_ok.mp h
      obtain ⟨_, httlSec, h⟩ := bind_eq_ok.mp h
      obtain ⟨_, hramp, h⟩ := bind_eq_ok.mp h
      obtain ⟨_, hshadow, h⟩ := bind_eq_ok.mp h
      obtain ⟨hisTtl, rfl⟩ := mergeLayers_eq_ok.mp httlSec
      obtain ⟨hisRamp, rfl⟩ := mergeLayers_eq_ok.mp hramp
      obtain ⟨⟨hisShadow, hisLogging⟩, rfl⟩ := mergeShadow_eq_ok.mp hshadow
      have hnone : Members.get? members "shadowRamp" = none := by
        rw [rejectShadowRamp] at hrenamed
        split at hrenamed
        · cases hrenamed
        · rename_i hnot
          exact Option.not_isSome_iff_eq_none.mp hnot
      exact ⟨⟨rfl, hnone, hisTtl, hisRamp, hisShadow, hisLogging⟩, Except.ok.inj h⟩
    · intro h
      obtain ⟨⟨_, hrenamed, hisTtl, hisRamp, hisShadow, hisLogging⟩, rfl⟩ := h
      have hreject : rejectShadowRamp members = .ok () := by
        rw [rejectShadowRamp, show Members.get? members "shadowRamp" = none from hrenamed]
        rfl
      exact bind_eq_ok.mpr ⟨members, rfl, bind_eq_ok.mpr ⟨(), hreject, bind_eq_ok.mpr ⟨_,
        mergeLayers_eq_ok.mpr ⟨hisTtl, rfl⟩, bind_eq_ok.mpr ⟨_, mergeLayers_eq_ok.mpr ⟨hisRamp, rfl⟩,
          bind_eq_ok.mpr ⟨_, mergeShadow_eq_ok.mpr ⟨⟨hisShadow, hisLogging⟩, rfl⟩, rfl⟩⟩⟩⟩⟩
  | _ =>
    constructor
    · intro h
      cases h
    · intro h
      cases h.1.shape

/-! ### The leaves that are held -/

/-- The leaves of merged members, with the mismatch leaves beside them. -/
def heldLeaf (held : Members × MismatchLeaves) : PolicyLeaf → Option Json
  | .mismatchValue => held.2.value
  | .mismatchDiff => held.2.diff
  | leaf => writtenLeaf (.object held.1) leaf

theorem get?_shadowed_of_ne (merged overlay : Members) (logging : MismatchLeaves) {other : String}
    (h : "shadow" ≠ other) :
    Members.get? (shadowed merged overlay logging).1 other = merged.get? other := by
  rw [shadowed]
  cases (overlay.get? "shadow").bind Json.asObject? with
  | none => rfl
  | some incoming => exact Members.get?_insert_of_ne merged h _

theorem get?_shadowed (merged overlay : Members) (logging : MismatchLeaves) :
    (Members.get? (shadowed merged overlay logging).1 "shadow").bind (·.get? "ramp") =
      ((overlay.get? "shadow").bind (·.get? "ramp")).or
        ((merged.get? "shadow").bind (·.get? "ramp")) := by
  rw [shadowed]
  cases overlay.get? "shadow" with
  | none => rfl
  | some incoming =>
    cases incoming with
    | object incoming =>
      change ((merged.insert "shadow" _).get? "shadow").bind _ =
        (Members.get? incoming "ramp").or _
      rw [Members.get?_insert_self]
      change (Members.insert? (objectAt merged "shadow") "ramp" _).get? "ramp" = _
      rw [Members.get?_insert?, if_pos rfl, objectAt, get?_objectAt]
    | _ => rfl

/-- The mismatch leaves that an overlay writes are those of its shadow group. -/
theorem logging_shadowed (merged overlay : Members) (logging : MismatchLeaves) :
    (shadowed merged overlay logging).2.value =
        (writtenLeaf (.object overlay) .mismatchValue).or logging.value ∧
      (shadowed merged overlay logging).2.diff =
        (writtenLeaf (.object overlay) .mismatchDiff).or logging.diff ∧
      (logging.invalid = false →
        (shadowed merged overlay logging).2.invalid = malformedOverlay (.object overlay)) := by
  have hvalue : writtenLeaf (.object overlay) .mismatchValue =
      groupValue ((overlay.get? "shadow").bind (·.get? "logMismatches"))
        (((overlay.get? "shadow").bind (·.get? "mismatchLogging")).bind (·.get? "value")) := rfl
  have hdiff : writtenLeaf (.object overlay) .mismatchDiff =
      groupDiff ((overlay.get? "shadow").bind (·.get? "logMismatches"))
        (((overlay.get? "shadow").bind (·.get? "mismatchLogging")).bind (·.get? "diff")) := rfl
  have hmalformed : malformedOverlay (.object overlay) =
      malformedShorthand ((overlay.get? "shadow").bind (·.get? "logMismatches")) := rfl
  rw [hvalue, hdiff, hmalformed, shadowed]
  cases overlay.get? "shadow" with
  | none => exact ⟨rfl, rfl, id⟩
  | some incoming =>
    cases incoming with
    | object incoming => exact ⟨rfl, rfl, fun _ => rfl⟩
    | _ => exact ⟨rfl, rfl, id⟩

/-- Every leaf held after a merge is the overlay's where the overlay writes it, and the one held
before otherwise. -/
theorem heldLeaf_overlaidMembers (merged overlay : Members) (logging : MismatchLeaves)
    (leaf : PolicyLeaf) :
    heldLeaf (overlaidMembers merged overlay logging) leaf =
      (writtenLeaf (.object overlay) leaf).or (heldLeaf (merged, logging) leaf) := by
  obtain ⟨hvalue, hdiff, _⟩ := logging_shadowed (layers merged overlay) overlay logging
  cases leaf with
  | shadowRamp =>
    change ((scalars (shadowed _ overlay logging).1 overlay).get? "shadow").bind _ = _
    rw [get?_shadow_scalars, get?_shadowed, get?_shadow_layers]
    rfl
  | mismatchValue => exact hvalue
  | mismatchDiff => exact hdiff
  | _ =>
    simp only [heldLeaf]
    exact writtenLeaf_scalars (get?_shadowed_of_ne _ overlay logging) (by simp)

/-! ### Resolution -/

theorem policyTTLMS_eq (value : Json) :
    policyTTLMS value = (wholeNumber value maxCacheTtlSec).map fun n : ℕ => (n : ℤ) * 1000 := by
  have hmax : (31536000000 / 1000 : ℚ) = ((maxCacheTtlSec : ℕ) : ℚ) := by
    rw [maxCacheTtlSec]
    norm_num
  rw [policyTTLMS, hmax, finiteRange_whole, Option.map_map]
  cases wholeNumber value maxCacheTtlSec with
  | none => rfl
  | some n => simp

theorem literal_discriminators : ∀ name ∈ ["local", "remote", "shadow"],
    KeyPorts.Go.literal name = encodeUtf8 name.toList := by
  decide +kernel

theorem admits_eq (key : Text) {discriminator : String}
    (hname : discriminator ∈ ["local", "remote", "shadow"]) {ramp : ℚ} (h0 : 0 ≤ ramp) :
    RolloutCohorts.Go.admits ramp (encodeUtf8 key) (KeyPorts.Go.literal discriminator) =
      sampled key discriminator ramp := by
  rw [literal_discriminators discriminator hname, Bool.eq_iff_iff,
    (cohortsAgree key discriminator.toList).go ramp h0, sampled_iff]

/-- One layer of this port's result. -/
def layerResult (layer : ResolvedLayer) : LayerOutcome :=
  ⟨layer.enabled, layer.reason, if layer.configured then some (layer.ttl / second).toNat else none⟩

theorem seconds_of_duration (n : ℕ) : ((n : ℤ) * 1000 * millisecond / second).toNat = n := by
  rw [millisecond, second]
  omega

theorem resolveLayer_eq (ttls ramps : Members) (key : Text) {layer : String}
    (hname : layer ∈ ["local", "remote", "shadow"]) :
    layerResult (resolveLayer ttls ramps (encodeUtf8 key) layer) =
      layerSpec (ttls.get? layer) (ramps.get? layer) (sampled key layer) := by
  rw [resolveLayer, configuredRamp_eq]
  cases ttls.get? layer with
  | none => rfl
  | some ttl =>
    simp only [layerSpec, policyTTLMS_eq]
    cases hwhole : wholeNumber ttl maxCacheTtlSec with
    | none => rfl
    | some seconds =>
      cases hramp : rampSpec (ramps.get? layer) with
      | none => rfl
      | some ramp =>
        simp only [Option.map_some, admits_eq key hname (rampSpec_nonneg hramp)]
        cases sampled key layer ramp with
        | false | true => simp [layerResult, seconds_of_duration]

/-- A configured layer has a TTL of whole seconds. -/
theorem resolveLayer_ttl (ttls ramps : Members) (key : KeyPorts.Go.GoString) (layer : String) :
    ∃ seconds : ℕ, (resolveLayer ttls ramps key layer).ttl = seconds * 1000 * millisecond := by
  rw [resolveLayer]
  cases ttls.get? layer with
  | none => exact ⟨0, rfl⟩
  | some ttl =>
    simp only [policyTTLMS_eq]
    cases wholeNumber ttl maxCacheTtlSec with
    | none => exact ⟨0, rfl⟩
    | some seconds =>
      simp only [Option.map_some]
      cases configuredRamp (ramps.get? layer) with
      | none => exact ⟨0, rfl⟩
      | some ramp => exact ⟨seconds, rfl⟩

/-- A recovery age of this port in seconds; zero is off. -/
def recoveryResult (recovery : ℤ × Bool) : Option ℕ × Bool :=
  (if recovery.1 = 0 then none else some (recovery.1 / second).toNat, recovery.2)

theorem resolveRecovery_eq (merged : Members) {remote : ResolvedLayer}
    (hremote : ∃ seconds : ℕ, remote.ttl = seconds * 1000 * millisecond) :
    recoveryResult (resolveRecovery merged remote) =
      recoverySpec (merged.get? "staleOnErrorMaxAgeSec") (layerResult remote) := by
  obtain ⟨ttlSec, httl⟩ := hremote
  rw [resolveRecovery]
  cases merged.get? "staleOnErrorMaxAgeSec" with
  | none => rfl
  | some age =>
    simp only [recoverySpec, layerResult, policyTTLMS_eq]
    by_cases hzero : age.asNumber? = some 0
    · cases remote.configured with
      | false | true => simp [hzero, recoveryResult]
    · cases remote.configured with
      | false =>
        by_cases hreason : remote.reason = some .policyDisabled
        · simp [hzero, hreason, recoveryResult]
        · simp [hreason, recoveryResult]
      | true =>
        simp only [hzero, Bool.not_true, Bool.false_eq_true, if_false, if_true, httl,
          seconds_of_duration]
        cases hwhole : wholeNumber age maxCacheTtlSec with
        | none => rfl
        | some seconds =>
          have hpos := wholeNumber_pos hwhole
          simp only [Option.map_some]
          by_cases hlt : ttlSec < seconds
          · have hms : ¬ (seconds : ℤ) * 1000 * millisecond ≤ (ttlSec : ℤ) * 1000 * millisecond := by
              rw [millisecond]
              omega
            have hne : (seconds : ℤ) * 1000 * millisecond ≠ 0 := by
              rw [millisecond]
              omega
            simp only [recoveryResult, hlt, hms, hne, if_true, if_false, seconds_of_duration]
          · have hms : (seconds : ℤ) * 1000 * millisecond ≤ (ttlSec : ℤ) * 1000 * millisecond := by
              rw [millisecond]
              omega
            simp only [recoveryResult, hlt, hms, if_true, if_false]

theorem resolveValueLeaf_eq (leaf : Option Json) :
    PolicyPorts.Go.resolveValueLeaf leaf = ((valueSpec leaf).getD false, (valueSpec leaf).isSome) := by
  cases leaf with
  | none => rfl
  | some leaf => cases leaf <;> rfl

theorem resolveDiffLeaf_eq (leaf : Option Json) :
    PolicyPorts.Go.resolveDiffLeaf leaf = ((diffSpec leaf).getD .off, (diffSpec leaf).isSome) := by
  cases leaf with
  | none => rfl
  | some leaf =>
    rw [PolicyPorts.Go.resolveDiffLeaf, diffSpec]
    cases leaf.asString?.bind levelOf <;> rfl

/-- The shadow group that members and mismatch leaves resolve to. -/
theorem resolveShadow_eq (held : Members × MismatchLeaves) (key : Text) :
    let shadow := resolveShadow held.1 held.2 (encodeUtf8 key)
    (shadow.enabled, shadow.configError) =
        shadowSpec (heldLeaf held .shadowRamp) (sampled key "shadow") ∧
      shadow.logValue = (valueSpec (heldLeaf held .mismatchValue)).getD false ∧
      shadow.logDiff = (diffSpec (heldLeaf held .mismatchDiff)).getD .off ∧
      shadow.loggingConfigError = (held.2.invalid ||
        (valueSpec (heldLeaf held .mismatchValue)).isNone ||
        (diffSpec (heldLeaf held .mismatchDiff)).isNone) := by
  have hramp : ((held.1.get? "shadow").bind Json.asObject?).bind (Members.get? · "ramp") =
      heldLeaf held .shadowRamp := Option.bind_assoc _ _ _
  have hleaves : heldLeaf held .mismatchValue = held.2.value ∧
      heldLeaf held .mismatchDiff = held.2.diff := ⟨rfl, rfl⟩
  simp only [resolveShadow, hramp, hleaves, resolveValueLeaf_eq, resolveDiffLeaf_eq]
  cases heldLeaf held .shadowRamp with
  | none => simp [shadowSpec]
  | some leaf =>
    simp only [finiteRange_percentage, shadowSpec]
    cases hpercentage : percentage leaf with
    | none => simp
    | some ramp => simp [admits_eq key _ (percentage_range hpercentage).1]

/-- This port's result for one invocation. -/
def result (resolved : ResolvedPolicy) : Resolved where
  requestLocal := resolved.requestLocal
  coalesce := resolved.coalesce
  onLocal := layerResult resolved.onLocal
  onRemote := layerResult resolved.onRemote
  readTimeoutMs := (resolved.remoteReadTimeout / millisecond).toNat
  staleOnErrorMaxAgeSec :=
    (recoveryResult (resolved.staleOnErrorMaxAge, resolved.staleOnErrorConfigError)).1
  staleOnErrorConfigError := resolved.staleOnErrorConfigError
  shadowAdmitted := resolved.shadow.enabled
  shadowConfigError := resolved.shadow.configError
  mismatchValue := resolved.shadow.logValue
  mismatchDiff := resolved.shadow.logDiff
  loggingConfigError := resolved.shadow.loggingConfigError

theorem flag_eq_ok {name : String} {value : Bool} :
    flag merged name = .ok value ↔ (merged.get? name).bind Json.asBool? = some value := by
  rw [flag]
  cases (merged.get? name).bind Json.asBool? with
  | none => simp
  | some flag => simp

variable {inherited : ℕ}

theorem deadline_eq_ok {timeout : ℤ} :
    deadline merged (inherited * millisecond) = .ok timeout ↔
      deadlineOrAbsent (merged.get? "remoteReadTimeoutMs") = true ∧
        (((merged.get? "remoteReadTimeoutMs").bind
          fun leaf => wholeNumber leaf maxTimerDelayMs).getD inherited : ℕ) * millisecond = timeout := by
  rw [deadline]
  cases merged.get? "remoteReadTimeoutMs" with
  | none => simp [deadlineOrAbsent]
  | some leaf =>
    have hmax : (2147483647 : ℚ) = ((maxTimerDelayMs : ℕ) : ℚ) := by
      rw [maxTimerDelayMs]
      norm_num
    simp only [hmax, finiteRange_whole, deadlineOrAbsent, Option.all_some, Option.bind_some]
    cases wholeNumber leaf maxTimerDelayMs with
    | none => simp
    | some ms => simp

variable {held : Members × MismatchLeaves}

/-- What the members resolve to is decided by the leaves that are held. -/
theorem result_of_members {requestLocal coalesce : Bool} {timeout : ℤ}
    (hrequestLocal : flag held.1 "requestLocal" = .ok requestLocal)
    (hcoalesce : flag held.1 "coalesce" = .ok coalesce)
    (hdeadline : deadline held.1 (inherited * millisecond) = .ok timeout) (key : Text) :
    let ttls := objectAt held.1 "ttlSec"
    let ramps := objectAt held.1 "ramp"
    let remote := resolveLayer ttls ramps (encodeUtf8 key) "remote"
    result ⟨requestLocal, coalesce, resolveLayer ttls ramps (encodeUtf8 key) "local", remote, timeout,
        (resolveRecovery held.1 remote).1, (resolveRecovery held.1 remote).2,
        resolveShadow held.1 held.2 (encodeUtf8 key)⟩ =
      resolveLeaves (heldLeaf held) held.2.invalid key inherited := by
  intro ttls ramps remote
  have hleaf : ∀ name leaf, (objectAt held.1 name).get? leaf =
      (held.1.get? name).bind (·.get? leaf) := get?_objectAt held.1
  have hrecovery := resolveRecovery_eq held.1
    (resolveLayer_ttl ttls ramps (encodeUtf8 key) "remote")
  obtain ⟨hshadow, hvalue, hdiff, hlogging⟩ := resolveShadow_eq held key
  have hlocal : layerResult (resolveLayer ttls ramps (encodeUtf8 key) "local") =
      layerSpec (heldLeaf held (.ttlSec .LOCAL)) (heldLeaf held (.ramp .LOCAL)) (sampled key "local") := by
    rw [resolveLayer_eq ttls ramps key (by simp), hleaf "ttlSec", hleaf "ramp"]
    rfl
  have hremote : layerResult remote = layerSpec (heldLeaf held (.ttlSec .REMOTE))
      (heldLeaf held (.ramp .REMOTE)) (sampled key "remote") := by
    rw [resolveLayer_eq ttls ramps key (by simp), hleaf "ttlSec", hleaf "ramp"]
    rfl
  have hflag : ∀ {name value default}, flag held.1 name = .ok value →
      value = flagSpec (held.1.get? name) default := by
    intro name value default h
    rw [flagSpec, flag_eq_ok.mp h]
    rfl
  have htimeout : (timeout / millisecond).toNat = ((heldLeaf held .remoteReadTimeoutMs).bind
      fun leaf => wholeNumber leaf maxTimerDelayMs).getD inherited := by
    rw [← (deadline_eq_ok.mp hdeadline).2, Int.mul_ediv_cancel _ (by decide), Int.toNat_natCast]
    rfl
  rw [hremote] at hrecovery
  rw [result, resolveLeaves, Resolved.mk.injEq]
  exact ⟨hflag hrequestLocal, hflag hcoalesce, hlocal, hremote, htimeout,
    congrArg Prod.fst hrecovery, congrArg Prod.snd hrecovery, congrArg Prod.fst hshadow,
    congrArg Prod.snd hshadow, hvalue, hdiff, hlogging⟩

/-! ### The static policy -/

theorem seconds_eq (ttl : Option ℕ) (h : ∀ n, ttl = some n → 0 < n ∧ n ≤ maxCacheTtlSec) :
    seconds ((ttl.getD 0 : ℕ) * second) = ttl.map natural := by
  rw [seconds]
  cases ttl with
  | none => rfl
  | some n =>
    have hpos : (0 : ℤ) < (n : ℤ) * second := by
      have := (h n rfl).1
      rw [second]
      omega
    rw [Option.getD_some, if_pos hpos, Int.mul_ediv_cancel _ (by decide)]
    rfl

theorem whole_of_scaled (n : ℕ) (unit : ℤ) (h : unit ≠ 0) :
    Json.number (((n : ℤ) * unit / unit : ℤ) : ℚ) = natural n := by
  rw [Int.mul_ediv_cancel _ h]
  rfl

theorem get?_staticPolicyMap :
    let base := PolicyPorts.Go.policy policy
    (staticPolicyMap base).get? "ttlSec" =
        some (layerMap (policy.localTtlSec.map natural) (policy.remoteTtlSec.map natural)) ∧
      (staticPolicyMap base).get? "ramp" =
        some (layerMap (policy.localRamp.map Json.number) (policy.remoteRamp.map Json.number)) ∧
      (staticPolicyMap base).get? "requestLocal" =
        (policy.requestLocal.map Json.bool).or (some (.bool false)) ∧
      (staticPolicyMap base).get? "coalesce" =
        (policy.coalesce.map Json.bool).or (some (.bool true)) ∧
      (staticPolicyMap base).get? "staleOnErrorMaxAgeSec" =
        policy.staleOnErrorMaxAgeSec.map natural ∧
      (staticPolicyMap base).get? "remoteReadTimeoutMs" =
        policy.remoteReadTimeoutMs.map natural ∧
      (staticPolicyMap base).get? "shadow" =
        base.shadow.map fun shadow => Json.object (shadowPolicyMap shadow) := by
  intro base
  have hage : (base.staleOnErrorMaxAge.map fun age => Json.number (age / second : ℤ)) =
      policy.staleOnErrorMaxAgeSec.map natural := by
    change ((policy.staleOnErrorMaxAgeSec.map _).map _) = _
    cases policy.staleOnErrorMaxAgeSec with
    | none => rfl
    | some n => exact congrArg some (whole_of_scaled n second (by decide))
  have htimeout : (base.remoteReadTimeout.map fun timeout => Json.number (timeout / millisecond : ℤ)) =
      policy.remoteReadTimeoutMs.map natural := by
    change ((policy.remoteReadTimeoutMs.map _).map _) = _
    cases policy.remoteReadTimeoutMs with
    | none => rfl
    | some n => exact congrArg some (whole_of_scaled n millisecond (by decide))
  have hlocal : seconds base.localTTL = policy.localTtlSec.map natural :=
    seconds_eq policy.localTtlSec policy.localTtl_range
  have hremote : seconds base.remoteTTL = policy.remoteTtlSec.map natural :=
    seconds_eq policy.remoteTtlSec policy.remoteTtl_range
  rw [staticPolicyMap, hage, htimeout, hlocal, hremote]
  simp only [Members.get?_insert, Members.get?_insert?]
  simp [base, PolicyPorts.Go.policy]

theorem get?_shadowPolicyMap (shadow : ShadowPolicy) :
    (shadowPolicyMap shadow).get? "ramp" = shadow.ramp.map Json.number ∧
      (shadowPolicyMap shadow).get? "logMismatches" = shadow.logMismatches.map Json.bool ∧
      (shadowPolicyMap shadow).get? "mismatchLogging" =
        shadow.mismatchLogging.map mismatchLoggingMap := by
  simp [shadowPolicyMap, Members.get?_insert?]

/-- The leaves that the static policy is expanded into. -/
def baseLeaves (policy : StaticPolicy) : MismatchLeaves :=
  groupLeaves (objectAt (staticPolicyMap (PolicyPorts.Go.policy policy)) "shadow")

theorem group_staticPolicyMap :
    let shadow := objectAt (staticPolicyMap (PolicyPorts.Go.policy policy)) "shadow"
    shadow.get? "ramp" = (policy.shadow.bind (·.ramp)).map Json.number ∧
      objectOrAbsent (shadow.get? "mismatchLogging") = true ∧
      groupLeaves shadow = ⟨staticLeaf policy .mismatchValue, staticLeaf policy .mismatchDiff, false⟩ := by
  intro shadow
  obtain ⟨_, _, _, _, _, _, hshadow⟩ := get?_staticPolicyMap policy
  have hobject : shadow = (((policy.shadow.map fun shadow => (⟨shadow.ramp, shadow.logMismatches,
      shadow.mismatchLogging.map fun group => ⟨group.value, group.diff.map levelText⟩⟩ :
        ShadowPolicy)).map shadowPolicyMap)).getD [] := by
    change Option.getD _ _ = _
    rw [hshadow]
    change Option.getD (Option.bind (Option.map _ (policy.shadow.map _)) _) _ = _
    cases policy.shadow <;> rfl
  rw [hobject, staticLeaf, staticLeaf]
  cases policy.shadow with
  | none => exact ⟨rfl, rfl, rfl⟩
  | some shadow =>
    simp only [Option.map_some, Option.getD_some, Option.bind_some, groupLeaves, get?_shadowPolicyMap,
      malformedShorthand_bool, true_and]
    cases shadow.mismatchLogging with
    | none => exact ⟨rfl, rfl⟩
    | some group =>
      simp only [Option.map_some, Option.bind_some, mismatchLoggingMap, Json.get?, Json.asObject?,
        get?_group, Option.map_map]
      exact ⟨rfl, rfl⟩

theorem heldLeaf_static (leaf : PolicyLeaf) :
    heldLeaf (staticPolicyMap (PolicyPorts.Go.policy policy), baseLeaves policy) leaf =
      withDefaults (staticLeaf policy) leaf := by
  obtain ⟨httlSec, hramp, hrequestLocal, hcoalesce, hage, htimeout, _⟩ := get?_staticPolicyMap policy
  obtain ⟨hshadowRamp, _, hgroup⟩ := group_staticPolicyMap policy
  cases leaf with
  | ttlSec layer =>
    change ((staticPolicyMap _).get? "ttlSec").bind _ = _
    rw [httlSec]
    refine (get?_layerPair _ _ layer).trans ?_
    cases layer <;> rfl
  | ramp layer =>
    change ((staticPolicyMap _).get? "ramp").bind _ = _
    rw [hramp]
    refine (get?_layerPair _ _ layer).trans ?_
    cases layer <;> rfl
  | requestLocal => exact hrequestLocal
  | coalesce => exact hcoalesce
  | staleOnErrorMaxAgeSec => exact hage
  | remoteReadTimeoutMs => exact htimeout
  | shadowRamp => exact (get?_objectAt _ _ _).symm.trans hshadowRamp
  | mismatchValue => exact congrArg MismatchLeaves.value hgroup
  | mismatchDiff => exact congrArg MismatchLeaves.diff hgroup

theorem expand_static :
    expandMismatchLogging (objectAt (staticPolicyMap (PolicyPorts.Go.policy policy)) "shadow") =
      .ok (baseLeaves policy) :=
  expandMismatchLogging_eq_ok.mpr ⟨(group_staticPolicyMap policy).2.1, rfl⟩

theorem levelOf_levelText (level : ShadowMismatchDiffLevel) : levelOf (levelText level) = some level := by
  cases level <;> decide

theorem validatePolicy_policy : validatePolicy (PolicyPorts.Go.policy policy) = .ok () := by
  have httl : ∀ {ttl : Option ℕ}, (∀ n, ttl = some n → 0 < n ∧ n ≤ maxCacheTtlSec) →
      invalidTTL ((ttl.getD 0 : ℕ) * second) = false := by
    intro ttl h
    have hle : ttl.getD 0 ≤ 31536000 := by
      cases ttl with
      | none => exact Nat.zero_le _
      | some n => exact (h n rfl).2
    rw [invalidTTL, decide_eq_false_iff_not, maxSupportedDuration, millisecond, second]
    omega
  have hramp : ∀ {ramp : Option ℚ}, (∀ percentage, ramp = some percentage → 0 ≤ percentage ∧
      percentage ≤ 100) → invalidRamp ramp = false := by
    intro ramp h
    rw [invalidRamp, Option.any_eq_false]
    intro percentage hsome
    simp [h percentage hsome]
  have hage : (PolicyPorts.Go.policy policy).staleOnErrorMaxAge.any (fun age => invalidTTL age ||
      (decide (0 < age) && (decide ((PolicyPorts.Go.policy policy).remoteTTL = 0) ||
        decide (age ≤ (PolicyPorts.Go.policy policy).remoteTTL)))) = false := by
    rw [Option.any_eq_false]
    intro age hsome
    obtain ⟨n, hn, rfl⟩ := Option.map_eq_some_iff.mp hsome
    by_cases hpos : 0 < n
    · obtain ⟨hle, seconds, hremote, hlt⟩ := policy.maxAge_range n hn hpos
      have hseconds := (policy.remoteTtl_range seconds hremote).1
      have hbound : n ≤ 31536000 := hle
      have hinvalid : invalidTTL ((n : ℤ) * second) = false := by
        rw [invalidTTL, decide_eq_false_iff_not, maxSupportedDuration, millisecond, second]
        omega
      have hremoteTTL : (PolicyPorts.Go.policy policy).remoteTTL = (seconds : ℤ) * second := by
        change ((policy.remoteTtlSec.getD 0 : ℕ) : ℤ) * second = _
        rw [hremote]
        rfl
      have hexceeds : ¬ (n : ℤ) * second ≤ (seconds : ℤ) * second := by
        rw [second]
        omega
      have hset : ¬ (seconds : ℤ) * second = 0 := by
        rw [second]
        omega
      simp [hinvalid, hremoteTTL, hexceeds, hset]
    · obtain rfl := Nat.eq_zero_of_not_pos hpos
      simp [invalidTTL, maxSupportedDuration, millisecond, second]
  have htimeout : (PolicyPorts.Go.policy policy).remoteReadTimeout.any (fun timeout =>
      decide (timeout ≤ 0) || decide (maxDeadline < timeout) ||
        decide (timeout % millisecond ≠ 0)) = false := by
    rw [Option.any_eq_false]
    intro timeout hsome
    obtain ⟨ms, hms, rfl⟩ := Option.map_eq_some_iff.mp hsome
    obtain ⟨hpos, hle⟩ := policy.timeout_range ms hms
    have hbound : ms ≤ 2147483647 := hle
    have hrange : ¬ (ms : ℤ) * millisecond ≤ 0 ∧ ¬ maxDeadline < (ms : ℤ) * millisecond ∧
        (ms : ℤ) * millisecond % millisecond = 0 := by
      rw [maxDeadline, millisecond]
      omega
    simp [hrange]
  have hshadow : invalidRamp ((PolicyPorts.Go.policy policy).shadow.bind (·.ramp)) = false := by
    change invalidRamp ((policy.shadow.map _).bind _) = false
    cases hcase : policy.shadow with
    | none => rfl
    | some shadow => exact hramp shadow.ramp_range
  have hdiff : (((PolicyPorts.Go.policy policy).shadow.bind (·.mismatchLogging)).bind (·.diff)).any
      (fun level => (levelOf level).isNone) = false := by
    rw [Option.any_eq_false]
    intro spelling hsome
    change (((policy.shadow.map _).bind _).bind _) = some spelling at hsome
    cases hcase : policy.shadow with
    | none =>
      rw [hcase] at hsome
      cases hsome
    | some shadow =>
      rw [hcase] at hsome
      change ((shadow.mismatchLogging.map _).bind _) = some spelling at hsome
      cases hgroup : shadow.mismatchLogging with
      | none =>
        rw [hgroup] at hsome
        cases hsome
      | some group =>
        rw [hgroup] at hsome
        obtain ⟨level, _, rfl⟩ := Option.map_eq_some_iff.mp hsome
        rw [levelOf_levelText]
        rfl
  have hlocal : invalidTTL (PolicyPorts.Go.policy policy).localTTL = false := httl policy.localTtl_range
  have hremote : invalidTTL (PolicyPorts.Go.policy policy).remoteTTL = false :=
    httl policy.remoteTtl_range
  have hlocalRamp : invalidRamp (PolicyPorts.Go.policy policy).localRamp = false :=
    hramp policy.localRamp_range
  have hremoteRamp : invalidRamp (PolicyPorts.Go.policy policy).remoteRamp = false :=
    hramp policy.remoteRamp_range
  simp only [validatePolicy, hlocal, hremote, hlocalRamp, hremoteRamp, hage, htimeout, hshadow, hdiff,
    Bool.or_false, Bool.false_eq_true, if_false]

/-! ### The invocation's policy -/

/-- What is done with merged members. -/
def resolveMembers (held : Members × MismatchLeaves) (key : Text) (inherited : ℕ) :
    Except String ResolvedPolicy := do
  let requestLocal ← flag held.1 "requestLocal"
  let coalesce ← flag held.1 "coalesce"
  let remoteReadTimeout ← deadline held.1 (inherited * millisecond)
  let onLocal := resolveLayer (objectAt held.1 "ttlSec") (objectAt held.1 "ramp") (encodeUtf8 key) "local"
  let onRemote :=
    resolveLayer (objectAt held.1 "ttlSec") (objectAt held.1 "ramp") (encodeUtf8 key) "remote"
  let recovery := resolveRecovery held.1 onRemote
  return ⟨requestLocal, coalesce, onLocal, onRemote, remoteReadTimeout, recovery.1, recovery.2,
    resolveShadow held.1 held.2 (encodeUtf8 key)⟩

theorem resolvePolicy_eq (overlay : Option Json) (key : Text) {instanceTimeoutMs : ℕ}
    (h : 0 < instanceTimeoutMs ∧ instanceTimeoutMs ≤ maxTimerDelayMs) :
    PolicyPorts.Go.resolvePolicy (PolicyPorts.Go.policy policy) overlay (encodeUtf8 key)
        (instanceTimeoutMs * millisecond) =
      applyOverlay (staticPolicyMap (PolicyPorts.Go.policy policy)) (baseLeaves policy) overlay >>=
        fun held => resolveMembers held key instanceTimeoutMs := by
  have hbound : instanceTimeoutMs ≤ 2147483647 := h.2
  have hne : ¬ (instanceTimeoutMs : ℤ) * millisecond = 0 := by
    rw [millisecond]
    omega
  have hvalid : ¬ ((instanceTimeoutMs : ℤ) * millisecond ≤ 0 ∨
      maxDeadline < (instanceTimeoutMs : ℤ) * millisecond) := by
    rw [maxDeadline, millisecond]
    omega
  rw [PolicyPorts.Go.resolvePolicy, validatePolicy_policy]
  simp only [hne, if_false, hvalid, KeyAgreement.ok_bind, expand_static]
  rfl

theorem result_of_resolveMembers {key : Text} {resolved : ResolvedPolicy}
    (h : resolveMembers held key inherited = .ok resolved) :
    Settled (heldLeaf held) ∧
      result resolved = resolveLeaves (heldLeaf held) held.2.invalid key inherited := by
  obtain ⟨requestLocal, hrequestLocal, h⟩ := bind_eq_ok.mp h
  obtain ⟨coalesce, hcoalesce, h⟩ := bind_eq_ok.mp h
  obtain ⟨timeout, hdeadline, h⟩ := bind_eq_ok.mp h
  obtain rfl := Except.ok.inj h
  constructor
  · exact ⟨Option.isSome_of_eq_some (flag_eq_ok.mp hrequestLocal),
      Option.isSome_of_eq_some (flag_eq_ok.mp hcoalesce), (deadline_eq_ok.mp hdeadline).1⟩
  · exact result_of_members hrequestLocal hcoalesce hdeadline key

theorem resolveMembers_of_settled (h : Settled (heldLeaf held)) (key : Text) (inherited : ℕ) :
    ∃ resolved, resolveMembers held key inherited = .ok resolved := by
  obtain ⟨requestLocal, hrequestLocal⟩ := Option.isSome_iff_exists.mp h.requestLocal
  obtain ⟨coalesce, hcoalesce⟩ := Option.isSome_iff_exists.mp h.coalesce
  exact ⟨_, bind_eq_ok.mpr ⟨requestLocal, flag_eq_ok.mpr hrequestLocal, bind_eq_ok.mpr ⟨coalesce,
    flag_eq_ok.mpr hcoalesce, bind_eq_ok.mpr ⟨_, deadline_eq_ok.mpr ⟨h.remoteReadTimeoutMs, rfl⟩,
      rfl⟩⟩⟩⟩

theorem invalid_overlaidMembers (merged overlay : Members) :
    (overlaidMembers merged overlay (baseLeaves policy)).2.invalid = malformedOverlay (.object overlay) := by
  have hvalid : (baseLeaves policy).invalid = false :=
    congrArg MismatchLeaves.invalid (group_staticPolicyMap policy).2.2
  exact (logging_shadowed _ overlay (baseLeaves policy)).2.2 hvalid

end Go

/-- The Go resolution of an overlay over a static policy. -/
theorem go_resolves (overlay : Option Json) (key : Text) {instanceTimeoutMs : ℕ}
    (h : 0 < instanceTimeoutMs ∧ instanceTimeoutMs ≤ maxTimerDelayMs) :
    (PolicyPorts.Go.resolvePolicy (PolicyPorts.Go.policy policy) overlay (encodeUtf8 key)
        (instanceTimeoutMs * PolicyPorts.Go.millisecond)).toOption.map Go.result =
      resolvePolicy policy overlay key instanceTimeoutMs := by
  rw [Go.resolvePolicy_eq policy overlay key h]
  have hport : MemberPort policy key instanceTimeoutMs Go.heldLeaf (·.2.invalid)
      (PolicyPorts.Go.staticPolicyMap (PolicyPorts.Go.policy policy), Go.baseLeaves policy)
      (fun members => Go.overlaidMembers (PolicyPorts.Go.staticPolicyMap (PolicyPorts.Go.policy policy))
        members (Go.baseLeaves policy))
      (PolicyPorts.Go.mergeOverlay (PolicyPorts.Go.staticPolicyMap (PolicyPorts.Go.policy policy))
        (Go.baseLeaves policy))
      (fun held => Go.resolveMembers held key instanceTimeoutMs) Go.result :=
    { base_leaf := funext (Go.heldLeaf_static policy)
      base_malformed := congrArg PolicyPorts.MismatchLeaves.invalid (Go.group_staticPolicyMap policy).2.2
      overlaid_leaf := fun members => Go.heldLeaf_overlaidMembers _ members (Go.baseLeaves policy)
      overlaid_malformed := Go.invalid_overlaidMembers policy _
      merge_eq_ok := Go.mergeOverlay_eq_ok
      resolved := Go.result_of_resolveMembers
      resolves := fun h => Go.resolveMembers_of_settled h key instanceTimeoutMs }
  refine hport.resolves_overlay rfl rfl fun reply hne => ?_
  cases reply with
  | null => exact absurd rfl hne
  | _ => rfl

end DialCache.PolicyLeaves
