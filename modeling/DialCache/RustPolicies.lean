import Mathlib.Data.List.ReduceOption
import DialCache.MemberPolicies

/-!
# Policy resolution in Rust

The members that a merge leaves hold the overlay's leaves over the static ones, and they resolve
as the portable definition resolves the leaves.
-/

namespace DialCache.PolicyLeaves

open UnicodeText JsonValues PortableKeys PolicyOverlays PolicyPorts RolloutCohorts
open RuntimeConfig (CacheLayer DisabledReason ShadowMismatchDiffLevel maxCacheTtlSec maxTimerDelayMs)

namespace Rust

open PolicyPorts.Rust

variable {merged merged' : Members} {name : String}

theorem mergeLayers_eq_ok {overlay : Members} :
    mergeLayers merged overlay name = .ok merged' ↔
      objectOrAbsent (overlay.get? name) = true ∧ layered merged overlay name = merged' := by
  rw [mergeLayers, layered]
  cases overlay.get? name with
  | none => simp [objectOrAbsent]
  | some incoming =>
    cases incoming with
    | object incoming =>
      simp [objectOrAbsent, Json.asObject?, policyObject, KeyAgreement.ok_bind, pure, Except.pure]
    | _ => simp [objectOrAbsent, Json.asObject?, policyObject, bind, Except.bind]

/-- What a shadow group writes for its mismatch leaves. -/
theorem expandMismatchLogging_eq (shadow : Members) :
    expandMismatchLogging shadow =
      ⟨groupValue (shadow.get? "logMismatches")
          ((shadow.get? "mismatchLogging").bind (·.get? "value")),
        groupDiff (shadow.get? "logMismatches")
          ((shadow.get? "mismatchLogging").bind (·.get? "diff")),
        malformedShorthand (shadow.get? "logMismatches")⟩ := by
  rw [expandMismatchLogging, shorthandLeaves_eq]
  cases shadow.get? "mismatchLogging" with
  | none => rfl
  | some group => cases group <;> rfl

/-- The members after the overlay's shadow group was merged. -/
def shadowed (merged overlay : Members) : Members :=
  match (overlay.get? "shadow").bind Json.asObject? with
  | none => merged
  | some incoming =>
    merged.insert "shadow" (.object
      (mergedShadow (((merged.get? "shadow").bind Json.asObject?).getD []) incoming))

theorem mergeShadowGroup_eq_ok {overlay : Members} :
    mergeShadowGroup merged overlay = .ok merged' ↔
      (objectOrAbsent (overlay.get? "shadow") = true ∧
        objectOrAbsent ((overlay.get? "shadow").bind (·.get? "mismatchLogging")) = true) ∧
        shadowed merged overlay = merged' := by
  rw [mergeShadowGroup, shadowed]
  cases overlay.get? "shadow" with
  | none => simp [objectOrAbsent]
  | some incoming =>
    cases incoming with
    | object incoming =>
      change (do
          let output ← mergeShadow (((merged.get? "shadow").bind Json.asObject?).getD []) incoming
          pure (merged.insert "shadow" (.object output))) = Except.ok merged' ↔
        (true = true ∧ objectOrAbsent (Members.get? incoming "mismatchLogging") = true) ∧ _
      rw [mergeShadow, checkMismatchLogging]
      cases Members.get? incoming "mismatchLogging" with
      | none => simp [objectOrAbsent, Except.map, bind, Except.bind, pure, Except.pure, Json.asObject?]
      | some group =>
        cases group <;>
          simp [objectOrAbsent, Json.asObject?, policyObject, Except.map, bind, Except.bind, pure,
            Except.pure]
    | _ => simp [objectOrAbsent, Json.asObject?, policyObject, bind, Except.bind]

/-- The members of a successful merge. -/
def overlaidMembers (merged overlay : Members) : Members :=
  scalars (shadowed (layers merged overlay) overlay) overlay

theorem mergeOverlay_eq_ok {overlay : Json} :
    mergeOverlay merged overlay = .ok merged' ↔
      Shaped overlay ∧ overlaidMembers merged (overlay.asObject?.getD []) = merged' := by
  cases overlay with
  | object members =>
    rw [mergeOverlay]
    constructor
    · intro h
      obtain ⟨overlay, hshape, h⟩ := bind_eq_ok.mp h
      obtain rfl := Except.ok.inj hshape
      obtain ⟨_, hrenamed, h⟩ := bind_eq_ok.mp h
      obtain ⟨_, httlSec, h⟩ := bind_eq_ok.mp h
      obtain ⟨_, hramp, h⟩ := bind_eq_ok.mp h
      obtain ⟨_, hshadow, h⟩ := bind_eq_ok.mp h
      obtain ⟨hisTtl, rfl⟩ := mergeLayers_eq_ok.mp httlSec
      obtain ⟨hisRamp, rfl⟩ := mergeLayers_eq_ok.mp hramp
      obtain ⟨⟨hisShadow, hisLogging⟩, rfl⟩ := mergeShadowGroup_eq_ok.mp hshadow
      have hnone : Members.get? members "shadowRamp" = none := by
        rw [rejectShadowRamp] at hrenamed
        split at hrenamed
        · cases hrenamed
        · rename_i hnot
          exact Option.not_isSome_iff_eq_none.mp hnot
      exact ⟨⟨rfl, hnone, hisTtl, hisRamp, hisShadow, hisLogging⟩, Except.ok.inj h⟩
    · intro h
      obtain ⟨⟨_, hrenamed, hisTtl, hisRamp, hisShadow, hisLogging⟩, rfl⟩ := h
      have hreject : rejectShadowRamp members = .ok () := by
        rw [rejectShadowRamp, show Members.get? members "shadowRamp" = none from hrenamed]
        rfl
      apply bind_eq_ok.mpr
      refine ⟨members, rfl, bind_eq_ok.mpr ⟨(), hreject, bind_eq_ok.mpr ⟨_,
        mergeLayers_eq_ok.mpr ⟨hisTtl, rfl⟩, bind_eq_ok.mpr ⟨_, mergeLayers_eq_ok.mpr ⟨hisRamp, rfl⟩,
          bind_eq_ok.mpr ⟨_, mergeShadowGroup_eq_ok.mpr ⟨⟨hisShadow, hisLogging⟩, rfl⟩, rfl⟩⟩⟩⟩⟩
  | _ =>
    constructor
    · intro h
      cases h
    · intro h
      cases h.1.shape

theorem get?_shadowed_of_ne (merged overlay : Members) {other : String} (h : "shadow" ≠ other) :
    (shadowed merged overlay).get? other = merged.get? other := by
  rw [shadowed]
  cases (overlay.get? "shadow").bind Json.asObject? with
  | none => rfl
  | some incoming => exact Members.get?_insert_of_ne merged h _

theorem mergedShadow_eq (inherited incoming : Members) :
    mergedShadow inherited incoming =
      withGroup (shadowHead inherited incoming "logMismatches")
        ((expandMismatchLogging incoming).value.or (expandMismatchLogging inherited).value)
        ((expandMismatchLogging incoming).diff.or (expandMismatchLogging inherited).diff)
        "mismatchLogging" := by
  have hinvalid : (expandMismatchLogging incoming).invalid =
      malformedShorthand (incoming.get? "logMismatches") := by
    rw [expandMismatchLogging_eq]
  rw [mergedShadow, hinvalid]
  rfl

/-- The leaves of a merged shadow group. -/
theorem get?_mergedShadow (inherited incoming : Members) :
    (mergedShadow inherited incoming).get? "ramp" =
        (incoming.get? "ramp").or (inherited.get? "ramp") ∧
      (expandMismatchLogging (mergedShadow inherited incoming)).value =
        (expandMismatchLogging incoming).value.or (expandMismatchLogging inherited).value ∧
      (expandMismatchLogging (mergedShadow inherited incoming)).diff =
        (expandMismatchLogging incoming).diff.or (expandMismatchLogging inherited).diff ∧
      (expandMismatchLogging (mergedShadow inherited incoming)).invalid =
        (expandMismatchLogging incoming).invalid := by
  obtain ⟨hramp, hlog, hvalue, hdiff, -⟩ := get?_mergedGroup inherited incoming
    ((expandMismatchLogging incoming).value.or (expandMismatchLogging inherited).value)
    ((expandMismatchLogging incoming).diff.or (expandMismatchLogging inherited).diff)
    (by decide : ["ramp", "logMismatches", "mismatchLogging"].Nodup)
  rw [← mergedShadow_eq] at hramp hlog hvalue hdiff
  rw [expandMismatchLogging_eq (mergedShadow inherited incoming), hlog, hramp, hvalue, hdiff,
    expandMismatchLogging_eq incoming]
  exact ⟨rfl, groupValue_merged _ _ _, groupDiff_merged _ _ _, malformedShorthand_kept _⟩

/-- The shadow group of the merged members. -/
theorem get?_shadowed (merged overlay : Members) :
    (objectAt (shadowed merged overlay) "shadow").get? "ramp" =
        ((objectAt overlay "shadow").get? "ramp").or
          ((objectAt merged "shadow").get? "ramp") ∧
      (expandMismatchLogging (objectAt (shadowed merged overlay) "shadow")).value =
        (expandMismatchLogging (objectAt overlay "shadow")).value.or
          (expandMismatchLogging (objectAt merged "shadow")).value ∧
      (expandMismatchLogging (objectAt (shadowed merged overlay) "shadow")).diff =
        (expandMismatchLogging (objectAt overlay "shadow")).diff.or
          (expandMismatchLogging (objectAt merged "shadow")).diff ∧
      (expandMismatchLogging (objectAt (shadowed merged overlay) "shadow")).invalid =
        if (overlay.get? "shadow").bind Json.asObject? = none then
          (expandMismatchLogging (objectAt merged "shadow")).invalid
        else (expandMismatchLogging (objectAt overlay "shadow")).invalid := by
  rw [shadowed, objectAt.eq_def overlay]
  cases (overlay.get? "shadow").bind Json.asObject? with
  | none => exact ⟨rfl, rfl, rfl, rfl⟩
  | some incoming =>
    have hmerged : objectAt (merged.insert "shadow" (.object (mergedShadow
        (objectAt merged "shadow") incoming))) "shadow" =
          mergedShadow (objectAt merged "shadow") incoming := by
      rw [objectAt, Members.get?_insert_self]
      rfl
    change (objectAt (merged.insert "shadow" (.object (mergedShadow
        (objectAt merged "shadow") incoming))) "shadow").get? "ramp" = _ ∧
      (expandMismatchLogging (objectAt (merged.insert "shadow" (.object (mergedShadow
        (objectAt merged "shadow") incoming))) "shadow")).value = _ ∧
      (expandMismatchLogging (objectAt (merged.insert "shadow" (.object (mergedShadow
        (objectAt merged "shadow") incoming))) "shadow")).diff = _ ∧
      (expandMismatchLogging (objectAt (merged.insert "shadow" (.object (mergedShadow
        (objectAt merged "shadow") incoming))) "shadow")).invalid = _
    rw [hmerged]
    exact get?_mergedShadow (objectAt merged "shadow") incoming

/-- The leaves of the shadow group that members hold. -/
theorem writtenLeaf_group (members : Members) :
    writtenLeaf (.object members) .shadowRamp = (objectAt members "shadow").get? "ramp" ∧
      writtenLeaf (.object members) .mismatchValue =
        (expandMismatchLogging (objectAt members "shadow")).value ∧
      writtenLeaf (.object members) .mismatchDiff =
        (expandMismatchLogging (objectAt members "shadow")).diff ∧
      malformedOverlay (.object members) =
        (expandMismatchLogging (objectAt members "shadow")).invalid := by
  have hget := fun leaf => get?_objectAt members "shadow" leaf
  rw [expandMismatchLogging_eq, objectAt, hget, hget, hget]
  exact ⟨rfl, rfl, rfl, rfl⟩

theorem objectAt_overlaidMembers (merged overlay : Members) :
    objectAt (overlaidMembers merged overlay) "shadow" =
        objectAt (shadowed (layers merged overlay) overlay) "shadow" ∧
      objectAt (layers merged overlay) "shadow" = objectAt merged "shadow" := by
  simp only [objectAt, overlaidMembers, get?_shadow_scalars, get?_shadow_layers, and_self]

/-- Every leaf of the merged members is the overlay's where the overlay writes it, and the
static one otherwise. -/
theorem writtenLeaf_overlaidMembers (merged overlay : Members) (leaf : PolicyLeaf) :
    writtenLeaf (.object (overlaidMembers merged overlay)) leaf =
      (writtenLeaf (.object overlay) leaf).or (writtenLeaf (.object merged) leaf) := by
  obtain ⟨hgroup, hinherited⟩ := objectAt_overlaidMembers merged overlay
  cases leaf with
  | shadowRamp =>
    rw [(writtenLeaf_group _).1, (writtenLeaf_group _).1, (writtenLeaf_group _).1, hgroup,
      (get?_shadowed _ _).1, hinherited]
  | mismatchValue =>
    rw [(writtenLeaf_group _).2.1, (writtenLeaf_group _).2.1, (writtenLeaf_group _).2.1, hgroup,
      (get?_shadowed _ _).2.1, hinherited]
  | mismatchDiff =>
    rw [(writtenLeaf_group _).2.2.1, (writtenLeaf_group _).2.2.1, (writtenLeaf_group _).2.2.1, hgroup,
      (get?_shadowed _ _).2.2.1, hinherited]
  | _ => exact writtenLeaf_scalars (get?_shadowed_of_ne _ overlay) (by simp)

theorem malformedOverlay_overlaidMembers (h : malformedOverlay (.object merged) = false)
    (overlay : Members) :
    malformedOverlay (.object (overlaidMembers merged overlay)) = malformedOverlay (.object overlay) := by
  obtain ⟨hgroup, hinherited⟩ := objectAt_overlaidMembers merged overlay
  rw [(writtenLeaf_group _).2.2.2] at h
  rw [(writtenLeaf_group _).2.2.2, (writtenLeaf_group _).2.2.2, hgroup, (get?_shadowed _ _).2.2.2,
    hinherited, h, objectAt]
  cases (overlay.get? "shadow").bind Json.asObject? with
  | none => rfl
  | some incoming => rfl

theorem ttlSec_eq (value : Json) : PolicyPorts.Rust.ttlSec value = wholeNumber value maxCacheTtlSec := by
  rw [PolicyPorts.Rust.ttlSec, finiteRange_whole, Option.map_map]
  cases wholeNumber value maxCacheTtlSec with
  | none => rfl
  | some n => simp

theorem admits_eq (key : Text) (discriminator : String) {ramp : ℚ} (h0 : 0 ≤ ramp) :
    RolloutCohorts.Rust.admits ramp key discriminator.toList = sampled key discriminator ramp := by
  rw [Bool.eq_iff_iff, (cohortsAgree key discriminator.toList).rust ramp h0, sampled_iff]

/-- One layer of this port's result. -/
def layerResult (layer : ResolvedLayer) : LayerOutcome :=
  ⟨layer.enabled, layer.reason, if layer.configured then some (layer.ttlMs / 1000) else none⟩

theorem resolveLayer_eq (ttls ramps : Members) (key : Text) (layer : String) :
    layerResult (resolveLayer ttls ramps key layer) =
      layerSpec (ttls.get? layer) (ramps.get? layer) (sampled key layer) := by
  rw [resolveLayer, configuredRamp_eq]
  cases ttls.get? layer with
  | none => rfl
  | some ttl =>
    simp only [layerSpec, ttlSec_eq]
    cases hwhole : wholeNumber ttl maxCacheTtlSec with
    | none => rfl
    | some seconds =>
      cases hramp : rampSpec (ramps.get? layer) with
      | none => rfl
      | some ramp =>
        simp only [Option.map_some, admits_eq key layer (rampSpec_nonneg hramp)]
        cases sampled key layer ramp with
        | false => simp [layerResult]
        | true => simp [layerResult]

/-- A configured layer has a TTL of whole seconds. -/
theorem resolveLayer_ttlMs (ttls ramps : Members) (key : Text) (layer : String) :
    ∃ seconds, (resolveLayer ttls ramps key layer).ttlMs = seconds * 1000 := by
  rw [resolveLayer]
  cases ttls.get? layer with
  | none => exact ⟨0, rfl⟩
  | some ttl =>
    simp only
    cases PolicyPorts.Rust.ttlSec ttl with
    | none => exact ⟨0, rfl⟩
    | some seconds =>
      simp only [Option.map_some]
      cases configuredRamp (ramps.get? layer) with
      | none => exact ⟨0, rfl⟩
      | some ramp => exact ⟨seconds, rfl⟩

/-- A recovery age of this port in seconds; zero is off. -/
def recoveryResult (recovery : ℕ × Bool) : Option ℕ × Bool :=
  (if recovery.1 = 0 then none else some (recovery.1 / 1000), recovery.2)

theorem resolveRecovery_eq (merged : Members) {remote : ResolvedLayer}
    (hremote : ∃ seconds, remote.ttlMs = seconds * 1000) :
    recoveryResult (resolveRecovery merged remote) =
      recoverySpec (merged.get? "staleOnErrorMaxAgeSec") (layerResult remote) := by
  obtain ⟨ttlSec, httl⟩ := hremote
  rw [resolveRecovery]
  cases merged.get? "staleOnErrorMaxAgeSec" with
  | none => rfl
  | some age =>
    simp only [recoverySpec, layerResult, ttlSec_eq]
    by_cases hzero : age.asNumber? = some 0
    · cases remote.configured with
      | false | true => simp [hzero, recoveryResult]
    · cases remote.configured with
      | false =>
        by_cases hreason : remote.reason = some .policyDisabled
        · simp [hzero, hreason, recoveryResult]
        · simp [hreason, recoveryResult]
      | true =>
        simp only [hzero, Bool.not_true, Bool.false_eq_true, if_false, if_true, httl,
          Nat.mul_div_cancel _ (show 0 < 1000 by decide)]
        cases hwhole : wholeNumber age maxCacheTtlSec with
        | none => rfl
        | some seconds =>
          have hpos := wholeNumber_pos hwhole
          simp only [Option.map_some]
          by_cases hlt : ttlSec < seconds
          · have hms : ttlSec * 1000 < seconds * 1000 := by omega
            have hne : seconds * 1000 ≠ 0 := by omega
            simp [recoveryResult, hlt, hms, hne]
          · have hms : ¬ ttlSec * 1000 < seconds * 1000 := by omega
            simp [recoveryResult, hlt, hms]

theorem resolveMismatchLogging_eq (shadow : Members) :
    resolveMismatchLogging shadow =
      ⟨(valueSpec (expandMismatchLogging shadow).value).getD false,
        (diffSpec (expandMismatchLogging shadow).diff).getD .off,
        (expandMismatchLogging shadow).invalid || (valueSpec (expandMismatchLogging shadow).value).isNone ||
          (diffSpec (expandMismatchLogging shadow).diff).isNone⟩ := by
  rw [resolveMismatchLogging]
  cases (expandMismatchLogging shadow).value with
  | none | some value => cases (expandMismatchLogging shadow).diff <;> rfl

/-- The shadow group that members resolve to. -/
theorem resolveShadow_eq (merged : Members) (key : Text) :
    ((resolveShadow merged key).enabled, (resolveShadow merged key).configError) =
        shadowSpec (writtenLeaf (.object merged) .shadowRamp) (sampled key "shadow") ∧
      (resolveShadow merged key).mismatchValue =
        (valueSpec (writtenLeaf (.object merged) .mismatchValue)).getD false ∧
      (resolveShadow merged key).mismatchDiff =
        (diffSpec (writtenLeaf (.object merged) .mismatchDiff)).getD .off ∧
      (resolveShadow merged key).loggingConfigError =
        (malformedOverlay (.object merged) ||
          (valueSpec (writtenLeaf (.object merged) .mismatchValue)).isNone ||
          (diffSpec (writtenLeaf (.object merged) .mismatchDiff)).isNone) := by
  obtain ⟨hramp, hvalue, hdiff, hmalformed⟩ := writtenLeaf_group merged
  rw [hramp, hvalue, hdiff, hmalformed, resolveShadow, objectAt]
  cases (merged.get? "shadow").bind Json.asObject? with
  | none => exact ⟨rfl, rfl, rfl, rfl⟩
  | some leaves =>
    simp only [Option.getD_some, resolveMismatchLogging_eq]
    cases leaves.get? "ramp" with
    | none => exact ⟨rfl, rfl, rfl, rfl⟩
    | some leaf =>
      simp only [finiteRange_percentage, shadowSpec]
      cases hpercentage : percentage leaf with
      | none => exact ⟨rfl, rfl, rfl, rfl⟩
      | some ramp =>
        simp only [admits_eq key "shadow" (percentage_range hpercentage).1, and_self]

/-- This port's result for one invocation. -/
def result (resolved : ResolvedPolicy) : Resolved where
  requestLocal := resolved.requestLocal
  coalesce := resolved.coalesce
  onLocal := layerResult resolved.onLocal
  onRemote := layerResult resolved.onRemote
  readTimeoutMs := resolved.remoteReadTimeoutMs
  staleOnErrorMaxAgeSec :=
    (recoveryResult (resolved.staleOnErrorMaxAgeMs, resolved.staleOnErrorConfigError)).1
  staleOnErrorConfigError := resolved.staleOnErrorConfigError
  shadowAdmitted := resolved.shadow.enabled
  shadowConfigError := resolved.shadow.configError
  mismatchValue := resolved.shadow.mismatchValue
  mismatchDiff := resolved.shadow.mismatchDiff
  loggingConfigError := resolved.shadow.loggingConfigError

theorem flag_eq_ok {value : Bool} :
    flag merged name = .ok value ↔ (merged.get? name).bind Json.asBool? = some value := by
  rw [flag]
  cases (merged.get? name).bind Json.asBool? with
  | none => simp
  | some flag => simp

theorem deadline_eq_ok {inherited ms : ℕ} :
    deadline merged inherited = .ok ms ↔
      deadlineOrAbsent (merged.get? "remoteReadTimeoutMs") = true ∧
        ((merged.get? "remoteReadTimeoutMs").bind
          fun leaf => wholeNumber leaf maxTimerDelayMs).getD inherited = ms := by
  rw [deadline]
  cases merged.get? "remoteReadTimeoutMs" with
  | none => simp [deadlineOrAbsent]
  | some leaf =>
    have hmax : ((maxDeadlineMs : ℕ) : ℚ) = ((maxTimerDelayMs : ℕ) : ℚ) := rfl
    simp only [hmax, finiteRange_whole, deadlineOrAbsent, Option.all_some, Option.bind_some]
    cases wholeNumber leaf maxTimerDelayMs with
    | none => simp
    | some ms => simp

/-- What the members resolve to is decided by the leaves they hold. -/
theorem result_of_members {requestLocal coalesce : Bool} {ms inherited : ℕ}
    (hrequestLocal : flag merged "requestLocal" = .ok requestLocal)
    (hcoalesce : flag merged "coalesce" = .ok coalesce)
    (hdeadline : deadline merged inherited = .ok ms) (key : Text) :
    result ⟨requestLocal, coalesce,
        resolveLayer (objectAt merged "ttlSec") (objectAt merged "ramp") key "local",
        resolveLayer (objectAt merged "ttlSec") (objectAt merged "ramp") key "remote", ms,
        (resolveRecovery merged
          (resolveLayer (objectAt merged "ttlSec") (objectAt merged "ramp") key "remote")).1,
        (resolveRecovery merged
          (resolveLayer (objectAt merged "ttlSec") (objectAt merged "ramp") key "remote")).2,
        resolveShadow merged key⟩ =
      resolveLeaves (writtenLeaf (.object merged)) (malformedOverlay (.object merged)) key inherited := by
  have hlayer := fun layer => resolveLayer_eq (objectAt merged "ttlSec") (objectAt merged "ramp") key layer
  have hleaf := fun name leaf => get?_objectAt merged name leaf
  have hrecovery := resolveRecovery_eq merged
    (resolveLayer_ttlMs (objectAt merged "ttlSec") (objectAt merged "ramp") key "remote")
  obtain ⟨hshadow, hvalue, hdiff, hlogging⟩ := resolveShadow_eq merged key
  have hlocal : layerResult (resolveLayer (objectAt merged "ttlSec") (objectAt merged "ramp") key
      "local") = layerSpec (writtenLeaf (.object merged) (.ttlSec .LOCAL))
        (writtenLeaf (.object merged) (.ramp .LOCAL)) (sampled key "local") := by
    rw [hlayer, objectAt, objectAt, hleaf, hleaf]
    rfl
  have hremote : layerResult (resolveLayer (objectAt merged "ttlSec") (objectAt merged "ramp") key
      "remote") = layerSpec (writtenLeaf (.object merged) (.ttlSec .REMOTE))
        (writtenLeaf (.object merged) (.ramp .REMOTE)) (sampled key "remote") := by
    rw [hlayer, objectAt, objectAt, hleaf, hleaf]
    rfl
  have hflag : ∀ {name value default}, flag merged name = .ok value →
      value = flagSpec (merged.get? name) default := by
    intro name value default h
    rw [flagSpec, flag_eq_ok.mp h]
    rfl
  rw [hremote] at hrecovery
  rw [result, resolveLeaves, Resolved.mk.injEq]
  exact ⟨hflag hrequestLocal, hflag hcoalesce, hlocal, hremote, (deadline_eq_ok.mp hdeadline).2.symm,
    congrArg Prod.fst hrecovery, congrArg Prod.snd hrecovery, congrArg Prod.fst hshadow,
    congrArg Prod.snd hshadow, hvalue, hdiff, hlogging⟩

/-- The leaves that a policy sets. -/
def setLeaf (policy : Policy) : PolicyLeaf → Option Json
  | .ttlSec .LOCAL => policy.localTtlSec.map natural
  | .ttlSec .REMOTE => policy.remoteTtlSec.map natural
  | .ramp .LOCAL => policy.localRamp.map Json.number
  | .ramp .REMOTE => policy.remoteRamp.map Json.number
  | .requestLocal => policy.requestLocal.map Json.bool
  | .coalesce => policy.coalesce.map Json.bool
  | .staleOnErrorMaxAgeSec => policy.staleOnErrorMaxAgeSec.map natural
  | .remoteReadTimeoutMs => policy.remoteReadTimeoutMs.map natural
  | .shadowRamp => (policy.shadow.bind (·.ramp)).map Json.number
  | .mismatchValue => groupValue ((policy.shadow.bind (·.logMismatches)).map Json.bool)
      (((policy.shadow.bind (·.mismatchLogging)).bind (·.value)).map Json.bool)
  | .mismatchDiff => groupDiff ((policy.shadow.bind (·.logMismatches)).map Json.bool)
      (((policy.shadow.bind (·.mismatchLogging)).bind (·.diff)).map fun level =>
        Json.string (levelText level))

/-- The members that a policy is resolved from. -/
def filled (policy : Policy) : Members :=
  Members.orInsert (Members.orInsert policy.members "requestLocal" (.bool false)) "coalesce"
    (.bool true)

variable (policy : Policy)

theorem get?_members :
    policy.members.get? "ttlSec" =
        some (layerObject (policy.localTtlSec.map natural) (policy.remoteTtlSec.map natural)) ∧
      policy.members.get? "ramp" =
        some (layerObject (policy.localRamp.map Json.number) (policy.remoteRamp.map Json.number)) ∧
      policy.members.get? "shadow" = policy.shadow.map (·.toJson) ∧
      policy.members.get? "shadowRamp" = none := by
  simp [Policy.members, Members.get?_insert, Members.get?_insert?]

theorem get?_filled (hrequestLocal : "requestLocal" ≠ name) (hcoalesce : "coalesce" ≠ name) :
    (filled policy).get? name = policy.members.get? name := by
  rw [filled, Members.get?_orInsert, Members.get?_orInsert, if_neg hcoalesce, if_neg hrequestLocal]

theorem get?_shadowToJson (shadow : ShadowPolicy) :
    shadow.toJson.get? "ramp" = shadow.ramp.map Json.number ∧
      shadow.toJson.get? "logMismatches" = shadow.logMismatches.map Json.bool ∧
      shadow.toJson.get? "mismatchLogging" = shadow.mismatchLogging.map (·.toJson) := by
  change Members.get? (Members.insert? (Members.insert? (Members.insert? _ _ _) _ _) _ _) _ = _ ∧
    Members.get? (Members.insert? (Members.insert? (Members.insert? _ _ _) _ _) _ _) _ = _ ∧
    Members.get? (Members.insert? (Members.insert? (Members.insert? _ _ _) _ _) _ _) _ = _
  simp [Members.get?_insert?]

/-- The shadow group of a policy. -/
theorem group_members :
    (policy.members.get? "shadow").bind (·.get? "ramp") =
        (policy.shadow.bind (·.ramp)).map Json.number ∧
      (policy.members.get? "shadow").bind (·.get? "logMismatches") =
        (policy.shadow.bind (·.logMismatches)).map Json.bool ∧
      ((policy.members.get? "shadow").bind (·.get? "mismatchLogging")).bind
          (·.get? "value") =
        ((policy.shadow.bind (·.mismatchLogging)).bind (·.value)).map Json.bool ∧
      ((policy.members.get? "shadow").bind (·.get? "mismatchLogging")).bind
          (·.get? "diff") =
        ((policy.shadow.bind (·.mismatchLogging)).bind (·.diff)).map fun level =>
          Json.string (levelText level) := by
  rw [(get?_members policy).2.2.1]
  cases policy.shadow with
  | none => exact ⟨rfl, rfl, rfl, rfl⟩
  | some shadow =>
    simp only [Option.map_some, Option.bind_some, get?_shadowToJson, true_and]
    cases shadow.mismatchLogging with
    | none => exact ⟨rfl, rfl⟩
    | some group => exact get?_group _ _

/-- A written policy holds the leaves of the policy. -/
theorem writtenLeaf_toJson (leaf : PolicyLeaf) :
    writtenLeaf policy.toJson leaf = setLeaf policy leaf := by
  obtain ⟨httlSec, hramp, -, -⟩ := get?_members policy
  obtain ⟨hshadowRamp, hlog, hvalue, hdiff⟩ := group_members policy
  have hscalar : ∀ name, policy.toJson.get? name = policy.members.get? name := fun _ => rfl
  cases leaf with
  | ttlSec layer =>
    rw [writtenLeaf, hscalar, httlSec]
    refine (get?_layerPair _ _ layer).trans ?_
    cases layer <;> rfl
  | ramp layer =>
    rw [writtenLeaf, hscalar, hramp]
    refine (get?_layerPair _ _ layer).trans ?_
    cases layer <;> rfl
  | shadowRamp => exact hshadowRamp
  | mismatchValue => exact congrArg₂ groupValue hlog hvalue
  | mismatchDiff => exact congrArg₂ groupDiff hlog hdiff
  | _ => simp [writtenLeaf, hscalar, setLeaf, Policy.members, Members.get?_insert,
      Members.get?_insert?]

theorem malformedOverlay_toJson : malformedOverlay policy.toJson = false := by
  change malformedShorthand ((policy.members.get? "shadow").bind _) = false
  rw [(group_members policy).2.1]
  exact malformedShorthand_bool _

theorem writtenLeaf_filled (leaf : PolicyLeaf) :
    writtenLeaf (.object (filled policy)) leaf = withDefaults (setLeaf policy) leaf := by
  have hkeep : ∀ {name}, "requestLocal" ≠ name → "coalesce" ≠ name →
      Json.get? (.object (filled policy)) name = policy.toJson.get? name := get?_filled policy
  have hleaf := writtenLeaf_toJson policy
  cases leaf with
  | requestLocal =>
    rw [withDefaults, ← hleaf]
    change (filled policy).get? _ = _
    rw [filled, Members.get?_orInsert, Members.get?_orInsert, if_neg (by decide), if_pos rfl]
    rfl
  | coalesce =>
    rw [withDefaults, ← hleaf]
    change (filled policy).get? _ = _
    rw [filled, Members.get?_orInsert, Members.get?_orInsert, if_pos rfl, if_neg (by decide)]
    rfl
  | _ =>
    rw [withDefaults, ← hleaf]
    · simp only [writtenLeaf, hkeep, ne_eq, String.reduceEq, not_false_eq_true]
    all_goals simp

theorem malformedOverlay_filled : malformedOverlay (.object (filled policy)) = false := by
  have hshadow : Json.get? (.object (filled policy)) "shadow" = policy.toJson.get? "shadow" :=
    get?_filled policy (by decide) (by decide)
  rw [malformedOverlay, hshadow]
  exact malformedOverlay_toJson policy

theorem setLeaf_policy (policy : StaticPolicy) (leaf : PolicyLeaf) :
    setLeaf (PolicyPorts.Rust.policy policy) leaf = staticLeaf policy leaf := by
  have hgroup : ∀ {α : Type} (f : MismatchLogging → Option α) (g : StaticMismatchLogging → Option α),
      (∀ group, f ⟨group.value, group.diff⟩ = g group) →
      ((PolicyPorts.Rust.policy policy).shadow.bind (·.mismatchLogging)).bind f =
        (policy.shadow.bind (·.mismatchLogging)).bind g := by
    intro α f g h
    rw [PolicyPorts.Rust.policy]
    cases policy.shadow with
    | none => rfl
    | some shadow =>
      change (shadow.mismatchLogging.map _).bind f = shadow.mismatchLogging.bind g
      cases shadow.mismatchLogging with
      | none => rfl
      | some group => exact h group
  have hlog : (PolicyPorts.Rust.policy policy).shadow.bind (·.logMismatches) =
      policy.shadow.bind (·.logMismatches) := by
    rw [PolicyPorts.Rust.policy]
    cases policy.shadow <;> rfl
  cases leaf with
  | ttlSec layer => cases layer <;> rfl
  | ramp layer => cases layer <;> rfl
  | shadowRamp =>
    rw [setLeaf, staticLeaf, PolicyPorts.Rust.policy]
    cases policy.shadow <;> rfl
  | mismatchValue =>
    rw [setLeaf, staticLeaf, hlog, hgroup (·.value) (·.value) fun _ => rfl]
  | mismatchDiff =>
    rw [setLeaf, staticLeaf, hlog, hgroup (·.diff) (·.diff) fun _ => rfl]
  | _ => rfl

theorem any_reduceOption_iff {α : Type} {a b : Option α} {f : α → Bool} :
    ([a, b].reduceOption).any f = false ↔
      (∀ x, a = some x → f x = false) ∧ ∀ x, b = some x → f x = false := by
  have hmem : ∀ x, x ∈ [a, b].reduceOption ↔ a = some x ∨ b = some x := by
    intro x
    rw [List.reduceOption_mem_iff, List.mem_pair, eq_comm, @eq_comm _ (some x) b]
  simp only [List.any_eq_false, hmem, Bool.not_eq_true, or_imp, forall_and]

/-- The ranges that `validate` checks. -/
structure Valid (policy : Policy) : Prop where
  localTtlSec : ∀ n, policy.localTtlSec = some n → 0 < n ∧ n ≤ maxCacheTtlSec
  remoteTtlSec : ∀ n, policy.remoteTtlSec = some n → 0 < n ∧ n ≤ maxCacheTtlSec
  localRamp : ∀ ramp, policy.localRamp = some ramp → 0 ≤ ramp ∧ ramp ≤ 100
  remoteRamp : ∀ ramp, policy.remoteRamp = some ramp → 0 ≤ ramp ∧ ramp ≤ 100
  staleOnErrorMaxAgeSec : ∀ n, policy.staleOnErrorMaxAgeSec = some n → n ≤ maxCacheTtlSec ∧
    (0 < n → ∃ seconds, policy.remoteTtlSec = some seconds ∧ 0 < seconds ∧ seconds < n)
  remoteReadTimeoutMs : ∀ n, policy.remoteReadTimeoutMs = some n → 0 < n ∧ n ≤ maxTimerDelayMs
  shadowRamp : ∀ ramp, policy.shadow.bind (·.ramp) = some ramp → 0 ≤ ramp ∧ ramp ≤ 100

theorem not_natural_iff {n max : ℕ} :
    (!(decide (1 ≤ n) && decide (n ≤ max))) = false ↔ 0 < n ∧ n ≤ max := by
  simp [Nat.succ_le_iff]

theorem not_rampInDomain_iff {ramp : ℚ} : (!rampInDomain ramp) = false ↔ 0 ≤ ramp ∧ ramp ≤ 100 := by
  simp [rampInDomain]

theorem validate_eq_ok {policy : Policy} : policy.validate = .ok () ↔ Valid policy := by
  have hage : ∀ {age : ℕ}, (decide (maxCacheTtlSec < age) || (decide (0 < age) &&
      !policy.remoteTtlSec.any fun remote => 0 < remote ∧ remote < age)) = false ↔
      age ≤ maxCacheTtlSec ∧ (0 < age → ∃ seconds, policy.remoteTtlSec = some seconds ∧
        0 < seconds ∧ seconds < age) := by
    intro age
    simp [Option.any_eq_true]
  have hok : ∀ {c : Bool} {e : PolicyError} {rest : Except PolicyError Unit},
      (if c = true then .error e else rest) = .ok () ↔ c = false ∧ rest = .ok () := by
    intro c e rest
    cases c <;> simp
  simp only [Policy.validate, hok, any_reduceOption_iff, Option.any_eq_false, not_natural_iff,
    not_rampInDomain_iff, hage, and_true]
  constructor
  · rintro ⟨⟨hlocal, hremote⟩, ⟨hlocalRamp, hremoteRamp⟩, hmaxAge, htimeout, hshadow⟩
    exact ⟨hlocal, hremote, hlocalRamp, hremoteRamp, hmaxAge, htimeout, hshadow⟩
  · intro h
    exact ⟨⟨h.localTtlSec, h.remoteTtlSec⟩, ⟨h.localRamp, h.remoteRamp⟩, h.staleOnErrorMaxAgeSec,
      h.remoteReadTimeoutMs, h.shadowRamp⟩

theorem validate_policy (policy : StaticPolicy) :
    (PolicyPorts.Rust.policy policy).validate = .ok () := by
  refine validate_eq_ok.mpr ⟨policy.localTtl_range, policy.remoteTtl_range, policy.localRamp_range,
    policy.remoteRamp_range, ?_, policy.timeout_range, ?_⟩
  · intro age hage
    by_cases hpos : 0 < age
    · obtain ⟨hle, seconds, hremote, hlt⟩ := policy.maxAge_range age hage hpos
      exact ⟨hle, fun _ => ⟨seconds, hremote, (policy.remoteTtl_range seconds hremote).1, hlt⟩⟩
    · exact ⟨(Nat.not_lt.mp hpos).trans (Nat.zero_le _), fun h => absurd h hpos⟩
  · intro ramp hramp
    obtain ⟨shadow, hshadow, hramp⟩ := Option.bind_eq_some_iff.mp hramp
    obtain ⟨static, hstatic, rfl⟩ := Option.map_eq_some_iff.mp hshadow
    exact static.ramp_range ramp hramp

/-- What is done with merged members. -/
def resolveMembers (merged : Members) (key : Text) (inherited : ℕ) :
    Except PolicyError ResolvedPolicy := do
  let requestLocal ← flag merged "requestLocal"
  let coalesce ← flag merged "coalesce"
  let remoteReadTimeoutMs ← deadline merged inherited
  let onLocal := resolveLayer (objectAt merged "ttlSec") (objectAt merged "ramp") key "local"
  let onRemote := resolveLayer (objectAt merged "ttlSec") (objectAt merged "ramp") key "remote"
  let recovery := resolveRecovery merged onRemote
  return ⟨requestLocal, coalesce, onLocal, onRemote, remoteReadTimeoutMs, recovery.1, recovery.2,
    resolveShadow merged key⟩

theorem resolvePolicy_of_valid {policy : Policy} (h : policy.validate = .ok ())
    (overlay : Option Json) (key : Text) (instanceReadTimeoutMs : ℕ) :
    PolicyPorts.Rust.resolvePolicy policy overlay key instanceReadTimeoutMs =
      let timeout := if instanceReadTimeoutMs = 0 then defaultRemoteReadTimeoutMs
        else instanceReadTimeoutMs
      if maxDeadlineMs < timeout then .error ⟨"invalid instance read deadline"⟩
      else applyOverlay (filled policy) overlay >>= fun merged => resolveMembers merged key timeout := by
  rw [PolicyPorts.Rust.resolvePolicy, h]
  rfl

theorem result_of_resolveMembers {key : Text} {inherited : ℕ} {resolved : ResolvedPolicy}
    (h : resolveMembers merged key inherited = .ok resolved) :
    Settled (writtenLeaf (.object merged)) ∧ result resolved =
      resolveLeaves (writtenLeaf (.object merged)) (malformedOverlay (.object merged)) key inherited := by
  obtain ⟨requestLocal, hrequestLocal, h⟩ := bind_eq_ok.mp h
  obtain ⟨coalesce, hcoalesce, h⟩ := bind_eq_ok.mp h
  obtain ⟨ms, hdeadline, h⟩ := bind_eq_ok.mp h
  obtain rfl := Except.ok.inj h
  constructor
  · exact ⟨Option.isSome_of_eq_some (flag_eq_ok.mp hrequestLocal),
      Option.isSome_of_eq_some (flag_eq_ok.mp hcoalesce), (deadline_eq_ok.mp hdeadline).1⟩
  · exact result_of_members hrequestLocal hcoalesce hdeadline key

theorem resolveMembers_of_settled (h : Settled (writtenLeaf (.object merged))) (key : Text)
    (inherited : ℕ) : ∃ resolved, resolveMembers merged key inherited = .ok resolved := by
  obtain ⟨requestLocal, hrequestLocal⟩ := Option.isSome_iff_exists.mp h.requestLocal
  obtain ⟨coalesce, hcoalesce⟩ := Option.isSome_iff_exists.mp h.coalesce
  exact ⟨_, bind_eq_ok.mpr ⟨requestLocal, flag_eq_ok.mpr hrequestLocal, bind_eq_ok.mpr ⟨coalesce,
    flag_eq_ok.mpr hcoalesce, bind_eq_ok.mpr ⟨_, deadline_eq_ok.mpr ⟨h.remoteReadTimeoutMs, rfl⟩,
      rfl⟩⟩⟩⟩

end Rust

/-- The Rust resolution of an overlay over a static policy. -/
theorem rust_resolves (policy : StaticPolicy) (overlay : Option Json) (key : Text)
    {instanceTimeoutMs : ℕ} (h : 0 < instanceTimeoutMs ∧ instanceTimeoutMs ≤ maxTimerDelayMs) :
    (PolicyPorts.Rust.resolvePolicy (PolicyPorts.Rust.policy policy) overlay key
        instanceTimeoutMs).toOption.map Rust.result =
      resolvePolicy policy overlay key instanceTimeoutMs := by
  have hle : ¬ PolicyPorts.Rust.maxDeadlineMs < instanceTimeoutMs := Nat.not_lt.mpr h.2
  rw [Rust.resolvePolicy_of_valid (Rust.validate_policy policy)]
  simp only [Nat.pos_iff_ne_zero.mp h.1, if_false, hle]
  have hleaf : Rust.setLeaf (PolicyPorts.Rust.policy policy) = staticLeaf policy :=
    funext (Rust.setLeaf_policy policy)
  have hport : MemberPort policy key instanceTimeoutMs (fun merged => writtenLeaf (.object merged))
      (fun merged => malformedOverlay (.object merged)) (Rust.filled (PolicyPorts.Rust.policy policy))
      (Rust.overlaidMembers (Rust.filled (PolicyPorts.Rust.policy policy)))
      (PolicyPorts.Rust.mergeOverlay (Rust.filled (PolicyPorts.Rust.policy policy)))
      (fun merged => Rust.resolveMembers merged key instanceTimeoutMs) Rust.result :=
    { base_leaf := hleaf ▸ funext (Rust.writtenLeaf_filled _)
      base_malformed := Rust.malformedOverlay_filled _
      overlaid_leaf := Rust.writtenLeaf_overlaidMembers _
      overlaid_malformed := Rust.malformedOverlay_overlaidMembers (Rust.malformedOverlay_filled _)
      merge_eq_ok := Rust.mergeOverlay_eq_ok
      resolved := Rust.result_of_resolveMembers
      resolves := fun h => Rust.resolveMembers_of_settled h key instanceTimeoutMs }
  refine hport.resolves_overlay rfl rfl fun reply hne => ?_
  cases reply with
  | null => exact absurd rfl hne
  | _ => rfl

end DialCache.PolicyLeaves
