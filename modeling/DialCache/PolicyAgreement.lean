import DialCache.RustPolicies
import DialCache.GoPolicies
import DialCache.PythonPolicies
import DialCache.StaticDefaults

/-!
# Agreement of the ports on policies

Every port accepts a statically valid policy, and all four resolve every overlay over it alike.
The overlay that disables a policy leaves nothing of an inherited one in use.
-/

namespace DialCache.PolicyLeaves

open UnicodeText JsValues JsonValues PortableKeys PolicyOverlays PolicyPorts RolloutCohorts
open CacheKeys CacheOperations CacheTraversal ShadowValidation AsyncPrograms
open StaticDefaults (checkDefaultTtl_eq_ok checkDefaultRamp_eq_ok checkDefaultMaxAge_eq_ok exceeds_iff
  checkDefaultShadow_some checkDefaultMismatchLogging_eq_ok snapshotDefaultConfig_eq_ok)
open RuntimeConfig (CacheLayer DisabledReason ShadowMismatchDiffLevel DialCacheKeyConfig ConfigError
  LayerConfig DeadlineMs deadlineMs mergeKeyConfig overlayShadowConfig percentage? maxCacheTtlSec
  maxTimerDelayMs)

/-! ### Static policies in TypeScript -/

/-- A static policy as the object that registers an operation. -/
def document (policy : StaticPolicy) : Json := (PolicyPorts.Rust.policy policy).toJson

variable (policy : StaticPolicy)

theorem get?_document :
    let base := PolicyPorts.Rust.policy policy
    (document policy).get? "shadowRamp" = none ∧
      (document policy).get? "ttlSec" = some (PolicyPorts.Rust.layerObject
        (policy.localTtlSec.map natural) (policy.remoteTtlSec.map natural)) ∧
      (document policy).get? "ramp" = some (PolicyPorts.Rust.layerObject
        (policy.localRamp.map Json.number) (policy.remoteRamp.map Json.number)) ∧
      (document policy).get? "requestLocal" = policy.requestLocal.map Json.bool ∧
      (document policy).get? "coalesce" = policy.coalesce.map Json.bool ∧
      (document policy).get? "staleOnErrorMaxAgeSec" = policy.staleOnErrorMaxAgeSec.map natural ∧
      (document policy).get? "remoteReadTimeoutMs" = policy.remoteReadTimeoutMs.map natural ∧
      (document policy).get? "shadow" = base.shadow.map (·.toJson) := by
  intro base
  have hget : ∀ name, (document policy).get? name = base.members.get? name := fun _ => rfl
  simp only [hget]
  simp [PolicyPorts.Rust.Policy.members, Members.get?_insert, Members.get?_insert?, base,
    PolicyPorts.Rust.policy]

variable (name : String)

theorem defaultFlag_static (flag : Option Bool) :
    defaultFlag name (Json.leafToJs (flag.map Json.bool)) = .ok flag := by
  cases flag <;> rfl

theorem defaultLayerMap_static (onLocal onRemote : Option Json) :
    defaultLayerMap name (Json.leafToJs (some (PolicyPorts.Rust.layerObject onLocal onRemote))) =
      .ok ⟨Json.leafToJs onLocal, Json.leafToJs onRemote⟩ := by
  have hget := get?_layerPair onLocal onRemote
  have hmember := fun layer => Json.member_toJs (PolicyPorts.Rust.layerObject onLocal onRemote)
    (plain_layerText layer)
  change Except.ok (LayerConfig.mk ((Json.toJs _).member (layerText .LOCAL))
    ((Json.toJs _).member (layerText .REMOTE))) = _
  rw [hmember, hmember]
  refine congrArg Except.ok ?_
  exact congrArg₂ LayerConfig.mk (congrArg _ (hget .LOCAL)) (congrArg _ (hget .REMOTE))

theorem overlayShadowConfig_toJs {members : Members} {group : Option Members}
    (h : members.get? "mismatchLogging" = group.map Json.object) :
    overlayShadowConfig (Json.toJs (.object members)) =
      .ok (some ⟨Json.leafToJs (members.get? "ramp"),
        Json.leafToJs (members.get? "logMismatches"), group.map fun group =>
          ⟨Json.leafToJs (group.get? "value"), Json.leafToJs (group.get? "diff")⟩⟩) := by
  obtain ⟨_, _, hramp, _, hmismatchLogging, hlogMismatches, hvalue, hdiff, _⟩ := plain_names
  have hmember := fun {name} (hname : Json.Plain name) => Json.member_toJs (.object members) hname
  have hgroup : (Json.toJs (.object members)).member "mismatchLogging" =
      Json.leafToJs (group.map Json.object) := by
    rw [hmember hmismatchLogging]
    exact congrArg Json.leafToJs h
  have hrampMember := hmember hramp
  have hlogMember := hmember hlogMismatches
  rw [Json.toJs] at hgroup hrampMember hlogMember ⊢
  rw [overlayShadowConfig, hgroup, hrampMember, hlogMember]
  cases group with
  | none => rfl
  | some group =>
    have hvalueMember := Json.member_toJs (.object group) hvalue
    have hdiffMember := Json.member_toJs (.object group) hdiff
    rw [Json.toJs] at hvalueMember hdiffMember
    change Except.ok (some (RuntimeConfig.ShadowConfig.mk _ _ (some
      ⟨(JsValue.object (Json.membersToJs group)).member "value",
        (JsValue.object (Json.membersToJs group)).member "diff"⟩))) = _
    rw [hvalueMember, hdiffMember]
    rfl

theorem defaultShadow_static :
    defaultShadow (Json.leafToJs ((PolicyPorts.Rust.policy policy).shadow.map (·.toJson))) =
      .ok (policy.shadow.map TypeScript.shadow) := by
  rw [PolicyPorts.Rust.policy]
  cases policy.shadow with
  | none => rfl
  | some shadow =>
    let rust : PolicyPorts.Rust.ShadowPolicy := ⟨shadow.ramp, shadow.logMismatches,
      shadow.mismatchLogging.map fun group => ⟨group.value, group.diff⟩⟩
    let members := (rust.toJson.asObject?).getD []
    let group := fun group : StaticMismatchLogging => Members.insert? (Members.insert? [] "value"
      (group.value.map Json.bool)) "diff" (group.diff.map fun level => Json.string (levelText level))
    obtain ⟨hramp, hlog, hmismatch⟩ := Rust.get?_shadowToJson rust
    have hgroup : members.get? "mismatchLogging" =
        (shadow.mismatchLogging.map group).map Json.object := by
      refine Eq.trans hmismatch ?_
      change (shadow.mismatchLogging.map _).map _ = _
      cases shadow.mismatchLogging <;> rfl
    have hrampMember : members.get? "ramp" = shadow.ramp.map Json.number := hramp
    have hlogMember : members.get? "logMismatches" = shadow.logMismatches.map Json.bool := hlog
    change overlayShadowConfig (Json.toJs (.object members)) = _
    rw [overlayShadowConfig_toJs hgroup, hrampMember, hlogMember, Option.map_some, TypeScript.shadow,
      Option.map_map]
    have hleaves : ((fun group => (⟨Json.leafToJs (group.get? "value"),
        Json.leafToJs (group.get? "diff")⟩ : RuntimeConfig.MismatchLoggingConfig)) ∘ group) =
          TypeScript.mismatchLogging := by
      funext written
      simp [group, Members.get?_insert?, TypeScript.mismatchLogging]
    rw [hleaves]

theorem deadlineMs_static (policy : StaticPolicy) :
    deadlineMs name (Json.leafToJs (policy.remoteReadTimeoutMs.map natural)) =
      .ok (TypeScript.deadline policy) := by
  rw [TypeScript.deadline]
  split
  · rename_i h
    rw [h]
    rfl
  · rename_i ms h
    have hleaf : policy.remoteReadTimeoutMs.map natural = some (natural ms) := by rw [h]; rfl
    have hrange := policy.timeout_range ms h
    have hnatural : (Json.toJs (natural ms)).natural? = some ms :=
      ((wholeNumber_eq_some_iff (natural ms) maxTimerDelayMs_le ms).mp (wholeNumber_natural hrange)).1
    rw [hleaf]
    exact deadlineMs_natural hnatural hrange name

theorem natural?_static {n : ℕ} (h : 0 < n ∧ n ≤ maxCacheTtlSec) :
    (Json.toJs (natural n)).natural? = some n :=
  ((wholeNumber_eq_some_iff (natural n) maxCacheTtlSec_le n).mp (wholeNumber_natural h)).1

theorem isSupportedCacheTtlSec_static {n : ℕ} (h : 0 < n ∧ n ≤ maxCacheTtlSec) :
    PolicyOverlays.isSupportedCacheTtlSec (Json.toJs (natural n)) = true := by
  rw [PolicyOverlays.isSupportedCacheTtlSec, natural?_static h]
  simp [h]

theorem checkDefaultTtl_static {ttl : Option ℕ} (h : ∀ n, ttl = some n → 0 < n ∧ n ≤ maxCacheTtlSec)
    (layer : CacheLayer) : checkDefaultTtl (Json.leafToJs (ttl.map natural)) layer = .ok () := by
  cases ttl with
  | none => rfl
  | some n =>
    apply checkDefaultTtl_eq_ok.mpr
    simp [Json.leafToJs, isSupportedCacheTtlSec_static (h n rfl)]

theorem checkDefaultRamp_static {ramp : Option ℚ} (h : ∀ n, ramp = some n → 0 ≤ n ∧ n ≤ 100)
    (name : String) : checkDefaultRamp (Json.leafToJs (ramp.map Json.number)) name = .ok () := by
  cases ramp with
  | none => rfl
  | some n =>
    have hpercentage : percentage? (Json.toJs (.number n)) = some n := by
      rw [percentage_eq]
      exact if_pos (h n rfl)
    apply checkDefaultRamp_eq_ok.mpr
    simp [Json.leafToJs, hpercentage]

theorem checkDefaultMaxAge_static :
    checkDefaultMaxAge (Json.leafToJs (policy.staleOnErrorMaxAgeSec.map natural))
      (TypeScript.policy policy).ttlSec = .ok () := by
  apply checkDefaultMaxAge_eq_ok.mpr
  rintro ⟨hdefined, hinvalid⟩
  cases hsome : policy.staleOnErrorMaxAgeSec with
  | none => exact hdefined (by rw [hsome]; rfl)
  | some age =>
    rw [hsome] at hinvalid
    apply hinvalid
    by_cases hpos : 0 < age
    · obtain ⟨hle, seconds, hseconds, hlt⟩ := policy.maxAge_range age hsome hpos
      have hremote : (TypeScript.policy policy).ttlSec.onRemote = Json.toJs (natural seconds) := by
        change Json.leafToJs (policy.remoteTtlSec.map natural) = _
        rw [hseconds]
        rfl
      rw [hremote]
      exact .inr ((exceeds_iff (natural?_static ⟨hpos, hle⟩)
        (natural?_static (policy.remoteTtl_range seconds hseconds))).mpr ⟨hlt, hle⟩)
    · obtain rfl := Nat.eq_zero_of_not_pos hpos
      exact .inl ((isZero_iff (natural 0)).mpr rfl)

theorem isBoolean_static (flag : Option Bool) : ¬ (Json.leafToJs (flag.map Json.bool) ≠ .undefined ∧
    isBoolean (Json.leafToJs (flag.map Json.bool)) = false) := by
  cases flag with
  | none => exact fun h => h.1 rfl
  | some flag => exact fun h => Bool.noConfusion h.2

theorem checkDefaultShadow_static :
    checkDefaultShadow (policy.shadow.map TypeScript.shadow) = .ok () := by
  cases policy.shadow with
  | none => rfl
  | some shadow =>
    apply checkDefaultShadow_some.mpr
    refine ⟨?_, isBoolean_static shadow.logMismatches, ?_⟩
    · exact checkDefaultRamp_eq_ok.mp (checkDefaultRamp_static shadow.ramp_range "shadow.ramp")
    · cases shadow.mismatchLogging with
      | none => rfl
      | some group =>
        refine checkDefaultMismatchLogging_eq_ok.mpr ⟨isBoolean_static group.value, ?_⟩
        cases group.diff with
        | none => exact fun h => h.1 rfl
        | some level =>
          apply not_and_of_not_right
          cases level <;> decide +kernel

/-- The static policy passes TypeScript's registration. -/
theorem snapshotDefaultConfig_static :
    snapshotDefaultConfig (Json.toJs (document policy)) = .ok (some (TypeScript.policy policy)) := by
  obtain ⟨hshadowRamp, httlSec, hramp, hshadow, _, _, _, _, hrequestLocal, hcoalesce, hage, htimeout, _, _⟩ :=
    plain_names
  obtain ⟨hgetRenamed, hgetTtl, hgetRamp, hgetRequestLocal, hgetCoalesce, hgetAge, hgetTimeout,
    hgetShadow⟩ := get?_document policy
  have hmember : ∀ {name leaf}, Json.Plain name → (document policy).get? name = leaf →
      (Json.toJs (document policy)).member name = Json.leafToJs leaf := by
    intro name leaf hname hget
    rw [Json.member_toJs _ hname, hget]
  have hobject : Json.toJs (document policy) =
      .object (Json.membersToJs (PolicyPorts.Rust.policy policy).members) := by
    rw [document, PolicyPorts.Rust.Policy.toJson, Json.toJs]
  rw [hobject]
  refine snapshotDefaultConfig_eq_ok.mpr ⟨_, rfl, ?_⟩
  rw [← hobject]
  constructor
  case shape => rw [hobject]; rfl
  case renamed =>
    rw [Json.hasOwn_toJs _ hshadowRamp, hgetRenamed]
    rfl
  case requestLocal => exact hmember hrequestLocal hgetRequestLocal ▸ defaultFlag_static _ _
  case coalesce => exact hmember hcoalesce hgetCoalesce ▸ defaultFlag_static _ _
  case ttlSec => exact hmember httlSec hgetTtl ▸ defaultLayerMap_static _ _ _
  case ramp => exact hmember hramp hgetRamp ▸ defaultLayerMap_static _ _ _
  case shadow => exact hmember hshadow hgetShadow ▸ defaultShadow_static policy
  case remoteReadTimeoutMs => exact hmember htimeout hgetTimeout ▸ deadlineMs_static _ policy
  case layers =>
    intro layer
    cases layer with
    | LOCAL => exact bind_eq_ok.mpr ⟨(), checkDefaultTtl_static policy.localTtl_range .LOCAL,
        checkDefaultRamp_static policy.localRamp_range _⟩
    | REMOTE => exact bind_eq_ok.mpr ⟨(), checkDefaultTtl_static policy.remoteTtl_range .REMOTE,
        checkDefaultRamp_static policy.remoteRamp_range _⟩
  case maxAge => exact hmember hage hgetAge ▸ checkDefaultMaxAge_static policy
  case shadowLeaves => exact checkDefaultShadow_static policy
  case staleOnErrorMaxAgeSec => exact (hmember hage hgetAge).symm

/-! ### Agreement -/

/-- Every port's own validation accepts the policy. -/
structure EveryPortAccepts (policy : StaticPolicy) : Prop where
  typescript : snapshotDefaultConfig (Json.toJs (document policy)) = .ok (some (TypeScript.policy policy))
  go : PolicyPorts.Go.validatePolicy (PolicyPorts.Go.policy policy) = .ok ()
  rust : (PolicyPorts.Rust.policy policy).validate = .ok ()
  python : PolicyPorts.Python.construct (PolicyPorts.Python.fields policy) =
      .ok (Python.constructed (PolicyPorts.Python.fields policy)) ∧
    PolicyPorts.Python.validateStaticPolicy (Python.constructed (PolicyPorts.Python.fields policy)) =
      .ok (Python.constructed (PolicyPorts.Python.fields policy))

/-- What each port makes of an overlay over a static policy, for one logical key. -/
structure ResolvesAs (policy : StaticPolicy) (overlay : Option Json) (logical : Text)
    (instanceTimeoutMs : ℕ) (outcome : Option Resolved) : Prop where
  typescript : ∀ key : DialCacheKey, key.defaultConfig = some (TypeScript.policy policy) →
    key.urn = units logical →
    (overlaid key (Json.leafToJs overlay)).toOption.map
      (fun config => resolve config key.urn instanceTimeoutMs) = outcome
  go : (PolicyPorts.Go.resolvePolicy (PolicyPorts.Go.policy policy) overlay (encodeUtf8 logical)
    (instanceTimeoutMs * PolicyPorts.Go.millisecond)).toOption.map Go.result = outcome
  rust : (PolicyPorts.Rust.resolvePolicy (PolicyPorts.Rust.policy policy) overlay logical
    instanceTimeoutMs).toOption.map Rust.result = outcome
  python : (PolicyPorts.Python.mergePolicy
      (some (Python.constructed (PolicyPorts.Python.fields policy))) overlay).toOption.map
    (fun merged => merged.map fun merged =>
      Python.result merged (KeyAgreement.Python.codePoints logical) instanceTimeoutMs) =
    outcome.map some

/-- The ports accept the same static policies and resolve every overlay under the portable names
alike: all reject it as a whole, or all take the same decisions from it. -/
theorem policy_agreement (policy : StaticPolicy) (overlay : Option Json)
    (hportable : ∀ reply, overlay = some reply → Python.Portable reply) (logical : Text)
    (instanceTimeoutMs : ℕ) (htimeout : 0 < instanceTimeoutMs ∧ instanceTimeoutMs ≤ maxTimerDelayMs) :
    EveryPortAccepts policy ∧ ∃ outcome, ResolvesAs policy overlay logical instanceTimeoutMs outcome := by
  constructor
  · exact {
      typescript := snapshotDefaultConfig_static policy
      go := Go.validatePolicy_policy policy
      rust := Rust.validate_policy policy
      python := ⟨python_constructs policy, Python.validateStaticPolicy_static policy⟩ }
  · apply Exists.intro (resolvePolicy policy overlay logical instanceTimeoutMs)
    exact {
      typescript := by
        intro key hdefault hurn
        exact typescript_resolves policy overlay hdefault hurn instanceTimeoutMs
      go := go_resolves policy overlay logical htimeout
      rust := rust_resolves policy overlay logical htimeout
      python := python_resolves policy hportable logical instanceTimeoutMs }

/-- A policy with a remote layer that recovers. -/
def recovering : StaticPolicy where
  localTtlSec := none
  remoteTtlSec := some 60
  localRamp := none
  remoteRamp := none
  requestLocal := none
  coalesce := none
  staleOnErrorMaxAgeSec := some 600
  remoteReadTimeoutMs := none
  shadow := none
  localTtl_range := by simp
  remoteTtl_range := by
    intro seconds h
    obtain rfl := Option.some.inj h
    decide
  localRamp_range := by simp
  remoteRamp_range := by simp
  maxAge_range := by
    intro maxAge h _
    obtain rfl := Option.some.inj h
    exact ⟨by decide, 60, rfl, by decide⟩
  timeout_range := by simp

/-- An overlay with an explicit null leaf and a malformed shorthand. -/
def malformedReply : Json :=
  .object [("ttlSec", .object [("local", .null)]), ("shadow", .object [("logMismatches", .number 1)])]

theorem policy_agreement_malformed :
    (∀ reply, some malformedReply = some reply → Python.Portable reply) ∧
      (0 < 50 ∧ 50 ≤ maxTimerDelayMs) ∧ EveryPortAccepts recovering ∧
      ∃ outcome, ResolvesAs recovering (some malformedReply) "urn".toList 50 outcome := by
  have hportable : ∀ reply, some malformedReply = some reply → Python.Portable reply := by
    intro reply h
    obtain rfl := Option.some.inj h
    constructor
    · intro name hname
      simp only [List.mem_cons, List.not_mem_nil, or_false] at hname
      rcases hname with rfl | rfl | rfl | rfl | rfl <;> rfl
    · intro name hname
      simp only [List.mem_cons, List.not_mem_nil, or_false] at hname
      rcases hname with rfl | rfl <;> rfl
  have htimeout : 0 < 50 ∧ 50 ≤ maxTimerDelayMs := by decide
  exact ⟨hportable, htimeout,
    policy_agreement recovering (some malformedReply) hportable "urn".toList 50 htimeout⟩

/-! ### The kill switch -/

theorem layerSpec_ramp_zero (ttl : Option Json) (key : Text) (layer : String) :
    (layerSpec ttl (some (.number 0)) (sampled key layer)).enabled = false := by
  have hpercentage : rampSpec (some (.number 0)) = some 0 := by decide +kernel
  have hsampled : sampled key layer 0 = false := by
    rw [Bool.eq_false_iff]
    intro h
    exact not_admitted_zero _ ((sampled_iff key layer 0).mp h)
  rw [layerSpec.eq_def]
  cases ttl with
  | none => rfl
  | some ttl =>
    simp only [hpercentage]
    cases wholeNumber ttl maxCacheTtlSec with
    | none => rfl
    | some seconds => simp [hsampled]

namespace Rust

open PolicyPorts.Rust

theorem accepted_disabled : Accepted Policy.disabled.toJson := by decide +kernel

theorem writtenLeaf_disabled :
    (∀ layer, writtenLeaf Policy.disabled.toJson (.ramp layer) = some (.number 0)) ∧
      writtenLeaf Policy.disabled.toJson .requestLocal = some (.bool false) ∧
      writtenLeaf Policy.disabled.toJson .staleOnErrorMaxAgeSec = some (natural 0) ∧
      writtenLeaf Policy.disabled.toJson .shadowRamp = some (.number 0) ∧
      writtenLeaf Policy.disabled.toJson .mismatchValue = some (.bool false) ∧
      writtenLeaf Policy.disabled.toJson .mismatchDiff = some (.string "off") ∧
      malformedOverlay Policy.disabled.toJson = false := by
  refine ⟨?_, rfl, rfl, rfl, rfl, rfl, rfl⟩
  intro layer
  cases layer <;> rfl

/-- Over every policy that is valid, the overlay of `Policy::disabled()` turns everything off. -/
theorem off_of_disabled (key : Text) {instanceTimeoutMs : ℕ}
    (h : 0 < instanceTimeoutMs ∧ instanceTimeoutMs ≤ maxTimerDelayMs) :
    ∃ resolved, PolicyPorts.Rust.resolvePolicy (PolicyPorts.Rust.policy policy)
        (some Policy.disabled.toJson) key instanceTimeoutMs = .ok resolved ∧ Off (result resolved) := by
  have hresolves := rust_resolves policy (some Policy.disabled.toJson) key h
  have hnull : Policy.disabled.toJson ≠ .null := Json.noConfusion
  rw [resolvePolicy_some policy hnull, if_pos accepted_disabled] at hresolves
  cases hresolved : PolicyPorts.Rust.resolvePolicy (PolicyPorts.Rust.policy policy)
      (some Policy.disabled.toJson) key instanceTimeoutMs with
  | error e =>
    rw [hresolved] at hresolves
    cases hresolves
  | ok resolved =>
    rw [hresolved] at hresolves
    have hresult : result resolved = resolveLeaves (mergedLeaf policy Policy.disabled.toJson)
      (malformedOverlay Policy.disabled.toJson) key instanceTimeoutMs := Option.some.inj hresolves
    have hleaf : ∀ {leaf value}, writtenLeaf Policy.disabled.toJson leaf = some value →
        mergedLeaf policy Policy.disabled.toJson leaf = some value := by
      intro leaf value hwritten
      rw [mergedLeaf, hwritten]
      rfl
    obtain ⟨hramp, hrequestLocal, hage, hshadowRamp, hvalue, hdiff, hmalformed⟩ := writtenLeaf_disabled
    have hsampled : sampled key "shadow" 0 = false := by
      rw [Bool.eq_false_iff]
      intro h
      exact not_admitted_zero _ ((sampled_iff key "shadow" 0).mp h)
    have hshadow : shadowSpec (mergedLeaf policy Policy.disabled.toJson .shadowRamp)
        (sampled key "shadow") = (false, false) := by
      have hpercentage : percentage (.number 0) = some 0 := by decide +kernel
      simp only [hleaf hshadowRamp, shadowSpec, hpercentage, hsampled]
    have hrecovery : ∀ remote, recoverySpec (mergedLeaf policy Policy.disabled.toJson
        .staleOnErrorMaxAgeSec) remote = (none, false) := by
      intro remote
      rw [hleaf hage, recoverySpec, if_pos (show (natural 0).asNumber? = some 0 from rfl)]
    apply Exists.intro resolved
    constructor
    · rfl
    · rw [hresult]
      exact {
        requestLocal := by
          change flagSpec (mergedLeaf policy Policy.disabled.toJson .requestLocal) false = false
          rw [hleaf hrequestLocal]
          rfl
        onLocal := by
          change (layerSpec _ (mergedLeaf policy Policy.disabled.toJson (.ramp .LOCAL)) _).enabled = false
          rw [hleaf (hramp .LOCAL), layerSpec_ramp_zero]
        onRemote := by
          change (layerSpec _ (mergedLeaf policy Policy.disabled.toJson (.ramp .REMOTE)) _).enabled = false
          rw [hleaf (hramp .REMOTE), layerSpec_ramp_zero]
        staleOnErrorMaxAgeSec := congrArg Prod.fst (hrecovery (resolveLeaves
          (mergedLeaf policy Policy.disabled.toJson) false key instanceTimeoutMs).onRemote)
        staleOnErrorConfigError := congrArg Prod.snd (hrecovery (resolveLeaves
          (mergedLeaf policy Policy.disabled.toJson) false key instanceTimeoutMs).onRemote)
        shadowAdmitted := congrArg Prod.fst hshadow
        shadowConfigError := congrArg Prod.snd hshadow
        loggingConfigError := by
          change (malformedOverlay Policy.disabled.toJson ||
            (valueSpec (mergedLeaf policy Policy.disabled.toJson .mismatchValue)).isNone ||
            (diffSpec (mergedLeaf policy Policy.disabled.toJson .mismatchDiff)).isNone) = false
          rw [hmalformed, hleaf hvalue, hleaf hdiff]
          decide }

/-- A valid policy of this port is a static policy. -/
theorem exists_static_of_validate {base : Policy} (h : base.validate = .ok ()) :
    ∃ policy, PolicyPorts.Rust.policy policy = base := by
  have hvalid := validate_eq_ok.mp h
  obtain ⟨requestLocal, coalesce, localTtl, remoteTtl, localRamp, remoteRamp, age, timeout, shadow⟩ := base
  have hmaxAge : ∀ maxAge, age = some maxAge → 0 < maxAge →
      maxAge ≤ maxCacheTtlSec ∧ ∃ seconds, remoteTtl = some seconds ∧ seconds < maxAge := by
    intro maxAge hsome hpos
    obtain ⟨hle, hremote⟩ := hvalid.staleOnErrorMaxAgeSec maxAge hsome
    obtain ⟨seconds, hseconds, _, hlt⟩ := hremote hpos
    exact ⟨hle, seconds, hseconds, hlt⟩
  let static : (shadow : Option StaticShadow) → StaticPolicy := fun shadow =>
    { localTtlSec := localTtl, remoteTtlSec := remoteTtl, localRamp := localRamp
      remoteRamp := remoteRamp, requestLocal := requestLocal, coalesce := coalesce
      staleOnErrorMaxAgeSec := age, remoteReadTimeoutMs := timeout, shadow := shadow
      localTtl_range := hvalid.localTtlSec
      remoteTtl_range := hvalid.remoteTtlSec
      localRamp_range := hvalid.localRamp
      remoteRamp_range := hvalid.remoteRamp
      maxAge_range := hmaxAge
      timeout_range := hvalid.remoteReadTimeoutMs }
  cases shadow with
  | none => exact ⟨static none, rfl⟩
  | some shadow =>
    apply Exists.intro (static (some { ramp := shadow.ramp, logMismatches := shadow.logMismatches
                                       mismatchLogging := shadow.mismatchLogging.map fun group =>
                                         ⟨group.value, group.diff⟩
                                       ramp_range := hvalid.shadowRamp }))
    obtain ⟨ramp, logMismatches, group⟩ := shadow
    cases group <;> rfl

end Rust

/-- No request memo, neither layer, no recovery and no shadow work is left of a policy. -/
structure KilledPlan {V X : Type} (settings : Settings X) (plan : Plan) : Prop where
  memo : requestScope (V := V) (X := X) plan = pure none
  layers : ∀ instanceTimeoutMs, Off (resolve plan.keyConfig plan.key.urn instanceTimeoutMs)
  shadow : ∀ start readTimeoutMs,
    scheduleShadowValidation (V := V) settings plan start readTimeoutMs = pure ()

theorem killedPlan_of_disabled {V X : Type} (settings : Settings X) (invocation : Invocation)
    (key : DialCacheKey) {defaults : Option DialCacheKeyConfig} {merged : DialCacheKeyConfig}
    (h : mergeKeyConfig defaults (keyConfigObject disabled) = .ok merged) :
    KilledPlan (V := V) settings ⟨invocation, key, some merged⟩ := by
  have hoff := fun instanceTimeoutMs => PolicyOverlays.off_of_disabled h key.urn instanceTimeoutMs
  constructor
  · have hmemo := (hoff 0).requestLocal
    rw [requestScope, if_neg (of_decide_eq_false hmemo)]
  · exact hoff
  · intro start readTimeoutMs
    exact scheduleShadowValidation_off settings _ start readTimeoutMs
      (Prod.ext (hoff 0).shadowAdmitted (hoff 0).shadowConfigError)

/-- A shorthand that is written writes both mismatch leaves. -/
theorem shorthand_writes {overlay : JsValue}
    (h : (overlay.member "shadow").member "logMismatches" ≠ .undefined) :
    overlayLeaf overlay .mismatchValue ≠ .undefined ∧ overlayLeaf overlay .mismatchDiff ≠ .undefined := by
  have hwritten : ∀ {shorthand : JsValue}, shorthand ≠ .undefined →
      PolicyOverlays.shorthandValue shorthand ≠ .undefined ∧
        PolicyOverlays.shorthandDiff shorthand ≠ .undefined := by
    intro shorthand hne
    cases shorthand with
    | undefined => exact absurd rfl hne
    | boolean value => cases value <;> exact ⟨JsValue.noConfusion, JsValue.noConfusion⟩
    | _ => exact ⟨JsValue.noConfusion, JsValue.noConfusion⟩
  exact ⟨orElse_ne_undefined (hwritten h).1, orElse_ne_undefined (hwritten h).2⟩

/-- A merge is decided leaf by leaf: an empty overlay changes nothing of an accepted default, every
leaf is the overlay's where the overlay writes it and the default's otherwise, and the overlay that
disables a policy leaves nothing of any default in use, in TypeScript and in Rust. -/
theorem overlay_algebra {V X : Type} :
    (∀ (config : JsValue) (key : DialCacheKey) (instanceTimeoutMs : ℕ),
      snapshotDefaultConfig config = .ok key.defaultConfig →
      ∃ merged, overlaid key emptyOverlay = .ok (some merged) ∧
        overlaid key .null = .ok key.defaultConfig ∧
        resolve (some merged) key.urn instanceTimeoutMs =
          resolve key.defaultConfig key.urn instanceTimeoutMs) ∧
    (∀ (defaults : Option DialCacheKeyConfig) (overlay : JsValue) (merged : DialCacheKeyConfig),
      mergeKeyConfig defaults overlay = .ok merged →
      (∀ leaf, (overlayLeaf overlay leaf ≠ .undefined →
          policyLeaf (some merged) leaf = overlayLeaf overlay leaf) ∧
        (overlayLeaf overlay leaf = .undefined →
          policyLeaf (some merged) leaf = policyLeaf defaults leaf)) ∧
      ((overlay.member "shadow").member "logMismatches" ≠ .undefined →
        overlayLeaf overlay .mismatchValue ≠ .undefined ∧
          overlayLeaf overlay .mismatchDiff ≠ .undefined)) ∧
    (∀ (key : DialCacheKey), ∃ merged, overlaid key (keyConfigObject disabled) = .ok (some merged) ∧
      ∀ (settings : Settings X) (invocation : Invocation),
        KilledPlan (V := V) settings ⟨invocation, key, some merged⟩) ∧
    (∀ (base : PolicyPorts.Rust.Policy) (key : Text) (instanceTimeoutMs : ℕ),
      base.validate = .ok () → 0 < instanceTimeoutMs ∧ instanceTimeoutMs ≤ maxTimerDelayMs →
      ∃ resolved, PolicyPorts.Rust.resolvePolicy base (some PolicyPorts.Rust.Policy.disabled.toJson) key
        instanceTimeoutMs = .ok resolved ∧ Off (Rust.result resolved)) := by
  refine ⟨?_, ?_, ?_, ?_⟩
  · intro config key instanceTimeoutMs haccepted
    obtain ⟨merged, hmerged⟩ := mergeKeyConfig_empty key.defaultConfig
    apply Exists.intro merged
    refine ⟨?_, rfl, ?_⟩
    · change (mergeKeyConfig key.defaultConfig emptyOverlay).map some = _
      rw [hmerged]
      rfl
    · apply resolve_unwritten haccepted hmerged
      intro leaf
      cases leaf <;> rfl
  · intro defaults overlay merged hmerged
    constructor
    · intro leaf
      rw [policyLeaf_merged hmerged]
      constructor
      · intro hwritten
        exact orElse_of_ne hwritten _
      · intro hunwritten
        rw [hunwritten, undefined_orElse]
    · exact shorthand_writes
  · intro key
    obtain ⟨merged, hmerged⟩ := mergeKeyConfig_disabled key.defaultConfig
    apply Exists.intro merged
    constructor
    · change (mergeKeyConfig key.defaultConfig (keyConfigObject disabled)).map some = _
      rw [hmerged]
      rfl
    · intro settings invocation
      exact killedPlan_of_disabled settings invocation key hmerged
  · intro base key instanceTimeoutMs hvalid htimeout
    obtain ⟨policy, rfl⟩ := Rust.exists_static_of_validate hvalid
    exact Rust.off_of_disabled policy key htimeout

/-- A registered default, an overlay that writes a malformed shorthand over it, and a valid policy
of the Rust port. -/
theorem overlay_algebra_recovering :
    snapshotDefaultConfig (Json.toJs (document recovering)) = .ok (some (TypeScript.policy recovering)) ∧
      (∃ merged, mergeKeyConfig (some (TypeScript.policy recovering)) (Json.toJs malformedReply) = .ok merged ∧
        policyLeaf (some merged) .mismatchValue = .boolean false ∧
        policyLeaf (some merged) (.ttlSec .REMOTE) = Json.toJs (natural 60)) ∧
      (PolicyPorts.Rust.policy recovering).validate = .ok () ∧
      ∃ resolved, PolicyPorts.Rust.resolvePolicy (PolicyPorts.Rust.policy recovering)
        (some PolicyPorts.Rust.Policy.disabled.toJson) "urn".toList 50 = .ok resolved ∧
          Off (Rust.result resolved) := by
  obtain ⟨_, hleaves, _, hrust⟩ := overlay_algebra (V := ℕ) (X := ℕ)
  have haccepted : Accepted malformedReply := by decide +kernel
  obtain ⟨merged, hmerged⟩ :=
    (mergeKeyConfig_ok_iff (some (TypeScript.policy recovering)) malformedReply).mpr haccepted
  have hwritten := (hleaves _ _ _ hmerged).1
  have hvalue : overlayLeaf (Json.toJs malformedReply) .mismatchValue = .boolean false := by
    rw [overlayLeaf_toJs]
    rfl
  have hunwritten : overlayLeaf (Json.toJs malformedReply) (.ttlSec .REMOTE) = .undefined := by
    rw [overlayLeaf_toJs]
    rfl
  refine ⟨snapshotDefaultConfig_static recovering, ⟨merged, hmerged, ?_, ?_⟩,
    Rust.validate_policy recovering, hrust _ _ 50 (Rust.validate_policy recovering) (by decide)⟩
  · rw [(hwritten .mismatchValue).1 (by rw [hvalue]; exact JsValue.noConfusion), hvalue]
  · exact (hwritten (.ttlSec .REMOTE)).2 hunwritten

end DialCache.PolicyLeaves
