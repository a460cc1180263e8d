import DialCache.PolicyOverlays

/-!
# Static defaults against resolution

`snapshotDefaultConfig` checks the leaves of a default when an operation is registered, and the
resolution of a call checks the leaves of a merged policy again. Both agree on which leaves are
invalid: an accepted default resolves without an error, and a leaf for which a default is rejected
turns its feature off when it comes from a provider instead.
-/

namespace DialCache.StaticDefaults

open JsValues CacheKeys RuntimeConfig CacheOperations ShadowValidation CacheTraversal PolicyOverlays

/-! ### Invalid leaves -/

/-- The leaves that a static default is checked for. -/
inductive DefaultLeaf where
  | ttlSec (layer : CacheLayer)
  | ramp (layer : CacheLayer)
  | staleOnErrorMaxAgeSec
  | shadowRamp
  | logMismatches
  | mismatchValue
  | mismatchDiff

/-- The leaf as it is written. -/
def writtenLeaf (value : JsValue) : DefaultLeaf → JsValue
  | .ttlSec layer => (value.member "ttlSec").member (layerText layer)
  | .ramp layer => (value.member "ramp").member (layerText layer)
  | .staleOnErrorMaxAgeSec => value.member "staleOnErrorMaxAgeSec"
  | .shadowRamp => (value.member "shadow").member "ramp"
  | .logMismatches => (value.member "shadow").member "logMismatches"
  | .mismatchValue => ((value.member "shadow").member "mismatchLogging").member "value"
  | .mismatchDiff => ((value.member "shadow").member "mismatchLogging").member "diff"

/-- Whether a recovery age exceeds a remote TTL. -/
def exceeds (maxAge ttlSec : JsValue) : Bool :=
  match ttlSec.natural?, maxAge.natural? with
  | some ttlSec, some maxAge => ttlSec < maxAge
  | _, _ => false

/-- The domain of a written leaf. A recovery age is zero, or a TTL above the remote one. -/
def inDomain (value : JsValue) : DefaultLeaf → JsValue → Bool
  | .ttlSec _, leaf => isSupportedCacheTtlSec leaf
  | .ramp _, leaf => (percentage? leaf).isSome
  | .staleOnErrorMaxAgeSec, leaf => leaf.natural? = some 0 ∨
      (isSupportedCacheTtlSec leaf = true ∧ exceeds leaf (writtenLeaf value (.ttlSec .REMOTE)) = true)
  | .shadowRamp, leaf => (percentage? leaf).isSome
  | .logMismatches, leaf => isBoolean leaf
  | .mismatchValue, leaf => isBoolean leaf
  | .mismatchDiff, leaf => (isShadowMismatchDiffLevel leaf).isSome

/-- A leaf that is written outside its domain. -/
def Invalid (value : JsValue) (leaf : DefaultLeaf) : Prop :=
  writtenLeaf value leaf ≠ .undefined ∧ inDomain value leaf (writtenLeaf value leaf) = false

/-- The groups, flags and the read deadline of a default, which are checked before its leaves. -/
structure WellShaped (value : JsValue) : Prop where
  shape : isPlainObject value = true
  renamed : value.hasOwn "shadowRamp" = false
  requestLocal : ∃ flag, defaultFlag "requestLocal" (value.member "requestLocal") = .ok flag
  coalesce : ∃ flag, defaultFlag "coalesce" (value.member "coalesce") = .ok flag
  ttlSec : isPlainObject (value.member "ttlSec") = true
  ramp : isPlainObject (value.member "ramp") = true
  shadow : ∃ shadow, defaultShadow (value.member "shadow") = .ok shadow
  remoteReadTimeoutMs : ∃ deadline,
    deadlineMs "DialCache remoteReadTimeoutMs" (value.member "remoteReadTimeoutMs") = .ok deadline

/-! ### The checks -/

variable {value : JsValue}

theorem isNumber_of_natural? {n : ℕ} (h : value.natural? = some n) : isNumber value = true := by
  rw [(JsValue.eq_of_natural? h).1]
  rfl

theorem isNumber_of_supported (h : isSupportedCacheTtlSec value = true) :
    isNumber value = true := by
  rw [isSupportedCacheTtlSec, Option.any_eq_true] at h
  obtain ⟨n, hn, -⟩ := h
  exact isNumber_of_natural? hn

theorem isNumber_of_percentage (h : (percentage? value).isSome = true) : isNumber value = true := by
  cases value with
  | number x => rfl
  | _ => cases h

variable {layer : CacheLayer}

variable {leaf : JsValue}

theorem checkDefaultTtl_eq_ok :
    checkDefaultTtl leaf layer = .ok () ↔
      ¬ (leaf ≠ .undefined ∧ isSupportedCacheTtlSec leaf = false) := by
  rw [checkDefaultTtl]
  by_cases hundefined : leaf = .undefined
  · simp [hundefined, isUndefined]
  · rw [isUndefined_eq_false hundefined]
    cases hsupported : isSupportedCacheTtlSec leaf with
    | true => simp [isNumber_of_supported hsupported]
    | false => cases isNumber leaf <;> simp [hundefined]

variable {name : String}

theorem checkDefaultRamp_eq_ok :
    checkDefaultRamp leaf name = .ok () ↔
      ¬ (leaf ≠ .undefined ∧ (percentage? leaf).isSome = false) := by
  rw [checkDefaultRamp]
  by_cases hundefined : leaf = .undefined
  · simp [hundefined, isUndefined]
  · rw [isUndefined_eq_false hundefined]
    cases hpercentage : percentage? leaf with
    | some ramp => simp [isNumber_of_percentage (Option.isSome_of_eq_some hpercentage)]
    | none => cases isNumber leaf <;> simp [hundefined]

variable {maxAge : JsValue} {ttlSec : LayerConfig}

theorem checkDefaultMaxAge_eq_ok :
    checkDefaultMaxAge maxAge ttlSec = .ok () ↔
      ¬ (maxAge ≠ .undefined ∧ ¬ (maxAge.natural? = some 0 ∨
        (isSupportedCacheTtlSec maxAge = true ∧ exceeds maxAge ttlSec.onRemote = true))) := by
  rw [checkDefaultMaxAge]
  by_cases hundefined : maxAge = .undefined
  · simp [hundefined, isUndefined]
  · rw [isUndefined_eq_false hundefined]
    by_cases hzero : maxAge.natural? = some 0
    · simp [hzero, isNumber_of_natural? hzero]
    · cases hsupported : isSupportedCacheTtlSec maxAge with
      | false => cases isNumber maxAge <;> simp [hundefined, hzero]
      | true =>
        rw [isNumber_of_supported hsupported, exceeds]
        cases ttlSec.onRemote.natural? with
        | none => simp [hundefined, hzero]
        | some seconds =>
          cases hage : maxAge.natural? with
          | none => simp [hundefined]
          | some age =>
            rw [hage, Option.some.injEq] at hzero
            by_cases hlt : seconds < age
            · simp [hlt, Nat.not_le.mpr hlt, hzero]
            · simp [hlt, Nat.not_lt.mp hlt, hundefined, hzero]

theorem checkDefaultMismatchLogging_eq_ok {diff : JsValue} :
    checkDefaultMismatchLogging (some ⟨value, diff⟩) = .ok () ↔
      ¬ (value ≠ .undefined ∧ isBoolean value = false) ∧
        ¬ (diff ≠ .undefined ∧ (isShadowMismatchDiffLevel diff).isSome = false) := by
  rw [checkDefaultMismatchLogging]
  by_cases hvalue : value = .undefined <;> by_cases hdiff : diff = .undefined <;>
    cases isBoolean value <;> cases isShadowMismatchDiffLevel diff <;>
    simp [hvalue, hdiff, isUndefined]

/-! ### What is captured -/

/-- What a captured default consists of. -/
structure Captured (value : JsValue) (config : DialCacheKeyConfig) : Prop where
  shape : isPlainObject value = true
  renamed : value.hasOwn "shadowRamp" = false
  requestLocal : defaultFlag "requestLocal" (value.member "requestLocal") = .ok config.requestLocal
  coalesce : defaultFlag "coalesce" (value.member "coalesce") = .ok config.coalesce
  ttlSec : defaultLayerMap "ttlSec" (value.member "ttlSec") = .ok config.ttlSec
  ramp : defaultLayerMap "ramp" (value.member "ramp") = .ok config.ramp
  shadow : defaultShadow (value.member "shadow") = .ok config.shadow
  remoteReadTimeoutMs : deadlineMs "DialCache remoteReadTimeoutMs"
    (value.member "remoteReadTimeoutMs") = .ok config.remoteReadTimeoutMs
  layers : ∀ layer, checkDefaultLayer config.ttlSec config.ramp layer = .ok ()
  maxAge : checkDefaultMaxAge (value.member "staleOnErrorMaxAgeSec") config.ttlSec = .ok ()
  shadowLeaves : checkDefaultShadow config.shadow = .ok ()
  staleOnErrorMaxAgeSec : config.staleOnErrorMaxAgeSec = value.member "staleOnErrorMaxAgeSec"

theorem snapshotDefaultConfig_eq_ok {members : List (List UInt16 × JsValue)}
    {captured : Option DialCacheKeyConfig} :
    snapshotDefaultConfig (.object members) = .ok captured ↔
      ∃ config, captured = some config ∧ Captured (.object members) config := by
  simp only [snapshotDefaultConfig]
  constructor
  · intro h
    split at h
    · cases h
    · rename_i hrenamed
      obtain ⟨requestLocal, hrequestLocal, h⟩ := bind_eq_ok.mp h
      obtain ⟨coalesce, hcoalesce, h⟩ := bind_eq_ok.mp h
      obtain ⟨ttlSec, httlSec, h⟩ := bind_eq_ok.mp h
      obtain ⟨ramp, hramp, h⟩ := bind_eq_ok.mp h
      obtain ⟨shadow, hshadow, h⟩ := bind_eq_ok.mp h
      obtain ⟨deadline, hdeadline, h⟩ := bind_eq_ok.mp h
      obtain ⟨_, hlocal, h⟩ := bind_eq_ok.mp h
      obtain ⟨_, hremote, h⟩ := bind_eq_ok.mp h
      obtain ⟨_, hmaxAge, h⟩ := bind_eq_ok.mp h
      obtain ⟨_, hleaves, h⟩ := bind_eq_ok.mp h
      refine ⟨_, (Except.ok.inj h).symm, rfl, Bool.eq_false_iff.mpr hrenamed, hrequestLocal,
        hcoalesce, httlSec, hramp, hshadow, hdeadline, ?_, hmaxAge, hleaves, rfl⟩
      intro layer
      cases layer with
      | LOCAL => exact hlocal
      | REMOTE => exact hremote
  · intro h
    obtain ⟨config, rfl, h⟩ := h
    rw [if_neg (Bool.eq_false_iff.mp h.renamed)]
    refine bind_eq_ok.mpr ⟨_, h.requestLocal, bind_eq_ok.mpr ⟨_, h.coalesce, bind_eq_ok.mpr ⟨_,
      h.ttlSec, bind_eq_ok.mpr ⟨_, h.ramp, bind_eq_ok.mpr ⟨_, h.shadow, bind_eq_ok.mpr ⟨_,
        h.remoteReadTimeoutMs, bind_eq_ok.mpr ⟨(), h.layers .LOCAL, bind_eq_ok.mpr ⟨(),
          h.layers .REMOTE, bind_eq_ok.mpr ⟨(), h.maxAge, bind_eq_ok.mpr ⟨(), h.shadowLeaves,
            ?_⟩⟩⟩⟩⟩⟩⟩⟩⟩⟩
    rw [← h.staleOnErrorMaxAgeSec]
    rfl

theorem defaultLayerMap_leaf {config : LayerConfig} (h : defaultLayerMap name value = .ok config)
    (layer : CacheLayer) : config.leaf layer = value.member (layerText layer) := by
  rw [defaultLayerMap] at h
  split at h
  · obtain rfl := Except.ok.inj h
    cases layer <;> rfl
  · cases h

theorem flagValue_of_defaultFlag {flag : Option Bool} (h : defaultFlag name value = .ok flag) :
    flagValue flag = value := by
  cases value with
  | undefined | boolean value =>
    obtain rfl := Except.ok.inj h
    rfl
  | _ => cases h

variable {shadow : Option ShadowConfig}

theorem overlayShadowConfig_of_defaultShadow (h : defaultShadow value = .ok shadow) :
    overlayShadowConfig value = .ok shadow := by
  cases value with
  | undefined => exact h
  | object members => exact h
  | _ => cases h

/-- A policy whose leaves are those that a value writes. -/
structure Holds (config : DialCacheKeyConfig) (value : JsValue) : Prop where
  leaf : ∀ leaf, policyLeaf (some config) leaf = overlayLeaf value leaf
  shorthand : (mismatchLeaves config.shadow).invalid =
    malformed ((value.member "shadow").member "logMismatches")

variable {config : DialCacheKeyConfig}

theorem Captured.holds (h : Captured value config) : Holds config value := by
  obtain ⟨hramp, hvalue, hdiff, hinvalid⟩ :=
    overlayShadowConfig_leaves (overlayShadowConfig_of_defaultShadow h.shadow)
  refine ⟨?_, hinvalid⟩
  intro leaf
  cases leaf with
  | ttlSec layer => exact defaultLayerMap_leaf h.ttlSec layer
  | ramp layer => exact defaultLayerMap_leaf h.ramp layer
  | requestLocal => exact flagValue_of_defaultFlag h.requestLocal
  | coalesce => exact flagValue_of_defaultFlag h.coalesce
  | staleOnErrorMaxAgeSec => exact h.staleOnErrorMaxAgeSec
  | remoteReadTimeoutMs => exact deadlineValue_of_deadlineMs h.remoteReadTimeoutMs
  | shadowRamp => exact hramp
  | mismatchValue => exact hvalue
  | mismatchDiff => exact hdiff

/-- The default of an operation that was registered with no leaf. -/
def emptyKeyConfig : DialCacheKeyConfig where
  ttlSec := ⟨.undefined, .undefined⟩
  ramp := ⟨.undefined, .undefined⟩
  shadow := none
  requestLocal := none
  coalesce := none
  staleOnErrorMaxAgeSec := .undefined
  remoteReadTimeoutMs := none

/-- No default, or one without a leaf. -/
def IsEmpty (defaults : Option DialCacheKeyConfig) : Prop :=
  defaults = none ∨ defaults = some emptyKeyConfig

theorem policyLeaf_of_isEmpty {defaults : Option DialCacheKeyConfig} (h : IsEmpty defaults)
    (leaf : PolicyLeaf) : policyLeaf defaults leaf = .undefined := by
  rcases h with rfl | rfl
  · cases leaf <;> rfl
  · cases leaf with
    | ttlSec layer => cases layer <;> rfl
    | ramp layer => cases layer <;> rfl
    | _ => rfl

theorem holds_of_mergeKeyConfig {defaults : Option DialCacheKeyConfig} (hempty : IsEmpty defaults)
    {merged : DialCacheKeyConfig} (h : mergeKeyConfig defaults value = .ok merged) :
    Holds merged value := by
  obtain ⟨shadow, hshadow, hmerged⟩ := (mergeKeyConfig_eq_ok.mp h).shadow
  constructor
  · intro leaf
    rw [policyLeaf_merged h, policyLeaf_of_isEmpty hempty, orElse_undefined]
  · rw [hmerged, (mergeShadowConfig_leaves (defaults.bind (·.shadow)) shadow).2.2.2,
      (overlayShadowConfig_leaves hshadow).2.2.2]

/-! ### Acceptance -/

theorem checkDefaultLayer_eq_ok {ramp : LayerConfig}
    (httlSec : defaultLayerMap "ttlSec" (value.member "ttlSec") = .ok ttlSec)
    (hramp : defaultLayerMap "ramp" (value.member "ramp") = .ok ramp) (layer : CacheLayer) :
    checkDefaultLayer ttlSec ramp layer = .ok () ↔
      ¬ Invalid value (.ttlSec layer) ∧ ¬ Invalid value (.ramp layer) := by
  rw [checkDefaultLayer, defaultLayerMap_leaf httlSec, defaultLayerMap_leaf hramp]
  constructor
  · intro h
    obtain ⟨_, hfirst, hsecond⟩ := bind_eq_ok.mp h
    exact ⟨checkDefaultTtl_eq_ok.mp hfirst, checkDefaultRamp_eq_ok.mp hsecond⟩
  · intro h
    exact bind_eq_ok.mpr ⟨(), checkDefaultTtl_eq_ok.mpr h.1, checkDefaultRamp_eq_ok.mpr h.2⟩

theorem checkDefaultMaxAge_iff
    (httlSec : defaultLayerMap "ttlSec" (value.member "ttlSec") = .ok ttlSec) :
    checkDefaultMaxAge (value.member "staleOnErrorMaxAgeSec") ttlSec = .ok () ↔
      ¬ Invalid value .staleOnErrorMaxAgeSec := by
  have hremote : ttlSec.onRemote = writtenLeaf value (.ttlSec .REMOTE) :=
    defaultLayerMap_leaf httlSec .REMOTE
  rw [checkDefaultMaxAge_eq_ok, hremote, Invalid, inDomain, decide_eq_false_iff_not]
  rfl

/-- The shapes of a shadow group that is accepted. -/
theorem overlayShadowConfig_cases (h : overlayShadowConfig value = .ok shadow) :
    (value = .undefined ∧ shadow = none) ∨
      (value.member "mismatchLogging" = .undefined ∧
        shadow = some ⟨value.member "ramp", value.member "logMismatches", none⟩) ∨
      (value.member "mismatchLogging" ≠ .undefined ∧
        shadow = some ⟨value.member "ramp", value.member "logMismatches",
          some ⟨(value.member "mismatchLogging").member "value",
            (value.member "mismatchLogging").member "diff"⟩⟩) := by
  cases value with
  | undefined => exact .inl ⟨rfl, (Except.ok.inj h).symm⟩
  | object members =>
    rw [overlayShadowConfig] at h
    cases hgroup : (JsValue.object members).member "mismatchLogging" with
    | undefined =>
      rw [hgroup] at h
      exact .inr (.inl ⟨rfl, (Except.ok.inj h).symm⟩)
    | object group =>
      rw [hgroup] at h
      exact .inr (.inr ⟨JsValue.noConfusion, (Except.ok.inj h).symm⟩)
    | _ =>
      rw [hgroup] at h
      cases h
  | _ => cases h

theorem checkDefaultShadow_some {ramp log : JsValue} {group : Option MismatchLoggingConfig} :
    checkDefaultShadow (some ⟨ramp, log, group⟩) = .ok () ↔
      ¬ (ramp ≠ .undefined ∧ (percentage? ramp).isSome = false) ∧
        ¬ (log ≠ .undefined ∧ isBoolean log = false) ∧
        checkDefaultMismatchLogging group = .ok () := by
  rw [checkDefaultShadow, bind_eq_ok, ← @checkDefaultRamp_eq_ok ramp "shadow.ramp"]
  constructor
  · intro h
    obtain ⟨_, hramp, h⟩ := h
    split at h
    · cases h
    · rename_i hlog
      refine ⟨hramp, ?_, h⟩
      intro hinvalid
      apply hlog
      simp [isUndefined_eq_false hinvalid.1, hinvalid.2]
  · intro h
    obtain ⟨hramp, hlog, hgroup⟩ := h
    refine ⟨(), hramp, ?_⟩
    rw [if_neg, hgroup]
    intro hinvalid
    rw [Bool.and_eq_true, Bool.not_eq_true', Bool.not_eq_true'] at hinvalid
    apply hlog
    refine ⟨?_, hinvalid.2⟩
    intro hundefined
    rw [hundefined] at hinvalid
    cases hinvalid.1

theorem checkDefaultShadow_iff (h : defaultShadow (value.member "shadow") = .ok shadow) :
    checkDefaultShadow shadow = .ok () ↔
      ¬ Invalid value .shadowRamp ∧ ¬ Invalid value .logMismatches ∧
        ¬ Invalid value .mismatchValue ∧ ¬ Invalid value .mismatchDiff := by
  have hunwritten : ∀ leaf, writtenLeaf value leaf = .undefined → ¬ Invalid value leaf :=
    fun _ hleaf hinvalid => hinvalid.1 hleaf
  rcases overlayShadowConfig_cases (overlayShadowConfig_of_defaultShadow h) with
    ⟨hvalue, rfl⟩ | ⟨hgroup, rfl⟩ | ⟨-, rfl⟩
  · refine iff_of_true rfl ⟨hunwritten _ ?_, hunwritten _ ?_, hunwritten _ ?_, hunwritten _ ?_⟩ <;>
      simp only [writtenLeaf, hvalue] <;> rfl
  · rw [checkDefaultShadow_some]
    refine and_congr Iff.rfl (and_congr Iff.rfl ?_)
    refine iff_of_true rfl ⟨hunwritten _ ?_, hunwritten _ ?_⟩ <;>
      simp only [writtenLeaf, hgroup] <;> rfl
  · rw [checkDefaultShadow_some, checkDefaultMismatchLogging_eq_ok]
    rfl

theorem Captured.valid (h : Captured value config) (leaf : DefaultLeaf) : ¬ Invalid value leaf := by
  have hlayer := fun layer => (checkDefaultLayer_eq_ok h.ttlSec h.ramp layer).mp (h.layers layer)
  obtain ⟨hramp, hlog, hvalue, hdiff⟩ := (checkDefaultShadow_iff h.shadow).mp h.shadowLeaves
  cases leaf with
  | ttlSec layer => exact (hlayer layer).1
  | ramp layer => exact (hlayer layer).2
  | staleOnErrorMaxAgeSec => exact (checkDefaultMaxAge_iff h.ttlSec).mp h.maxAge
  | shadowRamp => exact hramp
  | logMismatches => exact hlog
  | mismatchValue => exact hvalue
  | mismatchDiff => exact hdiff

/-- A default of the right shape is accepted exactly if no leaf of it is invalid. -/
theorem accepted_iff (h : WellShaped value) :
    (∃ captured, snapshotDefaultConfig value = .ok captured) ↔ ∀ leaf, ¬ Invalid value leaf := by
  obtain ⟨members, rfl⟩ : ∃ members, value = .object members := by
    have hshape := h.shape
    cases value with
    | object members => exact ⟨members, rfl⟩
    | _ => cases hshape
  constructor
  · intro haccepted leaf
    obtain ⟨captured, haccepted⟩ := haccepted
    obtain ⟨config, -, hconfig⟩ := snapshotDefaultConfig_eq_ok.mp haccepted
    exact hconfig.valid leaf
  · intro hvalid
    obtain ⟨-, hrenamed, ⟨requestLocal, hrequestLocal⟩, ⟨coalesce, hcoalesce⟩, httlSec, hramp,
      ⟨shadow, hshadow⟩, ⟨deadline, hdeadline⟩⟩ := h
    have hmap : ∀ name value, isPlainObject value = true → defaultLayerMap name value =
        .ok ⟨value.member "local", value.member "remote"⟩ := by
      intro name value hplain
      rw [defaultLayerMap, if_pos hplain]
    refine ⟨_, snapshotDefaultConfig_eq_ok.mpr ⟨⟨_, _, shadow, requestLocal, coalesce, _, deadline⟩,
      rfl, rfl, hrenamed, hrequestLocal, hcoalesce, hmap _ _ httlSec, hmap _ _ hramp, hshadow,
      hdeadline, ?_, ?_, ?_, rfl⟩⟩
    · intro layer
      exact (checkDefaultLayer_eq_ok (hmap _ _ httlSec) (hmap _ _ hramp) layer).mpr
        ⟨hvalid _, hvalid _⟩
    · exact (checkDefaultMaxAge_iff (hmap _ _ httlSec)).mpr (hvalid _)
    · exact (checkDefaultShadow_iff hshadow).mpr ⟨hvalid _, hvalid _, hvalid _, hvalid _⟩

/-! ### Resolution -/

theorem configuredRamp?_isSome {ramp : JsValue} :
    (configuredRamp? ramp).isSome = true ↔
      ¬ (ramp ≠ .undefined ∧ (percentage? ramp).isSome = false) := by
  by_cases hundefined : ramp = .undefined
  · simp [hundefined, configuredRamp?]
  · have hramp : configuredRamp? ramp = percentage? ramp := by
      cases ramp with
      | undefined => exact absurd rfl hundefined
      | _ => rfl
    rw [hramp]
    simp [hundefined, Option.isSome_iff_ne_none]

/-- The ways in which a layer resolves. -/
theorem resolveLayerConfigResult_cases (config : DialCacheKeyConfig) (urn : List UInt16)
    (layer : CacheLayer) :
    (config.ttlSec.leaf layer = .undefined ∧
        resolveLayerConfigResult (some config) urn layer = .disabled .policyDisabled) ∨
      ((config.ttlSec.leaf layer ≠ .undefined ∧
          isSupportedCacheTtlSec (config.ttlSec.leaf layer) = false) ∧
        resolveLayerConfigResult (some config) urn layer = .disabled .invalidTtl) ∨
      ((config.ramp.leaf layer ≠ .undefined ∧
          (percentage? (config.ramp.leaf layer)).isSome = false) ∧
        resolveLayerConfigResult (some config) urn layer = .disabled .invalidRamp) ∨
      ∃ base : ResolvedLayerConfig, (config.ttlSec.leaf layer).natural? = some base.ttlSec ∧
        (configuredRamp? (config.ramp.leaf layer)).isSome = true ∧
        (resolveLayerConfigResult (some config) urn layer = .enabled base ∨
          resolveLayerConfigResult (some config) urn layer = .rampedDown base) := by
  by_cases hdefined : config.ttlSec.leaf layer = .undefined
  · exact .inl ⟨hdefined, by simp only [resolveLayerConfigResult, hdefined]⟩
  cases hsupported : isSupportedCacheTtlSec (config.ttlSec.leaf layer) with
  | false =>
    refine .inr (.inl ⟨⟨hdefined, rfl⟩, resolveLayerConfigResult_invalidTtl hdefined ?_ urn⟩)
    intro n hn
    rw [isSupportedCacheTtlSec, hn] at hsupported
    exact of_decide_eq_false hsupported
  | true =>
    obtain ⟨ttlSec, hnatural, hrange⟩ := (Option.any_eq_true _ _).mp hsupported
    have hrange := of_decide_eq_true hrange
    rw [resolveLayerConfigResult_supported hnatural hrange]
    cases hramp : configuredRamp? (config.ramp.leaf layer) with
    | none =>
      refine .inr (.inr (.inl ⟨?_, rfl⟩))
      by_contra hvalid
      have hsome := configuredRamp?_isSome.mpr hvalid
      rw [hramp] at hsome
      cases hsome
    | some ramp =>
      refine .inr (.inr (.inr ⟨⟨ttlSec, ramp, hrange⟩, hnatural, rfl, ?_⟩))
      dsimp only
      split
      · exact .inr rfl
      split
      · exact .inl rfl
      split
      · exact .inl rfl
      · exact .inr rfl

theorem exceeds_iff {ttlSec : JsValue} {age seconds : ℕ} (hage : maxAge.natural? = some age)
    (hseconds : ttlSec.natural? = some seconds) :
    (isSupportedCacheTtlSec maxAge = true ∧ exceeds maxAge ttlSec = true) ↔
      seconds < age ∧ age ≤ maxCacheTtlSec := by
  rw [isSupportedCacheTtlSec, exceeds, hage, hseconds, Option.any_some, decide_eq_true_eq,
    decide_eq_true_eq]
  omega

theorem not_exceeds {ttlSec : JsValue} (hage : maxAge.natural? = none) :
    ¬ (isSupportedCacheTtlSec maxAge = true ∧ exceeds maxAge ttlSec = true) := by
  rw [isSupportedCacheTtlSec, hage]
  intro h
  cases h.1

/-- The recovery age beside a configured remote layer is an error exactly if its leaf is invalid,
and it is off then. -/
theorem resolveMaxAge_spec {ttlSec : JsValue} {base : ResolvedLayerConfig}
    (hseconds : ttlSec.natural? = some base.ttlSec) :
    ((resolveMaxAge maxAge base).2 = true ↔ maxAge ≠ .undefined ∧ ¬ (maxAge.natural? = some 0 ∨
        (isSupportedCacheTtlSec maxAge = true ∧ exceeds maxAge ttlSec = true))) ∧
      ((resolveMaxAge maxAge base).2 = true →
        (resolveMaxAge maxAge base).1.staleOnErrorMaxAgeSec = none) := by
  generalize hresolve : resolveMaxAge maxAge base = result
  rw [resolveMaxAge.eq_def] at hresolve
  dsimp only at hresolve
  split at hresolve
  · obtain rfl := hresolve
    simp
  · rename_i hdefined
    split at hresolve
    · rename_i hzero
      obtain rfl := hresolve
      simp [hzero]
    · rename_i hnone
      obtain rfl := hresolve
      refine ⟨iff_of_true rfl ⟨hdefined, ?_⟩, fun _ => rfl⟩
      rw [hnone]
      intro h
      rcases h with h | h
      · cases h
      · exact not_exceeds hnone h
    · rename_i age hpositive hage
      split at hresolve
      · rename_i hrange
        obtain rfl := hresolve
        refine ⟨iff_of_false Bool.false_ne_true ?_, fun h => by cases h⟩
        intro h
        exact h.2 (.inr ((exceeds_iff hage hseconds).mpr hrange))
      · rename_i hrange
        obtain rfl := hresolve
        refine ⟨iff_of_true rfl ⟨hdefined, ?_⟩, fun _ => rfl⟩
        intro h
        rcases h with h | h
        · rw [hage] at h
          exact hpositive (Option.some.inj h)
        · exact hrange ((exceeds_iff hage hseconds).mp h)

/-- The recovery of a remote layer that is configured. -/
theorem resolveRemote_configured {urn : List UInt16} {base : ResolvedLayerConfig}
    (h : resolveLayerConfigResult (some config) urn .REMOTE = .enabled base ∨
      resolveLayerConfigResult (some config) urn .REMOTE = .rampedDown base) :
    recoveryAge (resolveRemoteLayerConfigResult (some config) urn).1 =
        (resolveMaxAge config.staleOnErrorMaxAgeSec base).1.staleOnErrorMaxAgeSec ∧
      (resolveRemoteLayerConfigResult (some config) urn).2 =
        (resolveMaxAge config.staleOnErrorMaxAgeSec base).2 := by
  rw [resolveRemoteLayerConfigResult]
  rcases h with h | h
  · rw [h]
    exact ⟨rfl, rfl⟩
  · rw [h]
    exact ⟨rfl, rfl⟩

/-- The recovery of a remote layer that is disabled. -/
theorem resolveRemote_disabled {urn : List UInt16} {reason : DisabledReason}
    (h : resolveLayerConfigResult (some config) urn .REMOTE = .disabled reason) :
    recoveryAge (resolveRemoteLayerConfigResult (some config) urn).1 = none ∧
      ((resolveRemoteLayerConfigResult (some config) urn).2 = true ↔ reason = .policyDisabled ∧
        config.staleOnErrorMaxAgeSec ≠ .undefined ∧
        config.staleOnErrorMaxAgeSec.natural? ≠ some 0) := by
  rw [resolveRemoteLayerConfigResult, h]
  refine ⟨rfl, ?_⟩
  simp only [Option.map_some, Option.getD_some, Bool.and_eq_true, beq_iff_eq]
  refine and_congr Iff.rfl ?_
  cases config.staleOnErrorMaxAgeSec with
  | undefined => simp
  | _ => simp

/-- One serving layer of a resolution. -/
def outcome (resolved : Resolved) : CacheLayer → LayerOutcome
  | .LOCAL => resolved.onLocal
  | .REMOTE => resolved.onRemote

theorem outcome_resolve (config : Option DialCacheKeyConfig) (urn : List UInt16)
    (instanceTimeoutMs : ℕ) (layer : CacheLayer) :
    outcome (resolve config urn instanceTimeoutMs) layer =
      layerOutcome (resolveLayerConfigResult config urn layer) := by
  cases layer with
  | LOCAL => rfl
  | REMOTE => exact remoteOutcome_eq config urn

/-- A resolution without an error to report. -/
structure Clean (resolved : Resolved) : Prop where
  ttl : ∀ layer, (outcome resolved layer).reason ≠ some .invalidTtl
  ramp : ∀ layer, (outcome resolved layer).reason ≠ some .invalidRamp
  staleOnErrorConfigError : resolved.staleOnErrorConfigError = false
  shadowConfigError : resolved.shadowConfigError = false
  loggingConfigError : resolved.loggingConfigError = false

/-- What becomes of the feature of an invalid leaf. -/
def FeatureOff (value : JsValue) (resolved : Resolved) : DefaultLeaf → Prop
  | .ttlSec layer => (outcome resolved layer).enabled = false ∧ (outcome resolved layer).ttlSec = none
  | .ramp layer => (outcome resolved layer).enabled = false ∧ (outcome resolved layer).ttlSec = none
  | .staleOnErrorMaxAgeSec => resolved.staleOnErrorMaxAgeSec = none ∧
      (¬ Invalid value (.ttlSec .REMOTE) → ¬ Invalid value (.ramp .REMOTE) →
        resolved.staleOnErrorConfigError = true)
  | .shadowRamp => resolved.shadowAdmitted = false ∧ resolved.shadowConfigError = true
  | .logMismatches => resolved.loggingConfigError = true ∧
      (writtenLeaf value .mismatchValue = .undefined → resolved.mismatchValue = false) ∧
      (writtenLeaf value .mismatchDiff = .undefined → resolved.mismatchDiff = .off)
  | .mismatchValue => resolved.mismatchValue = false ∧ resolved.loggingConfigError = true
  | .mismatchDiff => resolved.mismatchDiff = .off ∧ resolved.loggingConfigError = true

section Held

variable {config : DialCacheKeyConfig} {value : JsValue} (h : Holds config value)
  (urn : List UInt16) (instanceTimeoutMs : ℕ)

include h

theorem layer_leaves (layer : CacheLayer) :
    config.ttlSec.leaf layer = writtenLeaf value (.ttlSec layer) ∧
      config.ramp.leaf layer = writtenLeaf value (.ramp layer) :=
  ⟨h.leaf (.ttlSec layer), h.leaf (.ramp layer)⟩

theorem layer_off (hinvalid : Invalid value (.ttlSec layer) ∨ Invalid value (.ramp layer)) :
    ∃ reason, resolveLayerConfigResult (some config) urn layer = .disabled reason := by
  obtain ⟨httl, hramp⟩ := layer_leaves h layer
  rcases resolveLayerConfigResult_cases config urn layer with ⟨-, hres⟩ | ⟨-, hres⟩ | ⟨-, hres⟩ |
    ⟨base, hnatural, hsome, -⟩
  · exact ⟨_, hres⟩
  · exact ⟨_, hres⟩
  · exact ⟨_, hres⟩
  · rcases hinvalid with hinvalid | hinvalid
    · have hsupported : isSupportedCacheTtlSec (config.ttlSec.leaf layer) = true := by
        rw [isSupportedCacheTtlSec, hnatural, Option.any_some]
        exact decide_eq_true base.supported
      rw [httl] at hsupported
      exact absurd (hsupported.symm.trans hinvalid.2) (by simp)
    · rw [hramp] at hsome
      exact absurd hinvalid (configuredRamp?_isSome.mp hsome)

theorem layer_clean (hvalid : ¬ Invalid value (.ttlSec layer))
    (hvalid' : ¬ Invalid value (.ramp layer)) :
    (config.ttlSec.leaf layer = .undefined ∧
        resolveLayerConfigResult (some config) urn layer = .disabled .policyDisabled) ∨
      ∃ base : ResolvedLayerConfig, (config.ttlSec.leaf layer).natural? = some base.ttlSec ∧
        (resolveLayerConfigResult (some config) urn layer = .enabled base ∨
          resolveLayerConfigResult (some config) urn layer = .rampedDown base) := by
  obtain ⟨httl, hramp⟩ := layer_leaves h layer
  rcases resolveLayerConfigResult_cases config urn layer with hunset | ⟨hinvalid, -⟩ |
    ⟨hinvalid, -⟩ | ⟨base, hnatural, -, hres⟩
  · exact .inl hunset
  · rw [httl] at hinvalid
    exact absurd hinvalid hvalid
  · rw [hramp] at hinvalid
    exact absurd hinvalid hvalid'
  · exact .inr ⟨base, hnatural, hres⟩

theorem maxAge_invalid_iff : Invalid value .staleOnErrorMaxAgeSec ↔
    config.staleOnErrorMaxAgeSec ≠ .undefined ∧ ¬ (config.staleOnErrorMaxAgeSec.natural? = some 0 ∨
      (isSupportedCacheTtlSec config.staleOnErrorMaxAgeSec = true ∧
        exceeds config.staleOnErrorMaxAgeSec (config.ttlSec.leaf .REMOTE) = true)) := by
  have hage : config.staleOnErrorMaxAgeSec = writtenLeaf value .staleOnErrorMaxAgeSec :=
    h.leaf .staleOnErrorMaxAgeSec
  have httl : config.ttlSec.leaf .REMOTE = writtenLeaf value (.ttlSec .REMOTE) :=
    h.leaf (.ttlSec .REMOTE)
  rw [hage, httl, Invalid, inDomain, decide_eq_false_iff_not]

/-- Recovery under valid remote leaves is an error exactly if its age is invalid. -/
theorem recovery_error_iff (hvalid : ¬ Invalid value (.ttlSec .REMOTE))
    (hvalid' : ¬ Invalid value (.ramp .REMOTE)) :
    (resolve (some config) urn instanceTimeoutMs).staleOnErrorConfigError = true ↔
      Invalid value .staleOnErrorMaxAgeSec := by
  change (resolveRemoteLayerConfigResult (some config) urn).2 = true ↔ _
  rw [maxAge_invalid_iff h]
  rcases layer_clean h urn hvalid hvalid' with ⟨hunset, hres⟩ | ⟨base, hnatural, hres⟩
  · rw [(resolveRemote_disabled hres).2]
    have hexceeds : exceeds config.staleOnErrorMaxAgeSec (config.ttlSec.leaf .REMOTE) = false := by
      rw [hunset]
      rfl
    simp [hexceeds]
  · rw [(resolveRemote_configured hres).2, (resolveMaxAge_spec hnatural).1]

theorem recovery_off_of_invalid (hinvalid : Invalid value .staleOnErrorMaxAgeSec) :
    (resolve (some config) urn instanceTimeoutMs).staleOnErrorMaxAgeSec = none := by
  change recoveryAge (resolveRemoteLayerConfigResult (some config) urn).1 = none
  rcases resolveLayerConfigResult_cases config urn .REMOTE with ⟨-, hres⟩ | ⟨-, hres⟩ | ⟨-, hres⟩ |
    ⟨base, hnatural, -, hres⟩
  · exact (resolveRemote_disabled hres).1
  · exact (resolveRemote_disabled hres).1
  · exact (resolveRemote_disabled hres).1
  · rw [(resolveRemote_configured hres).1]
    obtain ⟨herror, hoff⟩ := @resolveMaxAge_spec config.staleOnErrorMaxAgeSec _ _ hnatural
    exact hoff (herror.mpr ((maxAge_invalid_iff h).mp hinvalid))

theorem shadowRamp_eq : shadowRamp config.shadow = writtenLeaf value .shadowRamp :=
  h.leaf .shadowRamp

theorem shadow_of_invalid (hinvalid : Invalid value .shadowRamp) :
    shadowOutcome urn (shadowRamp config.shadow) = (false, true) := by
  have hnone : percentage? (writtenLeaf value .shadowRamp) = none :=
    Option.isSome_eq_false_iff.mp hinvalid.2 |> Option.isNone_iff_eq_none.mp
  rw [shadowRamp_eq h, shadowOutcome, isUndefined_eq_false hinvalid.1, hnone]
  rfl

theorem shadow_of_valid (hvalid : ¬ Invalid value .shadowRamp) :
    (shadowOutcome urn (shadowRamp config.shadow)).2 = false := by
  rw [shadowRamp_eq h, shadowOutcome]
  by_cases hundefined : writtenLeaf value .shadowRamp = .undefined
  · rw [hundefined]
    rfl
  · rw [isUndefined_eq_false hundefined]
    cases hpercentage : percentage? (writtenLeaf value .shadowRamp) with
    | none =>
      refine absurd ⟨hundefined, ?_⟩ hvalid
      rw [inDomain, hpercentage]
      rfl
    | some percentage => rfl

/-- The mismatch leaves of the policy, by the leaves and the shorthand that are written. -/
theorem mismatchLeaves_eq :
    mismatchLeaves config.shadow =
      ⟨(writtenLeaf value .mismatchValue).orElse (shorthandValue (writtenLeaf value .logMismatches)),
        (writtenLeaf value .mismatchDiff).orElse (shorthandDiff (writtenLeaf value .logMismatches)),
        malformed (writtenLeaf value .logMismatches)⟩ :=
  (MismatchLoggingLeaves.mk.injEq _ _ _ _ _ _).mpr
    ⟨h.leaf .mismatchValue, h.leaf .mismatchDiff, h.shorthand⟩

end Held

theorem malformed_iff :
    malformed leaf = true ↔ leaf ≠ .undefined ∧ inDomain value .logMismatches leaf = false := by
  cases leaf <;> simp [malformed, inDomain, isBoolean]

theorem resolveValueLeaf_isNone :
    (resolveValueLeaf leaf).isNone = true ↔ leaf ≠ .undefined ∧ isBoolean leaf = false := by
  cases leaf <;> simp [resolveValueLeaf, isBoolean]

theorem resolveDiffLeaf_isNone :
    (resolveDiffLeaf leaf).isNone = true ↔
      leaf ≠ .undefined ∧ (isShadowMismatchDiffLevel leaf).isSome = false := by
  by_cases hundefined : leaf = .undefined
  · simp [hundefined, resolveDiffLeaf]
  · have hleaf : resolveDiffLeaf leaf = isShadowMismatchDiffLevel leaf := by
      cases leaf with
      | undefined => exact absurd rfl hundefined
      | _ => rfl
    rw [hleaf]
    simp [hundefined]

theorem resolveDiffLeaf_off : resolveDiffLeaf (.string (text "off")) = some .off := by decide

/-- What a shorthand stands for is never an invalid leaf. -/
theorem resolve_shorthand (shorthand : JsValue) :
    (resolveValueLeaf (shorthandValue shorthand)).isNone = false ∧
      (resolveDiffLeaf (shorthandDiff shorthand)).isNone = false := by
  have hoff : (resolveDiffLeaf (.string (text "off"))).isNone = false := by
    rw [resolveDiffLeaf_off]
    rfl
  cases shorthand with
  | boolean flag =>
    cases flag with
    | false => exact ⟨rfl, hoff⟩
    | true => exact ⟨rfl, by decide⟩
  | undefined => exact ⟨rfl, rfl⟩
  | _ => exact ⟨rfl, hoff⟩

theorem resolve_malformed {shorthand : JsValue} (h : malformed shorthand = true) :
    resolveValueLeaf (shorthandValue shorthand) = some false ∧
      resolveDiffLeaf (shorthandDiff shorthand) = some .off := by
  cases shorthand with
  | boolean flag => cases h
  | undefined => cases h
  | _ => exact ⟨rfl, resolveDiffLeaf_off⟩

section Held

variable {config : DialCacheKeyConfig} {value : JsValue} (h : Holds config value)

include h

/-- The logging leaves resolve with an error exactly if one of the three is invalid. -/
theorem logging_error_iff :
    (mismatchLogging config.shadow).invalid = true ↔
      Invalid value .logMismatches ∨ Invalid value .mismatchValue ∨ Invalid value .mismatchDiff := by
  have hshorthand := resolve_shorthand (writtenLeaf value .logMismatches)
  rw [mismatchLogging_eq, mismatchLeaves_eq h]
  simp only [Bool.or_eq_true, or_assoc]
  refine or_congr malformed_iff (or_congr ?_ ?_)
  · by_cases hundefined : writtenLeaf value .mismatchValue = .undefined
    · rw [hundefined, undefined_orElse, hshorthand.1]
      simp [Invalid, hundefined]
    · rw [orElse_of_ne hundefined]
      exact resolveValueLeaf_isNone
  · by_cases hundefined : writtenLeaf value .mismatchDiff = .undefined
    · rw [hundefined, undefined_orElse, hshorthand.2]
      simp [Invalid, hundefined]
    · rw [orElse_of_ne hundefined]
      exact resolveDiffLeaf_isNone

theorem mismatchValue_off (hinvalid : Invalid value .mismatchValue) :
    (mismatchLogging config.shadow).value = false := by
  have hnone : resolveValueLeaf (writtenLeaf value .mismatchValue) = none :=
    Option.isNone_iff_eq_none.mp (resolveValueLeaf_isNone.mpr hinvalid)
  rw [mismatchLogging_eq, mismatchLeaves_eq h, orElse_of_ne hinvalid.1, hnone]
  rfl

theorem mismatchDiff_off (hinvalid : Invalid value .mismatchDiff) :
    (mismatchLogging config.shadow).diff = .off := by
  have hnone : resolveDiffLeaf (writtenLeaf value .mismatchDiff) = none :=
    Option.isNone_iff_eq_none.mp (resolveDiffLeaf_isNone.mpr hinvalid)
  rw [mismatchLogging_eq, mismatchLeaves_eq h, orElse_of_ne hinvalid.1, hnone]
  rfl

theorem shorthand_off (hinvalid : Invalid value .logMismatches) :
    (writtenLeaf value .mismatchValue = .undefined →
        (mismatchLogging config.shadow).value = false) ∧
      (writtenLeaf value .mismatchDiff = .undefined →
        (mismatchLogging config.shadow).diff = .off) := by
  obtain ⟨hvalue, hdiff⟩ := resolve_malformed (malformed_iff.mpr hinvalid)
  rw [mismatchLogging_eq, mismatchLeaves_eq h]
  constructor
  · intro hundefined
    rw [hundefined, undefined_orElse, hvalue]
    rfl
  · intro hundefined
    rw [hundefined, undefined_orElse, hdiff]
    rfl

/-- A policy without an invalid leaf resolves without an error. -/
theorem clean_of_valid (hvalid : ∀ leaf, ¬ Invalid value leaf) (urn : List UInt16)
    (instanceTimeoutMs : ℕ) : Clean (resolve (some config) urn instanceTimeoutMs) := by
  have hlayer : ∀ layer, (outcome (resolve (some config) urn instanceTimeoutMs) layer).reason ≠
        some .invalidTtl ∧
      (outcome (resolve (some config) urn instanceTimeoutMs) layer).reason ≠ some .invalidRamp := by
    intro layer
    rw [outcome_resolve]
    rcases layer_clean h urn (hvalid (.ttlSec layer)) (hvalid (.ramp layer)) with ⟨-, hres⟩ |
      ⟨base, -, hres | hres⟩
    all_goals
      rw [hres]
      simp [layerOutcome]
  refine ⟨fun layer => (hlayer layer).1, fun layer => (hlayer layer).2, ?_, ?_, ?_⟩
  · rw [← Bool.not_eq_true, recovery_error_iff h urn instanceTimeoutMs (hvalid _) (hvalid _)]
    exact hvalid _
  · exact shadow_of_valid h urn (hvalid _)
  · rw [← Bool.not_eq_true]
    intro herror
    rcases (logging_error_iff h).mp herror with hinvalid | hinvalid | hinvalid
    all_goals exact hvalid _ hinvalid

/-- An invalid leaf turns its feature off. -/
theorem featureOff_of_invalid {leaf : DefaultLeaf} (hinvalid : Invalid value leaf)
    (urn : List UInt16) (instanceTimeoutMs : ℕ) :
    FeatureOff value (resolve (some config) urn instanceTimeoutMs) leaf := by
  have hlayer : ∀ layer, Invalid value (.ttlSec layer) ∨ Invalid value (.ramp layer) →
      (outcome (resolve (some config) urn instanceTimeoutMs) layer).enabled = false ∧
        (outcome (resolve (some config) urn instanceTimeoutMs) layer).ttlSec = none := by
    intro layer hlayer
    obtain ⟨reason, hres⟩ := layer_off h urn hlayer
    rw [outcome_resolve, hres]
    exact ⟨rfl, rfl⟩
  cases leaf with
  | ttlSec layer => exact hlayer layer (.inl hinvalid)
  | ramp layer => exact hlayer layer (.inr hinvalid)
  | staleOnErrorMaxAgeSec =>
    refine ⟨recovery_off_of_invalid h urn instanceTimeoutMs hinvalid, ?_⟩
    intro hvalid hvalid'
    exact (recovery_error_iff h urn instanceTimeoutMs hvalid hvalid').mpr hinvalid
  | shadowRamp =>
    have hshadow := shadow_of_invalid h urn hinvalid
    exact ⟨congrArg Prod.fst hshadow, congrArg Prod.snd hshadow⟩
  | logMismatches =>
    exact ⟨(logging_error_iff h).mpr (.inl hinvalid), shorthand_off h hinvalid⟩
  | mismatchValue =>
    exact ⟨mismatchValue_off h hinvalid, (logging_error_iff h).mpr (.inr (.inl hinvalid))⟩
  | mismatchDiff =>
    exact ⟨mismatchDiff_off h hinvalid, (logging_error_iff h).mpr (.inr (.inr hinvalid))⟩

end Held

/-- An invalid shadow ramp schedules nothing but the report of the error. -/
theorem scheduleShadowValidation_invalid {V X : Type} (settings : Settings X) (plan : Plan)
    (start : ShadowValidationStart X) (readTimeoutMs : ℕ)
    (h : shadowOutcome plan.key.urn (shadowRamp (plan.keyConfig.bind (·.shadow))) = (false, true)) :
    scheduleShadowValidation (V := V) settings plan start readTimeoutMs =
      recordError plan.key .REMOTE .configResolution := by
  rw [scheduleShadowValidation]
  cases hshadow : plan.keyConfig.bind (·.shadow) with
  | none =>
    rw [hshadow] at h
    cases h
  | some shadow =>
    rw [hshadow] at h
    have hramp : shadowOutcome plan.key.urn shadow.ramp = (false, true) := h
    rw [shadowOutcome] at hramp
    by_cases hundefined : shadow.ramp = .undefined
    · rw [hundefined] at hramp
      cases hramp
    · rw [isUndefined_eq_false hundefined] at hramp
      cases hpercentage : percentage? shadow.ramp with
      | some percentage =>
        rw [hpercentage] at hramp
        cases (Prod.mk.inj hramp).2
      | none =>
        dsimp only
        split
        · rename_i hcase
          exact absurd hcase hundefined
        · simp only [hpercentage]

/-- A valid leaf is unwritten or a primitive. -/
def isPrimitive : JsValue → Bool
  | .array _ => false
  | .object _ => false
  | .foreign => false
  | _ => true

theorem isPrimitive_of_valid {leaf : DefaultLeaf} (h : ¬ Invalid value leaf) :
    isPrimitive (writtenLeaf value leaf) = true := by
  have hnumber : ∀ {written : JsValue}, isNumber written = true → isPrimitive written = true := by
    intro written hwritten
    cases written with
    | number x => rfl
    | _ => cases hwritten
  have hboolean : ∀ {written : JsValue}, isBoolean written = true → isPrimitive written = true := by
    intro written hwritten
    cases written with
    | boolean flag => rfl
    | _ => cases hwritten
  by_cases hundefined : writtenLeaf value leaf = .undefined
  · rw [hundefined]
    rfl
  · have hdomain : inDomain value leaf (writtenLeaf value leaf) = true := by
      by_contra hnot
      exact h ⟨hundefined, Bool.eq_false_iff.mpr hnot⟩
    cases leaf with
    | ttlSec layer => exact hnumber (isNumber_of_supported hdomain)
    | ramp layer => exact hnumber (isNumber_of_percentage hdomain)
    | staleOnErrorMaxAgeSec =>
      rcases of_decide_eq_true hdomain with hzero | hage
      · exact hnumber (isNumber_of_natural? hzero)
      · exact hnumber (isNumber_of_supported hage.1)
    | shadowRamp => exact hnumber (isNumber_of_percentage hdomain)
    | logMismatches | mismatchValue => exact hboolean hdomain
    | mismatchDiff =>
      generalize writtenLeaf value .mismatchDiff = written at hdomain
      cases written with
      | string units => rfl
      | _ => cases hdomain

end DialCache.StaticDefaults
