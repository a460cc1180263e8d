import DialCache.PolicyLeaves

/-!
# Policy resolution in TypeScript

The TypeScript code accepts the portable overlays, merges them leaf by leaf and resolves the
merged leaves as the portable definition does.
-/

namespace DialCache.PolicyLeaves

open UnicodeText JsValues JsonValues RuntimeConfig PortableKeys PolicyOverlays PolicyPorts
open RolloutCohorts

open Json

/-! ### Resolved leaves -/

theorem number_natural (q : ℚ) :
    (JsValue.number (.finite q)).natural? =
      if q.den = 1 ∧ 0 ≤ q.num ∧ q.num.natAbs ≤ JsNumber.maxSafeInteger then some q.num.toNat
      else none := by
  simp only [JsValue.natural?, JsNumber.safeInteger?]
  by_cases hsafe : q.den = 1 ∧ q.num.natAbs ≤ JsNumber.maxSafeInteger
  · rw [if_pos hsafe]
    by_cases hpos : 0 ≤ q.num
    · rw [if_pos ⟨hsafe.1, hpos, hsafe.2⟩]
      simp [hpos]
    · rw [if_neg fun h => hpos h.2.1]
      simp [hpos]
  · rw [if_neg hsafe, if_neg fun h => hsafe ⟨h.1, h.2.2⟩]
    rfl

theorem rat_eq_num {q : ℚ} (h : q.den = 1) : q = (q.num : ℚ) := Rat.ext (by simp) (by simp [h])

/-- A whole number in a range is the natural number that JavaScript reads. -/
theorem wholeNumber_eq_some_iff (value : Json) {max : ℕ} (hmax : max ≤ JsNumber.maxSafeInteger)
    (n : ℕ) : wholeNumber value max = some n ↔ (toJs value).natural? = some n ∧ 0 < n ∧ n ≤ max := by
  cases value with
  | number q =>
    rw [toJs, number_natural]
    change (if q.den = 1 ∧ 0 < q ∧ q ≤ max then some q.num.toNat else none) = some n ↔ _
    by_cases hint : q.den = 1
    · have hq := rat_eq_num hint
      have hpos : 0 < q ↔ 0 < q.num := Rat.num_pos.symm
      have hle : q ≤ max ↔ q.num ≤ max := by
        conv_lhs => rw [hq]
        exact_mod_cast Iff.rfl
      constructor
      · intro h
        split at h
        · rename_i hrange
          have hnum := Option.some.inj h
          have h0 := hpos.mp hrange.2.1
          have hm := hle.mp hrange.2.2
          rw [if_pos ⟨hint, by omega, by omega⟩, hnum]
          exact ⟨rfl, by omega, by omega⟩
        · cases h
      · intro h
        obtain ⟨hnat, h0, hm⟩ := h
        split at hnat
        · rename_i hrange
          have hnum := Option.some.inj hnat
          rw [if_pos ⟨hint, hpos.mpr (by omega), hle.mpr (by omega)⟩, hnum]
        · cases hnat
    · rw [if_neg fun h => hint h.1, if_neg fun h => hint h.1]
      simp
  | _ => simp [wholeNumber, asNumber?, toJs, JsValue.natural?]

theorem percentage_eq (value : Json) : percentage? (toJs value) = percentage value := by
  cases value with
  | number q => rfl
  | _ => rfl

theorem isZero_iff (value : Json) :
    (toJs value).natural? = some 0 ↔ value.asNumber? = some 0 := by
  cases value with
  | number q =>
    rw [toJs, number_natural]
    change _ ↔ some q = some 0
    constructor
    · intro h
      split at h
      · rename_i hrange
        have hnum := Option.some.inj h
        have hzero : q.num = 0 := by omega
        rw [Rat.num_eq_zero.mp hzero]
      · cases h
    · intro h
      obtain rfl := Option.some.inj h
      rfl
  | _ => simp [asNumber?, toJs, JsValue.natural?]

theorem plain_names : Plain "shadowRamp" ∧ Plain "ttlSec" ∧ Plain "ramp" ∧ Plain "shadow" ∧
    Plain "mismatchLogging" ∧ Plain "logMismatches" ∧ Plain "value" ∧ Plain "diff" ∧
    Plain "requestLocal" ∧ Plain "coalesce" ∧ Plain "staleOnErrorMaxAgeSec" ∧
    Plain "remoteReadTimeoutMs" ∧ Plain "local" ∧ Plain "remote" := by
  unfold Plain
  decide +kernel

theorem plain_layerText (layer : CacheLayer) : Plain (layerText layer) := by
  obtain ⟨_, _, _, _, _, _, _, _, _, _, _, _, hlocal, hremote⟩ := plain_names
  cases layer with
  | LOCAL => exact hlocal
  | REMOTE => exact hremote

theorem units_cohort (key : Text) (layer : CacheLayer) :
    units key ++ text ":" ++ layerName layer = cohortUnits key (layerText layer).toList := by
  have hsuffix : text ":" ++ layerName layer = units (':' :: (layerText layer).toList) := by
    cases layer <;> decide +kernel
  rw [List.append_assoc, hsuffix, cohortUnits, units, units, units, List.flatMap_append]

theorem units_shadow (key : Text) :
    units key ++ text ":shadow" = cohortUnits key "shadow".toList := by
  have hsuffix : text ":shadow" = units (':' :: "shadow".toList) := by decide +kernel
  rw [hsuffix, cohortUnits, units, units, units, List.flatMap_append]

theorem configuredRamp_leafToJs (ramp : Option Json) :
    configuredRamp? (leafToJs ramp) = rampSpec ramp := by
  cases ramp with
  | none => rfl
  | some leaf =>
    rw [rampSpec, ← percentage_eq]
    have hne := toJs_ne_undefined leaf
    change configuredRamp? (toJs leaf) = _
    generalize toJs leaf = js at hne
    cases js with
    | undefined => exact absurd rfl hne
    | _ => rfl

variable {config : DialCacheKeyConfig} {layer : CacheLayer}

/-- The outcome of a layer whose policy is valid. -/
theorem layerOutcome_of_valid {seconds : ℕ} {ramp : ℚ}
    (httl : (config.ttlSec.leaf layer).natural? = some seconds)
    (hsupported : 0 < seconds ∧ seconds ≤ maxCacheTtlSec)
    (hramp : configuredRamp? (config.ramp.leaf layer) = some ramp) (key : Text) :
    layerOutcome (resolveLayerConfigResult (some config) (units key) layer) =
      if sampled key (layerText layer) ramp then ⟨true, none, some seconds⟩
      else ⟨false, some .rampedDown, some seconds⟩ := by
  have hcases := TypeScript.resolveLayerConfigResult_cases httl hsupported hramp (units key)
  rw [units_cohort, ← sampled_iff] at hcases
  rcases hcases with ⟨hsampled, h⟩ | ⟨hrefused, h⟩
  · rw [h, if_pos hsampled]
    rfl
  · rw [h, if_neg hrefused]
    rfl

theorem wholeNumber_eq_none {value : Json} {max : ℕ} (hmax : max ≤ JsNumber.maxSafeInteger)
    (h : wholeNumber value max = none) {n : ℕ} (hn : (toJs value).natural? = some n) :
    ¬ (0 < n ∧ n ≤ max) := by
  intro hrange
  rw [(wholeNumber_eq_some_iff value hmax n).mpr ⟨hn, hrange⟩] at h
  cases h

theorem maxCacheTtlSec_le : maxCacheTtlSec ≤ JsNumber.maxSafeInteger := by decide

theorem maxTimerDelayMs_le : maxTimerDelayMs ≤ JsNumber.maxSafeInteger := by decide

theorem layerOutcome_eq {config : Option DialCacheKeyConfig} {ttl ramp : Option Json}
    (httl : policyLeaf config (.ttlSec layer) = leafToJs ttl)
    (hramp : policyLeaf config (.ramp layer) = leafToJs ramp) (key : Text) :
    layerOutcome (resolveLayerConfigResult config (units key) layer) =
      layerSpec ttl ramp (sampled key (layerText layer)) := by
  cases ttl with
  | none =>
    cases config with
    | none => rfl
    | some config =>
      have hundefined : config.ttlSec.leaf layer = .undefined := httl
      simp only [resolveLayerConfigResult, hundefined]
      rfl
  | some leaf =>
    cases config with
    | none => exact absurd httl.symm (toJs_ne_undefined leaf)
    | some config =>
      have hleaf : config.ttlSec.leaf layer = toJs leaf := httl
      have hrampLeaf : configuredRamp? (config.ramp.leaf layer) = rampSpec ramp := by
        rw [show config.ramp.leaf layer = leafToJs ramp from hramp, configuredRamp_leafToJs]
      simp only [layerSpec]
      cases hwhole : wholeNumber leaf maxCacheTtlSec with
      | none =>
        rw [resolveLayerConfigResult_invalidTtl (hleaf ▸ toJs_ne_undefined leaf)
          fun n hn => wholeNumber_eq_none maxCacheTtlSec_le hwhole (hleaf ▸ hn)]
        rfl
      | some seconds =>
        obtain ⟨hnatural, hsupported⟩ :=
          (wholeNumber_eq_some_iff leaf maxCacheTtlSec_le seconds).mp hwhole
        rw [← hleaf] at hnatural
        cases hspec : rampSpec ramp with
        | none =>
          rw [resolveLayerConfigResult_supported hnatural hsupported, hrampLeaf.trans hspec]
          rfl
        | some percentage =>
          exact layerOutcome_of_valid hnatural hsupported (hrampLeaf.trans hspec) key

theorem toJs_zero {age : Json} (h : age.asNumber? = some 0) : toJs age = .number (.finite 0) := by
  cases age with
  | number q =>
    obtain rfl := Option.some.inj h
    rfl
  | _ => cases h

theorem resolveMaxAge_defined {configured : JsValue} (h : configured ≠ .undefined)
    (base : ResolvedLayerConfig) :
    ((resolveMaxAge configured base).1.staleOnErrorMaxAgeSec, (resolveMaxAge configured base).2) =
      match configured.natural? with
      | some 0 => (none, false)
      | none => (none, true)
      | some maxAge =>
        if base.ttlSec < maxAge ∧ maxAge ≤ maxCacheTtlSec then (some maxAge, false)
        else (none, true) := by
  rw [resolveMaxAge.eq_2 _ _ h]
  cases configured.natural? with
  | none => rfl
  | some n =>
    cases n with
    | zero => rfl
    | succ n =>
      by_cases hrange : base.ttlSec < n + 1 ∧ n + 1 ≤ maxCacheTtlSec
      · simp only [hrange, and_self, dif_pos, if_pos]
      · simp only [hrange, dif_neg, not_false_iff, if_false]

/-- The recovery age over a layer whose policy is valid. -/
theorem resolveMaxAge_eq {age : Json} (h : age.asNumber? ≠ some 0) (base : ResolvedLayerConfig) :
    ((resolveMaxAge (toJs age) base).1.staleOnErrorMaxAgeSec, (resolveMaxAge (toJs age) base).2) =
      match wholeNumber age maxCacheTtlSec with
      | none => (none, true)
      | some seconds => if base.ttlSec < seconds then (some seconds, false) else (none, true) := by
  have hzero := mt (isZero_iff age).mp h
  rw [resolveMaxAge_defined (toJs_ne_undefined age)]
  cases hwhole : wholeNumber age maxCacheTtlSec with
  | none =>
    cases hnatural : (toJs age).natural? with
    | none => rfl
    | some n =>
      have hinvalid := wholeNumber_eq_none maxCacheTtlSec_le hwhole hnatural
      cases n with
      | zero => exact absurd hnatural hzero
      | succ n => exact if_neg fun hand => hinvalid ⟨Nat.succ_pos n, hand.2⟩
  | some seconds =>
    obtain ⟨hnatural, hpos, hle⟩ := (wholeNumber_eq_some_iff age maxCacheTtlSec_le seconds).mp hwhole
    rw [hnatural]
    cases seconds with
    | zero => exact absurd hpos (lt_irrefl 0)
    | succ n =>
      by_cases hlt : base.ttlSec < n + 1
      · simp only [hlt, hle, and_self, if_true]
      · simp only [hlt, false_and, if_false]

theorem recovery_eq {config : Option DialCacheKeyConfig} {age : Option Json}
    (hage : policyLeaf config .staleOnErrorMaxAgeSec = leafToJs age) (urn : List UInt16) :
    (recoveryAge (resolveRemoteLayerConfigResult config urn).1,
        (resolveRemoteLayerConfigResult config urn).2) =
      recoverySpec age (layerOutcome (resolveLayerConfigResult config urn .REMOTE)) := by
  have hleaf : (config.map (·.staleOnErrorMaxAgeSec)).getD .undefined = leafToJs age := hage
  rw [resolveRemoteLayerConfigResult, hleaf]
  have hreason := resolveLayerConfigResult_ne_configError config urn .REMOTE
  generalize resolveLayerConfigResult config urn .REMOTE = layer at hreason
  cases age with
  | none =>
    cases layer with
    | disabled reason => exact congrArg (Prod.mk none) (Bool.and_false _)
    | _ => rfl
  | some age =>
    rw [recoverySpec]
    by_cases hzero : age.asNumber? = some 0
    · rw [if_pos hzero, show leafToJs (some age) = toJs age from rfl, toJs_zero hzero]
      cases layer with
      | disabled reason => exact congrArg (Prod.mk none) (Bool.and_false _)
      | _ => rfl
    · rw [if_neg hzero]
      cases layer with
      | enabled base | rampedDown base => exact resolveMaxAge_eq hzero base
      | disabled reason =>
        have hunset : ((toJs age).natural? == some 0) = false :=
          beq_eq_false_iff_ne.mpr (mt (isZero_iff age).mp hzero)
        have hne := toJs_ne_undefined age
        rw [show leafToJs (some age) = toJs age from rfl]
        generalize toJs age = leaf at hunset hne ⊢
        cases leaf with
        | undefined => exact absurd rfl hne
        | _ =>
          simp only [hunset]
          cases reason <;> rfl

theorem shadow_eq {shadow : Option ShadowConfig} {ramp : Option Json}
    (hramp : shadowRamp shadow = leafToJs ramp) (key : Text) :
    shadowOutcome (units key) (shadowRamp shadow) = shadowSpec ramp (sampled key "shadow") := by
  rw [hramp, shadowOutcome]
  cases ramp with
  | none => rfl
  | some leaf =>
    have hne : leafToJs (some leaf) ≠ .undefined := toJs_ne_undefined leaf
    rw [isUndefined_eq_false hne, show leafToJs (some leaf) = toJs leaf from rfl, percentage_eq]
    simp only [shadowSpec]
    cases percentage leaf with
    | none => rfl
    | some ramp =>
      have hsampled : (ramp ≠ 0 ∧ ShadowValidation.shadowSampled (units key) ramp = true) ↔
          sampled key "shadow" ramp = true := by
        rw [TypeScript.shadowSampled_iff, units_shadow, sampled_iff]
        constructor
        · intro h
          exact h.2
        · intro h
          exact ⟨fun hzero => not_admitted_zero _ (hzero ▸ h), h⟩
      simp only [hsampled, Bool.decide_eq_true, Bool.false_eq_true, if_false]

variable (leaf : Option Json)

theorem resolveValueLeaf_eq : resolveValueLeaf (leafToJs leaf) = valueSpec leaf := by
  cases leaf with
  | none => rfl
  | some leaf => cases leaf <;> rfl

theorem units_eq_text_iff {name : String} (hname : Plain name) (spelling : String) :
    units spelling.toList = text name ↔ spelling = name := by
  constructor
  · intro h
    exact units_toList_inj (h.trans hname)
  · intro h
    rw [h, hname]

theorem plain_levels : Plain "off" ∧ Plain "paths" ∧ Plain "values" := by
  unfold Plain
  decide +kernel

theorem resolveDiffLeaf_eq : resolveDiffLeaf (leafToJs leaf) = diffSpec leaf := by
  cases leaf with
  | none => rfl
  | some leaf =>
    cases leaf with
    | string spelling =>
      change isShadowMismatchDiffLevel (.string (units spelling.toList)) = levelOf spelling
      simp only [isShadowMismatchDiffLevel, levelOf, units_eq_text_iff plain_levels.1,
        units_eq_text_iff plain_levels.2.1, units_eq_text_iff plain_levels.2.2]
    | _ => rfl

theorem mismatchLogging_eq {shadow : Option ShadowConfig} {value diff : Option Json}
    (hvalue : (mismatchLeaves shadow).value = leafToJs value)
    (hdiff : (mismatchLeaves shadow).diff = leafToJs diff) :
    mismatchLogging shadow = ⟨(valueSpec value).getD false, (diffSpec diff).getD .off,
      (mismatchLeaves shadow).invalid || (valueSpec value).isNone || (diffSpec diff).isNone⟩ := by
  rw [← resolveValueLeaf_eq, ← resolveDiffLeaf_eq, ← hvalue, ← hdiff]
  cases shadow <;> rfl

theorem asBool_of_flagValue {flag : Option Bool} {leaf : Option Json}
    (h : flagValue flag = leafToJs leaf) : leaf.bind asBool? = flag := by
  cases leaf with
  | none =>
    cases flag with
    | none => rfl
    | some flag => cases h
  | some leaf =>
    cases flag with
    | none => exact absurd h.symm (toJs_ne_undefined leaf)
    | some flag =>
      cases leaf with
      | bool value =>
        obtain rfl := JsValue.boolean.inj h
        rfl
      | _ => cases h

theorem wholeNumber_of_deadlineValue {deadline : Option DeadlineMs} {leaf : Option Json}
    (h : deadlineValue deadline = leafToJs leaf) :
    (leaf.bind fun leaf => wholeNumber leaf maxTimerDelayMs) = deadline.map (·.ms) := by
  cases leaf with
  | none =>
    cases deadline with
    | none => rfl
    | some deadline => cases h
  | some leaf =>
    cases deadline with
    | none => exact absurd h.symm (toJs_ne_undefined leaf)
    | some deadline =>
      have hnatural : (toJs leaf).natural? = some deadline.ms := by
        rw [← show _ = toJs leaf from h]
        exact JsValue.natural?_ofInt (deadline.le.trans maxTimerDelayMs_le)
      exact (wholeNumber_eq_some_iff leaf maxTimerDelayMs_le deadline.ms).mpr
        ⟨hnatural, deadline.pos, deadline.le⟩

/-- A resolution reads a policy by its leaves only. -/
theorem resolve_eq {config : Option DialCacheKeyConfig} {leaf : PolicyLeaf → Option Json}
    (h : ∀ name, policyLeaf config name = leafToJs (leaf name)) (key : Text)
    (instanceTimeoutMs : ℕ) :
    resolve config (units key) instanceTimeoutMs =
      resolveLeaves leaf (mismatchLeaves (config.bind (·.shadow))).invalid key instanceTimeoutMs := by
  have hlocal := layerOutcome_eq (h (.ttlSec .LOCAL)) (h (.ramp .LOCAL)) key
  have hremote := layerOutcome_eq (h (.ttlSec .REMOTE)) (h (.ramp .REMOTE)) key
  have hrecovery := recovery_eq (h .staleOnErrorMaxAgeSec) (units key)
  have hshadow := shadow_eq (h .shadowRamp) key
  have hlogging := mismatchLogging_eq (h .mismatchValue) (h .mismatchDiff)
  have hrequestLocal := asBool_of_flagValue (h .requestLocal)
  have hcoalesce := asBool_of_flagValue (h .coalesce)
  have hdeadline := wholeNumber_of_deadlineValue (h .remoteReadTimeoutMs)
  rw [hremote] at hrecovery
  rw [resolveLeaves, resolve, hlocal, remoteOutcome_eq, hremote, hshadow, hlogging, flagSpec, flagSpec,
    hrequestLocal, hcoalesce, hdeadline, ← show layerText .LOCAL = "local" from rfl,
    ← show layerText .REMOTE = "remote" from rfl, ← hrecovery]
  congr 1
  · cases config.bind (·.requestLocal) with
    | none => rfl
    | some flag => cases flag <;> rfl
  · cases config.bind (·.coalesce) with
    | none => rfl
    | some flag => cases flag <;> rfl

/-! ### Accepted overlays -/

theorem assertKeyConfig_ok_iff (overlay : Json) :
    assertKeyConfig (toJs overlay) = .ok () ↔
      overlay.asObject?.isSome = true ∧ overlay.get? "shadowRamp" = none := by
  rw [assertKeyConfig, hasOwn_toJs overlay plain_names.1]
  cases overlay with
  | object members =>
    cases hrenamed : (object members).get? "shadowRamp" with
    | none => simp [toJs, isPlainObject, asObject?]
    | some leaf => simp [toJs, isPlainObject]
  | _ => simp [toJs, isPlainObject, asObject?]

theorem mergeLayerConfig_ok_iff (defaults : Option LayerConfig) (leaf : Option Json) (name : String) :
    (∃ merged, mergeLayerConfig defaults (leafToJs leaf) name = .ok merged) ↔
      objectOrAbsent leaf = true := by
  cases leaf with
  | none => exact ⟨fun _ => rfl, fun _ => ⟨_, rfl⟩⟩
  | some leaf =>
    cases leaf with
    | object members => exact ⟨fun _ => rfl, fun _ => ⟨_, rfl⟩⟩
    | _ =>
      constructor
      · intro h
        obtain ⟨_, h⟩ := h
        cases h
      · intro h
        cases h

theorem booleanFlag_ok_iff (inherited : Option Bool) (leaf : Option Json) (name : String) :
    (∃ flag, booleanFlag name ((leafToJs leaf).orElse (flagValue inherited)) = .ok flag) ↔
      booleanOrAbsent leaf = true := by
  cases leaf with
  | none =>
    change (∃ flag, booleanFlag name (flagValue inherited) = .ok flag) ↔ _
    rw [booleanFlag_flagValue]
    exact ⟨fun _ => rfl, fun _ => ⟨_, rfl⟩⟩
  | some leaf =>
    cases leaf with
    | bool value => exact ⟨fun _ => rfl, fun _ => ⟨_, rfl⟩⟩
    | _ =>
      constructor
      · intro h
        obtain ⟨_, h⟩ := h
        cases h
      · intro h
        cases h

theorem deadlineMs_natural {leaf : JsValue} {ms : ℕ} (hnatural : leaf.natural? = some ms)
    (hrange : 0 < ms ∧ ms ≤ maxTimerDelayMs) (name : String) :
    deadlineMs name leaf = .ok (some ⟨ms, hrange.1, hrange.2⟩) := by
  cases leaf with
  | undefined => cases hnatural
  | _ =>
    simp only [deadlineMs, hnatural]
    exact dif_pos hrange

theorem mergedDeadline_ok_iff (inherited : Option DeadlineMs) (leaf : Option Json) :
    (∃ deadline, mergedDeadline inherited (leafToJs leaf) = .ok deadline) ↔
      deadlineOrAbsent leaf = true := by
  cases leaf with
  | none => exact ⟨fun _ => rfl, fun _ => ⟨_, rfl⟩⟩
  | some leaf =>
    have hne := toJs_ne_undefined leaf
    change (∃ deadline, mergedDeadline inherited (toJs leaf) = .ok deadline) ↔
      (wholeNumber leaf maxTimerDelayMs).isSome = true
    rw [mergedDeadline.eq_2 _ _ hne]
    constructor
    · intro h
      obtain ⟨deadline, h⟩ := h
      have hvalue : deadlineValue deadline = leafToJs (some leaf) := deadlineValue_of_deadlineMs h
      have hwhole := wholeNumber_of_deadlineValue hvalue
      cases deadline with
      | none => exact absurd hvalue.symm hne
      | some deadline => exact Option.isSome_of_eq_some hwhole
    · intro h
      obtain ⟨ms, hms⟩ := Option.isSome_iff_exists.mp h
      obtain ⟨hnatural, hrange⟩ := (wholeNumber_eq_some_iff leaf maxTimerDelayMs_le ms).mp hms
      apply Exists.intro (some ⟨ms, hrange.1, hrange.2⟩)
      exact deadlineMs_natural hnatural hrange _

theorem overlayShadowConfig_ok_iff :
    (∃ shadow, overlayShadowConfig (leafToJs leaf) = .ok shadow) ↔
      objectOrAbsent leaf = true ∧
        objectOrAbsent (leaf.bind (·.get? "mismatchLogging")) = true := by
  obtain ⟨_, _, _, _, hmismatchLogging, _⟩ := plain_names
  cases leaf with
  | none => exact ⟨fun _ => ⟨rfl, rfl⟩, fun _ => ⟨_, rfl⟩⟩
  | some leaf =>
    cases leaf with
    | object members =>
      have hgroup := member_toJs (object members) hmismatchLogging
      change (∃ shadow, overlayShadowConfig (.object (membersToJs members)) = .ok shadow) ↔
        true = true ∧ objectOrAbsent ((object members).get? "mismatchLogging") = true
      rw [overlayShadowConfig, show (JsValue.object (membersToJs members)).member "mismatchLogging" =
        leafToJs ((object members).get? "mismatchLogging") from hgroup]
      cases (object members).get? "mismatchLogging" with
      | none => exact ⟨fun _ => ⟨rfl, rfl⟩, fun _ => ⟨_, rfl⟩⟩
      | some group =>
        cases group with
        | object group => exact ⟨fun _ => ⟨rfl, rfl⟩, fun _ => ⟨_, rfl⟩⟩
        | _ =>
      constructor
      · intro h
        obtain ⟨_, h⟩ := h
        cases h
      · intro h
        cases h.2
    | _ =>
      constructor
      · intro h
        obtain ⟨_, h⟩ := h
        cases h
      · intro h
        cases h.1

/-- An overlay merges over any default exactly when it is accepted. -/
theorem mergeKeyConfig_ok_iff (defaults : Option DialCacheKeyConfig) (overlay : Json) :
    (∃ merged, mergeKeyConfig defaults (toJs overlay) = .ok merged) ↔ Accepted overlay := by
  obtain ⟨_, httlSec, hramp, hshadow, _, _, _, _, hrequestLocal, hcoalesce, _, htimeout, _, _⟩ :=
    plain_names
  constructor
  · intro h
    obtain ⟨merged, h⟩ := h
    obtain ⟨shape, ⟨shadow, hoverlay, _⟩, ttlSec, ramp, requestLocal, coalesce, timeout, _⟩ :=
      mergeKeyConfig_eq_ok.mp h
    rw [member_toJs overlay hshadow] at hoverlay
    rw [member_toJs overlay httlSec] at ttlSec
    rw [member_toJs overlay hramp] at ramp
    rw [member_toJs overlay hrequestLocal] at requestLocal
    rw [member_toJs overlay hcoalesce] at coalesce
    rw [member_toJs overlay htimeout] at timeout
    obtain ⟨hobject, hrenamed⟩ := (assertKeyConfig_ok_iff overlay).mp shape
    obtain ⟨hgroup, hlogging⟩ := (overlayShadowConfig_ok_iff _).mp ⟨_, hoverlay⟩
    exact ⟨hobject, hrenamed, (mergeLayerConfig_ok_iff _ _ _).mp ⟨_, ttlSec⟩,
      (mergeLayerConfig_ok_iff _ _ _).mp ⟨_, ramp⟩, hgroup, hlogging,
      (booleanFlag_ok_iff _ _ _).mp ⟨_, requestLocal⟩, (booleanFlag_ok_iff _ _ _).mp ⟨_, coalesce⟩,
      (mergedDeadline_ok_iff _ _).mp ⟨_, timeout⟩⟩
  · intro h
    obtain ⟨shadow, hoverlay⟩ := (overlayShadowConfig_ok_iff _).mpr ⟨h.shadow, h.mismatchLogging⟩
    obtain ⟨ttlSec, hmergedTtl⟩ :=
      (mergeLayerConfig_ok_iff (defaults.map (·.ttlSec)) _ "ttlSec").mpr h.ttlSec
    obtain ⟨ramp, hmergedRamp⟩ :=
      (mergeLayerConfig_ok_iff (defaults.map (·.ramp)) _ "ramp").mpr h.ramp
    obtain ⟨requestLocal, hflag⟩ :=
      (booleanFlag_ok_iff (defaults.bind (·.requestLocal)) _ "requestLocal").mpr h.requestLocal
    obtain ⟨coalesce, hcoalesced⟩ :=
      (booleanFlag_ok_iff (defaults.bind (·.coalesce)) _ "coalesce").mpr h.coalesce
    obtain ⟨timeout, hdeadline⟩ :=
      (mergedDeadline_ok_iff (defaults.bind (·.remoteReadTimeoutMs)) _).mpr h.remoteReadTimeoutMs
    rw [← member_toJs overlay hshadow] at hoverlay
    rw [← member_toJs overlay httlSec] at hmergedTtl
    rw [← member_toJs overlay hramp] at hmergedRamp
    rw [← member_toJs overlay hrequestLocal] at hflag
    rw [← member_toJs overlay hcoalesce] at hcoalesced
    rw [← member_toJs overlay htimeout] at hdeadline
    have hmerged : Merged defaults (toJs overlay) {
        ttlSec, ramp, requestLocal, coalesce
        remoteReadTimeoutMs := timeout
        shadow := mergeShadowConfig (defaults.bind (·.shadow)) shadow
        staleOnErrorMaxAgeSec := ((toJs overlay).member "staleOnErrorMaxAgeSec").orElse
          ((defaults.map (·.staleOnErrorMaxAgeSec)).getD .undefined) } :=
      ⟨(assertKeyConfig_ok_iff overlay).mpr ⟨h.shape, h.renamed⟩, ⟨shadow, hoverlay, rfl⟩, hmergedTtl,
        hmergedRamp, hflag, hcoalesced, hdeadline, rfl⟩
    exact ⟨_, mergeKeyConfig_eq_ok.mpr hmerged⟩

theorem shorthandValue_leafToJs :
    PolicyOverlays.shorthandValue (leafToJs leaf) = leafToJs (shorthandValue leaf) := by
  cases leaf with
  | none => rfl
  | some leaf =>
    cases leaf with
    | bool value => cases value <;> rfl
    | _ => rfl

theorem shorthandDiff_leafToJs :
    PolicyOverlays.shorthandDiff (leafToJs leaf) = leafToJs (shorthandDiff leaf) := by
  have hspelling : ∀ name, Plain name → JsValue.string (text name) = toJs (.string name) := by
    intro name hname
    rw [toJs, ← hname]
  cases leaf with
  | none => rfl
  | some leaf =>
    cases leaf with
    | bool value =>
      cases value with
      | false => exact hspelling "off" plain_levels.1
      | true => exact hspelling "values" plain_levels.2.2
    | _ => exact hspelling "off" plain_levels.1

theorem overlayLeaf_toJs (overlay : Json) (leaf : PolicyLeaf) :
    overlayLeaf (toJs overlay) leaf = leafToJs (writtenLeaf overlay leaf) := by
  obtain ⟨_, httlSec, hramp, hshadow, hmismatchLogging, hlogMismatches, hvalue, hdiff, hrequestLocal,
    hcoalesce, hage, htimeout, _, _⟩ := plain_names
  cases leaf with
  | ttlSec layer =>
    rw [overlayLeaf, member_toJs overlay httlSec, member_leafToJs _ (plain_layerText layer)]
    rfl
  | ramp layer =>
    rw [overlayLeaf, member_toJs overlay hramp, member_leafToJs _ (plain_layerText layer)]
    rfl
  | requestLocal => exact member_toJs overlay hrequestLocal
  | coalesce => exact member_toJs overlay hcoalesce
  | staleOnErrorMaxAgeSec => exact member_toJs overlay hage
  | remoteReadTimeoutMs => exact member_toJs overlay htimeout
  | shadowRamp =>
    rw [overlayLeaf, member_toJs overlay hshadow, member_leafToJs _ hramp]
    rfl
  | mismatchValue =>
    rw [overlayLeaf, member_toJs overlay hshadow, member_leafToJs _ hmismatchLogging,
      member_leafToJs _ hvalue, member_leafToJs _ hlogMismatches, shorthandValue_leafToJs,
      orElse_leafToJs]
    rfl
  | mismatchDiff =>
    rw [overlayLeaf, member_toJs overlay hshadow, member_leafToJs _ hmismatchLogging,
      member_leafToJs _ hdiff, member_leafToJs _ hlogMismatches, shorthandDiff_leafToJs,
      orElse_leafToJs]
    rfl

/-! ### Static policies -/

variable (policy : StaticPolicy)

theorem deadlineValue_static :
    deadlineValue (TypeScript.deadline policy) =
      leafToJs (policy.remoteReadTimeoutMs.map natural) := by
  rw [TypeScript.deadline]
  split
  · rename_i h
    exact congrArg (fun timeout => leafToJs (timeout.map natural)) h.symm
  · rename_i ms h
    exact congrArg (fun timeout => leafToJs (timeout.map natural)) h.symm

theorem mismatchLeaves_static (shadow : Option StaticShadow) :
    mismatchLeaves (shadow.map TypeScript.shadow) =
      ⟨leafToJs (groupValue ((shadow.bind (·.logMismatches)).map Json.bool)
          (((shadow.bind (·.mismatchLogging)).bind (·.value)).map Json.bool)),
        leafToJs (groupDiff ((shadow.bind (·.logMismatches)).map Json.bool)
          (((shadow.bind (·.mismatchLogging)).bind (·.diff)).map fun level =>
            Json.string (levelText level))), false⟩ := by
  cases shadow with
  | none => rfl
  | some shadow =>
    change expandMismatchLogging (TypeScript.shadow shadow) = _
    rw [expandMismatchLogging_eq, groupValue, groupDiff, ← orElse_leafToJs, ← orElse_leafToJs,
      ← shorthandValue_leafToJs, ← shorthandDiff_leafToJs]
    rcases shadow with ⟨ramp, _ | logMismatches, _ | group, _⟩ <;> rfl

theorem policyLeaf_static (leaf : PolicyLeaf) :
    policyLeaf (some (TypeScript.policy policy)) leaf = leafToJs (staticLeaf policy leaf) := by
  have hflag : ∀ flag : Option Bool, flagValue flag = leafToJs (flag.map Json.bool) := by
    intro flag
    cases flag <;> rfl
  cases leaf with
  | ttlSec layer => cases layer <;> rfl
  | ramp layer => cases layer <;> rfl
  | requestLocal => exact hflag policy.requestLocal
  | coalesce => exact hflag policy.coalesce
  | staleOnErrorMaxAgeSec => rfl
  | remoteReadTimeoutMs => exact deadlineValue_static policy
  | shadowRamp =>
    change ((policy.shadow.map TypeScript.shadow).map ShadowConfig.ramp).getD .undefined = _
    rw [staticLeaf]
    cases policy.shadow <;> rfl
  | mismatchValue => exact congrArg MismatchLoggingLeaves.value (mismatchLeaves_static policy.shadow)
  | mismatchDiff => exact congrArg MismatchLoggingLeaves.diff (mismatchLeaves_static policy.shadow)

/-! ### The invocation's policy -/

theorem malformed_leafToJs :
    PolicyOverlays.malformed (leafToJs leaf) = malformedShorthand leaf := by
  cases leaf with
  | none => rfl
  | some leaf => cases leaf <;> rfl

theorem invalid_merged {defaults : Option DialCacheKeyConfig} {overlay : Json}
    {merged : DialCacheKeyConfig} (h : mergeKeyConfig defaults (toJs overlay) = .ok merged) :
    (mismatchLeaves merged.shadow).invalid = malformedOverlay overlay := by
  obtain ⟨_, _, _, hshadow, _, hlogMismatches, _⟩ := plain_names
  obtain ⟨shadow, hoverlay, hmerged⟩ := (mergeKeyConfig_eq_ok.mp h).shadow
  rw [hmerged, (mergeShadowConfig_leaves (defaults.bind (·.shadow)) shadow).2.2.2,
    (overlayShadowConfig_leaves hoverlay).2.2.2, member_toJs overlay hshadow,
    member_leafToJs _ hlogMismatches, malformed_leafToJs, malformedOverlay]

theorem toOption_map_eq_ite {ε α β : Type} {result : Except ε α} {f : α → β} {accepted : Prop}
    [Decidable accepted] {b : β} (hok : ∀ a, result = .ok a → accepted ∧ f a = b)
    (haccepted : accepted → ∃ a, result = .ok a) :
    result.toOption.map f = if accepted then some b else none := by
  cases result with
  | ok a =>
    obtain ⟨h, hb⟩ := hok a rfl
    rw [if_pos h, ← hb]
    rfl
  | error e =>
    have hnot : ¬ accepted := by
      intro h
      obtain ⟨a, ha⟩ := haccepted h
      cases ha
    rw [if_neg hnot]
    rfl

theorem overlaid_toJs (key : CacheKeys.DialCacheKey) {overlay : Json} (h : overlay ≠ .null) :
    CacheTraversal.overlaid key (toJs overlay) =
      (mergeKeyConfig key.defaultConfig (toJs overlay)).map some := by
  cases overlay with
  | null => exact absurd rfl h
  | _ => rw [toJs]; rfl

/-- The TypeScript resolution of an overlay over a static policy. -/
theorem typescript_resolves (overlay : Option Json) {key : CacheKeys.DialCacheKey} {logical : Text}
    (hdefault : key.defaultConfig = some (TypeScript.policy policy))
    (hurn : key.urn = units logical) (instanceTimeoutMs : ℕ) :
    (CacheTraversal.overlaid key (leafToJs overlay)).toOption.map
        (fun config => resolve config key.urn instanceTimeoutMs) =
      resolvePolicy policy overlay logical instanceTimeoutMs := by
  have hstatic : resolve key.defaultConfig key.urn instanceTimeoutMs =
      resolveLeaves (staticLeaf policy) false logical instanceTimeoutMs := by
    rw [hdefault, hurn, resolve_eq (policyLeaf_static policy)]
    change resolveLeaves _ (mismatchLeaves (policy.shadow.map TypeScript.shadow)).invalid _ _ = _
    rw [mismatchLeaves_static]
  have hmerge : ∀ overlay : Json,
      ((mergeKeyConfig key.defaultConfig (toJs overlay)).map some).toOption.map
          (fun config => resolve config key.urn instanceTimeoutMs) =
        if Accepted overlay then some (resolveLeaves (mergedLeaf policy overlay)
          (malformedOverlay overlay) logical instanceTimeoutMs) else none := by
    intro overlay
    have hiff := mergeKeyConfig_ok_iff key.defaultConfig overlay
    apply toOption_map_eq_ite
    · intro config hconfig
      cases hmerged : mergeKeyConfig key.defaultConfig (toJs overlay) with
      | error e =>
        rw [hmerged] at hconfig
        cases hconfig
      | ok merged =>
        rw [hmerged] at hconfig
        obtain rfl := Except.ok.inj hconfig
        constructor
        · exact hiff.mp ⟨merged, hmerged⟩
        · have hleaves : ∀ leaf, policyLeaf (some merged) leaf =
              leafToJs (mergedLeaf policy overlay leaf) := by
            intro leaf
            rw [policyLeaf_merged hmerged, overlayLeaf_toJs, hdefault, policyLeaf_static,
              orElse_leafToJs, mergedLeaf]
          rw [hurn, resolve_eq hleaves]
          exact congrArg (resolveLeaves _ · _ _) (invalid_merged hmerged)
    · intro haccepted
      obtain ⟨merged, hmerged⟩ := hiff.mpr haccepted
      exact ⟨some merged, by rw [hmerged]; rfl⟩
  cases overlay with
  | none => exact congrArg some hstatic
  | some overlay =>
    by_cases hnull : overlay = .null
    · rw [hnull]
      exact congrArg some hstatic
    · rw [resolvePolicy_some policy hnull, ← hmerge overlay, ← overlaid_toJs key hnull]
      rfl

end DialCache.PolicyLeaves
