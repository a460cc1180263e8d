import DialCache.MemberPolicies

/-!
# Policy resolution in Python

A reply is first constructed as a policy of its own and then merged field by field. An overlay
under the portable names is constructed exactly when it is accepted, and the merged policy holds
the overlay's leaves over the static ones.
-/

namespace DialCache.PolicyLeaves

open UnicodeText JsonValues PortableKeys PolicyOverlays PolicyPorts RolloutCohorts
open RuntimeConfig (CacheLayer DisabledReason ShadowMismatchDiffLevel maxCacheTtlSec maxTimerDelayMs)
open KeyAgreement.Python (codePoints)

variable {members : Members}

variable (policy : StaticPolicy)

namespace Python

open PolicyPorts.Python

/-! ### Lookups -/

theorem get?_only (names : List String) (members : Members) (name : String) :
    (only names members).get? name =
      if name ∈ names then members.get? name else none := by
  induction names with
  | nil => rfl
  | cons first rest ih =>
    have hcons : only (first :: rest) members =
        ((members.get? first).map fun leaf => (first, leaf)).toList ++ only rest members := by
      rw [only, List.filterMap_cons]
      cases members.get? first <;> rfl
    rw [hcons]
    cases hfirst : members.get? first with
    | none =>
      change (only rest members).get? name = _
      rw [ih]
      by_cases hname : name = first
      · rw [hname, hfirst]
        simp
      · simp [hname]
    | some leaf =>
      change Members.get? ((first, leaf) :: only rest members) name = _
      rw [Members.get?_cons, ih]
      by_cases hname : name = first
      · rw [hname, hfirst]
        simp
      · simp [hname, Ne.symm hname]

theorem get?_update (base overlay : Members) (name : String) :
    (update base overlay).get? name =
      (overlay.get? name).or (base.get? name) := by
  induction overlay with
  | nil => rfl
  | cons member rest ih =>
    change (Members.insert (update base rest) member.1 member.2).get? name = _
    rw [Members.get?_insert, Members.get?_cons, ih]
    by_cases hname : member.1 = name
    · rw [if_pos hname, if_pos hname]
      rfl
    · rw [if_neg hname, if_neg hname]

/-! ### Numeric domains -/

variable {value : Json}

theorem safeInteger_iff {max : ℕ} (hmax : (max : ℚ) ≤ maxSafeInteger) {n : ℕ} :
    wholeNumber value max = some n ↔
      ∃ seconds, safeInteger? value = some seconds ∧ (0 < seconds ∧ seconds ≤ (max : ℤ)) ∧
        seconds.toNat = n := by
  rw [wholeNumber, safeInteger?]
  cases value.asNumber? with
  | none => simp
  | some q =>
    simp only
    by_cases hint : q.den = 1
    · have hq := rat_eq_num hint
      have hpos : 0 < q ↔ 0 < q.num := Rat.num_pos.symm
      have hle : q ≤ max ↔ q.num ≤ max := by
        conv_lhs => rw [hq]
        exact_mod_cast Iff.rfl
      constructor
      · intro h
        split at h
        · rename_i hrange
          have habs : |q| ≤ maxSafeInteger := by
            rw [abs_of_pos hrange.2.1]
            exact hrange.2.2.trans hmax
          rw [if_pos ⟨habs, hint⟩]
          exact ⟨q.num, rfl, ⟨hpos.mp hrange.2.1, hle.mp hrange.2.2⟩, Option.some.inj h⟩
        · cases h
      · intro h
        obtain ⟨seconds, hseconds, hrange, hn⟩ := h
        split at hseconds
        · obtain rfl := Option.some.inj hseconds
          rw [if_pos ⟨hint, hpos.mpr hrange.1, hle.mpr hrange.2⟩, hn]
        · cases hseconds
    · rw [if_neg fun h => hint h.1, if_neg fun h => hint h.2]
      simp

theorem maxCacheTtlSec_safe : ((maxCacheTtlSec : ℕ) : ℚ) ≤ maxSafeInteger := by
  rw [maxCacheTtlSec, maxSafeInteger]
  norm_num

theorem maxTimerDelayMs_safe : ((maxTimerDelayMs : ℕ) : ℚ) ≤ maxSafeInteger := by
  rw [maxTimerDelayMs, maxSafeInteger]
  norm_num

variable {name : String}

theorem validateDeadlineMs_eq_ok {ms : ℕ} :
    validateDeadlineMs value name = .ok ms ↔ wholeNumber value maxTimerDelayMs = some ms := by
  rw [validateDeadlineMs, safeInteger_iff maxTimerDelayMs_safe]
  cases safeInteger? value with
  | none => simp
  | some n =>
    simp only
    by_cases hrange : n ≤ 0 ∨ (maxTimerDelayMs : ℤ) < n
    · rw [if_pos hrange]
      constructor
      · intro h
        cases h
      · intro h
        obtain ⟨seconds, hseconds, hin, _⟩ := h
        obtain rfl := Option.some.inj hseconds
        omega
    · rw [if_neg hrange]
      constructor
      · intro h
        exact ⟨n, rfl, by omega, Except.ok.inj h⟩
      · intro h
        obtain ⟨seconds, hseconds, _, hms⟩ := h
        obtain rfl := Option.some.inj hseconds
        rw [hms]

theorem isSupportedCacheTtlSec_eq (value : Json) :
    PolicyPorts.Python.isSupportedCacheTtlSec value = (wholeNumber value maxCacheTtlSec).isSome := by
  rw [Bool.eq_iff_iff, Option.isSome_iff_exists, PolicyPorts.Python.isSupportedCacheTtlSec]
  simp only [safeInteger_iff maxCacheTtlSec_safe]
  cases safeInteger? value with
  | none => simp
  | some n => simp

/-! ### Construction -/

def layersOf (value : Option Json) : Members :=
  match value.bind Json.asObject? with
  | none => []
  | some members => only ["local", "remote"] members

theorem layerMap_eq_ok {value : Option Json} :
    layerMap value name = .ok members ↔ objectOrAbsent value = true ∧ layersOf value = members := by
  cases value with
  | none => simp [layerMap, objectOrAbsent, layersOf]
  | some value => cases value <;> simp [layerMap, objectOrAbsent, layersOf, Json.asObject?]

theorem get?_layersOf (value : Option Json) (layer : CacheLayer) :
    (layersOf value).get? (layerText layer) = value.bind (·.get? (layerText layer)) := by
  have hlayer : layerText layer ∈ ["local", "remote"] := by cases layer <;> simp [layerText]
  cases value with
  | none => rfl
  | some value =>
    cases value with
    | object members =>
      change (only ["local", "remote"] members).get? _ = _
      rw [get?_only, if_pos hlayer]
      rfl
    | _ => rfl

/-- The group of a shadow object that is read under either name. -/
def groupOf (value : Option Json) : Option Json :=
  (value.bind Json.asObject?).bind fun members => aliased members "mismatch_logging" "mismatchLogging"

def shadowOf (value : Option Json) : Option Members :=
  (value.bind Json.asObject?).map fun members =>
    Members.insert? (Members.insert? (Members.insert? [] "ramp" (members.get? "ramp"))
      "log_mismatches" (aliased members "log_mismatches" "logMismatches")) "mismatch_logging"
      (((aliased members "mismatch_logging" "mismatchLogging").bind Json.asObject?).map fun group =>
        Json.object (only ["value", "diff"] group))

theorem shadowMap_eq_ok {value : Option Json} {shadow : Option Members} :
    shadowMap value = .ok shadow ↔
      (objectOrAbsent value = true ∧ objectOrAbsent (groupOf value) = true) ∧ shadowOf value = shadow := by
  cases value with
  | none => simp [shadowMap, objectOrAbsent, groupOf, shadowOf]
  | some value =>
    cases value with
    | object members =>
      simp only [shadowMap, groupOf, shadowOf, Json.asObject?, Option.bind_some, Option.map_some]
      cases aliased members "mismatch_logging" "mismatchLogging" with
      | none => simp [normalizedMismatchLogging, objectOrAbsent, Json.asObject?, bind, Except.bind, pure,
          Except.pure]
      | some group =>
        cases group <;> simp [normalizedMismatchLogging, mismatchLoggingMap, objectOrAbsent,
          Json.asObject?, Except.map, bind, Except.bind, pure, Except.pure]
    | _ => simp [shadowMap, objectOrAbsent, Json.asObject?]

theorem booleanField_eq_ok {value : Option Json} {flag : Option Bool} :
    booleanField value name = .ok flag ↔
      booleanOrAbsent value = true ∧ value.bind Json.asBool? = flag := by
  cases value with
  | none => simp [booleanField, booleanOrAbsent]
  | some value => cases value <;> simp [booleanField, booleanOrAbsent, Json.asBool?]

theorem deadlineField_eq_ok {value : Option Json} {ms : Option ℕ} :
    deadlineField value = .ok ms ↔
      deadlineOrAbsent value = true ∧ (value.bind fun leaf => wholeNumber leaf maxTimerDelayMs) = ms := by
  cases value with
  | none => simp [deadlineField, deadlineOrAbsent]
  | some value =>
    rw [deadlineField, deadlineOrAbsent, Option.all_some, Option.bind_some]
    cases hwhole : wholeNumber value maxTimerDelayMs with
    | none =>
      cases hvalidate : validateDeadlineMs value "remote_read_timeout_ms" with
      | error e => simp [Except.map]
      | ok ms =>
        rw [validateDeadlineMs_eq_ok.mp hvalidate] at hwhole
        cases hwhole
    | some ms' =>
      rw [validateDeadlineMs_eq_ok.mpr hwhole]
      simp [Except.map]

/-- The policy that valid fields construct. -/
def constructed (fields : Fields) : Policy :=
  ⟨layersOf fields.ttlSec, layersOf fields.ramp, fields.requestLocal.bind Json.asBool?,
    fields.coalesce.bind Json.asBool?, fields.staleOnErrorMaxAgeSec,
    fields.remoteReadTimeoutMs.bind fun leaf => wholeNumber leaf maxTimerDelayMs,
    shadowOf fields.shadow⟩

/-- The fields that the constructor accepts. -/
structure Valid (fields : Fields) : Prop where
  ttlSec : objectOrAbsent fields.ttlSec = true
  ramp : objectOrAbsent fields.ramp = true
  shadow : objectOrAbsent fields.shadow = true
  mismatchLogging : objectOrAbsent (groupOf fields.shadow) = true
  requestLocal : booleanOrAbsent fields.requestLocal = true
  coalesce : booleanOrAbsent fields.coalesce = true
  remoteReadTimeoutMs : deadlineOrAbsent fields.remoteReadTimeoutMs = true

theorem construct_eq_ok {fields : Fields} {policy : Policy} :
    construct fields = .ok policy ↔ Valid fields ∧ constructed fields = policy := by
  rw [construct]
  constructor
  · intro h
    obtain ⟨_, httlSec, h⟩ := bind_eq_ok.mp h
    obtain ⟨_, hramp, h⟩ := bind_eq_ok.mp h
    obtain ⟨_, hshadow, h⟩ := bind_eq_ok.mp h
    obtain ⟨_, hrequestLocal, h⟩ := bind_eq_ok.mp h
    obtain ⟨_, hcoalesce, h⟩ := bind_eq_ok.mp h
    obtain ⟨_, hdeadline, h⟩ := bind_eq_ok.mp h
    obtain ⟨hisTtl, rfl⟩ := layerMap_eq_ok.mp httlSec
    obtain ⟨hisRamp, rfl⟩ := layerMap_eq_ok.mp hramp
    obtain ⟨⟨hisShadow, hisGroup⟩, rfl⟩ := shadowMap_eq_ok.mp hshadow
    obtain ⟨hisRequestLocal, rfl⟩ := booleanField_eq_ok.mp hrequestLocal
    obtain ⟨hisCoalesce, rfl⟩ := booleanField_eq_ok.mp hcoalesce
    obtain ⟨hisDeadline, rfl⟩ := deadlineField_eq_ok.mp hdeadline
    exact ⟨⟨hisTtl, hisRamp, hisShadow, hisGroup, hisRequestLocal, hisCoalesce, hisDeadline⟩,
      Except.ok.inj h⟩
  · intro h
    obtain ⟨⟨httlSec, hramp, hshadow, hgroup, hrequestLocal, hcoalesce, hdeadline⟩, rfl⟩ := h
    exact bind_eq_ok.mpr ⟨_, layerMap_eq_ok.mpr ⟨httlSec, rfl⟩, bind_eq_ok.mpr ⟨_,
      layerMap_eq_ok.mpr ⟨hramp, rfl⟩, bind_eq_ok.mpr ⟨_, shadowMap_eq_ok.mpr ⟨⟨hshadow, hgroup⟩, rfl⟩,
        bind_eq_ok.mpr ⟨_, booleanField_eq_ok.mpr ⟨hrequestLocal, rfl⟩, bind_eq_ok.mpr ⟨_,
          booleanField_eq_ok.mpr ⟨hcoalesce, rfl⟩, bind_eq_ok.mpr ⟨_,
            deadlineField_eq_ok.mpr ⟨hdeadline, rfl⟩, rfl⟩⟩⟩⟩⟩⟩

/-! ### The leaves that a policy holds -/

def heldLeaf (policy : Policy) : PolicyLeaf → Option Json
  | .ttlSec layer => policy.ttlSec.get? (layerText layer)
  | .ramp layer => policy.ramp.get? (layerText layer)
  | .requestLocal => policy.requestLocal.map Json.bool
  | .coalesce => policy.coalesce.map Json.bool
  | .staleOnErrorMaxAgeSec => policy.staleOnErrorMaxAgeSec
  | .remoteReadTimeoutMs => policy.remoteReadTimeoutMs.map natural
  | .shadowRamp => (policy.shadow.getD []).get? "ramp"
  | .mismatchValue => (expandMismatchLogging (policy.shadow.getD [])).value
  | .mismatchDiff => (expandMismatchLogging (policy.shadow.getD [])).diff

/-- The shorthand of a shadow object that is read under either name. -/
def shorthandOf (value : Option Json) : Option Json :=
  (value.bind Json.asObject?).bind fun members => aliased members "log_mismatches" "logMismatches"

/-- The leaves that constructor arguments write. -/
def fieldLeaf (fields : Fields) : PolicyLeaf → Option Json
  | .ttlSec layer => fields.ttlSec.bind (·.get? (layerText layer))
  | .ramp layer => fields.ramp.bind (·.get? (layerText layer))
  | .requestLocal => fields.requestLocal
  | .coalesce => fields.coalesce
  | .staleOnErrorMaxAgeSec => fields.staleOnErrorMaxAgeSec
  | .remoteReadTimeoutMs => fields.remoteReadTimeoutMs
  | .shadowRamp => fields.shadow.bind (·.get? "ramp")
  | .mismatchValue => groupValue (shorthandOf fields.shadow) ((groupOf fields.shadow).bind (·.get? "value"))
  | .mismatchDiff => groupDiff (shorthandOf fields.shadow) ((groupOf fields.shadow).bind (·.get? "diff"))

theorem expandMismatchLogging_eq (shadow : Members) :
    expandMismatchLogging shadow =
      ⟨groupValue (shadow.get? "log_mismatches")
          ((shadow.get? "mismatch_logging").bind (·.get? "value")),
        groupDiff (shadow.get? "log_mismatches")
          ((shadow.get? "mismatch_logging").bind (·.get? "diff")),
        malformedShorthand (shadow.get? "log_mismatches")⟩ := by
  rw [expandMismatchLogging, shorthandLeaves_eq]
  cases shadow.get? "mismatch_logging" <;> rfl

theorem get?_shadowMembers (ramp shorthand group : Option Json) :
    let shadow := Members.insert? (Members.insert? (Members.insert? [] "ramp" ramp)
      "log_mismatches" shorthand) "mismatch_logging" group
    shadow.get? "ramp" = ramp ∧ shadow.get? "log_mismatches" = shorthand ∧
      shadow.get? "mismatch_logging" = group ∧
      aliased shadow "log_mismatches" "logMismatches" = shorthand ∧
      aliased shadow "mismatch_logging" "mismatchLogging" = group := by
  simp [aliased, Members.get?_insert?]

theorem get?_shadowOf (value : Option Json) :
    let shadow := (shadowOf value).getD []
    shadow.get? "ramp" = value.bind (·.get? "ramp") ∧
      shadow.get? "log_mismatches" = shorthandOf value ∧
      (shadow.get? "mismatch_logging").bind (·.get? "value") =
        (groupOf value).bind (·.get? "value") ∧
      (shadow.get? "mismatch_logging").bind (·.get? "diff") =
        (groupOf value).bind (·.get? "diff") := by
  have honly : ∀ (group : Option Json) (name : String), name ∈ ["value", "diff"] →
      (((group.bind Json.asObject?).map fun group => Json.object (only ["value", "diff"] group)).bind
        (·.get? name)) = group.bind (·.get? name) := by
    intro group name hname
    cases group with
    | none => rfl
    | some group =>
      cases group with
      | object members =>
        change (only ["value", "diff"] members).get? name = _
        rw [get?_only, if_pos hname]
        rfl
      | _ => rfl
  rw [shadowOf, shorthandOf, groupOf]
  cases value with
  | none => exact ⟨rfl, rfl, rfl, rfl⟩
  | some value =>
    cases value with
    | object members =>
      obtain ⟨hramp, hshorthand, hgroup, -⟩ := get?_shadowMembers (Members.get? members "ramp")
        (aliased members "log_mismatches" "logMismatches")
        (((aliased members "mismatch_logging" "mismatchLogging").bind Json.asObject?).map fun group =>
          Json.object (only ["value", "diff"] group))
      refine ⟨hramp, hshorthand, ?_, ?_⟩
      · exact (congrArg (Option.bind · (·.get? "value")) hgroup).trans (honly _ "value" (by simp))
      · exact (congrArg (Option.bind · (·.get? "diff")) hgroup).trans (honly _ "diff" (by simp))
    | _ => exact ⟨rfl, rfl, rfl, rfl⟩

theorem map_natural_wholeNumber {max : ℕ} (h : (wholeNumber value max).isSome = true) :
    (wholeNumber value max).map natural = some value := by
  have hrange := finiteRange_whole value max
  obtain ⟨n, hn⟩ := Option.isSome_iff_exists.mp h
  rw [hn] at hrange ⊢
  cases value with
  | number q =>
    rw [finiteRange] at hrange
    simp only [Json.asNumber?] at hrange
    split at hrange
    · rw [Option.some.inj hrange]
      rfl
    · cases hrange
  | _ => cases hrange

theorem heldLeaf_constructed {fields : Fields} (h : Valid fields) (leaf : PolicyLeaf) :
    heldLeaf (constructed fields) leaf = fieldLeaf fields leaf := by
  have hflag : ∀ {value : Option Json}, booleanOrAbsent value = true →
      (value.bind Json.asBool?).map Json.bool = value := by
    intro value hvalue
    cases value with
    | none => rfl
    | some value =>
      cases value with
      | bool flag => rfl
      | _ => cases hvalue
  obtain ⟨hramp, hlog, hvalue, hdiff⟩ := get?_shadowOf fields.shadow
  cases leaf with
  | ttlSec layer => exact get?_layersOf fields.ttlSec layer
  | ramp layer => exact get?_layersOf fields.ramp layer
  | requestLocal => exact hflag h.requestLocal
  | coalesce => exact hflag h.coalesce
  | staleOnErrorMaxAgeSec => rfl
  | remoteReadTimeoutMs =>
    have hdeadline := h.remoteReadTimeoutMs
    change (fields.remoteReadTimeoutMs.bind _).map natural = fields.remoteReadTimeoutMs
    cases htimeout : fields.remoteReadTimeoutMs with
    | none => rfl
    | some value =>
      rw [htimeout] at hdeadline
      exact map_natural_wholeNumber hdeadline
  | shadowRamp => exact hramp
  | mismatchValue =>
    change (expandMismatchLogging ((shadowOf fields.shadow).getD [])).value = _
    rw [expandMismatchLogging_eq, hlog, hvalue]
    rfl
  | mismatchDiff =>
    change (expandMismatchLogging ((shadowOf fields.shadow).getD [])).diff = _
    rw [expandMismatchLogging_eq, hlog, hdiff]
    rfl

theorem invalid_constructed (fields : Fields) :
    (expandMismatchLogging ((constructed fields).shadow.getD [])).invalid =
      malformedShorthand (shorthandOf fields.shadow) := by
  change (expandMismatchLogging ((shadowOf fields.shadow).getD [])).invalid = _
  rw [expandMismatchLogging_eq, (get?_shadowOf fields.shadow).2.1]

/-! ### Merging -/

/-- The merged group when either side has one. -/
def mergedShadow (defaults runtime : Members) : Members :=
  withGroup (shadowHead defaults runtime "log_mismatches")
    ((expandMismatchLogging runtime).value.or (expandMismatchLogging defaults).value)
    ((expandMismatchLogging runtime).diff.or (expandMismatchLogging defaults).diff) "mismatch_logging"

theorem mergeShadow_eq (base overlay : Option Members) :
    mergeShadow base overlay = none ∧ base = none ∧ overlay = none ∨
      mergeShadow base overlay = some (mergedShadow (base.getD []) (overlay.getD [])) := by
  have hinvalid : ∀ runtime, (expandMismatchLogging runtime).invalid =
      malformedShorthand (runtime.get? "log_mismatches") := by
    intro runtime
    rw [expandMismatchLogging_eq]
  cases base with
  | none =>
    cases overlay with
    | none => exact Or.inl ⟨rfl, rfl, rfl⟩
    | some overlay =>
      right
      rw [mergeShadow, hinvalid]
      · rfl
      · intro _ h
        cases h
  | some base =>
    right
    rw [mergeShadow, hinvalid]
    · rfl
    · intro h
      cases h

/-- The leaves that a merged group writes when it is constructed again. -/
theorem leaves_mergedShadow (defaults runtime : Members) :
    let merged := some (Json.object (mergedShadow defaults runtime))
    merged.bind (·.get? "ramp") = (runtime.get? "ramp").or (defaults.get? "ramp") ∧
      objectOrAbsent (groupOf merged) = true ∧
      groupValue (shorthandOf merged) ((groupOf merged).bind (·.get? "value")) =
        (expandMismatchLogging runtime).value.or (expandMismatchLogging defaults).value ∧
      groupDiff (shorthandOf merged) ((groupOf merged).bind (·.get? "diff")) =
        (expandMismatchLogging runtime).diff.or (expandMismatchLogging defaults).diff ∧
      malformedShorthand (shorthandOf merged) =
        malformedShorthand (runtime.get? "log_mismatches") := by
  intro merged
  obtain ⟨hramp, hlog, hvalue, hdiff, hobject, hnone⟩ := get?_mergedGroup defaults runtime
    ((expandMismatchLogging runtime).value.or (expandMismatchLogging defaults).value)
    ((expandMismatchLogging runtime).diff.or (expandMismatchLogging defaults).diff)
    (by decide : ["ramp", "log_mismatches", "mismatch_logging"].Nodup)
  rw [← mergedShadow] at hramp hlog hvalue hdiff hobject hnone
  have hshorthand : shorthandOf merged = if malformedShorthand (runtime.get? "log_mismatches") then
      runtime.get? "log_mismatches" else none := by
    change ((mergedShadow defaults runtime).get? "log_mismatches").or
      ((mergedShadow defaults runtime).get? "logMismatches") = _
    rw [hnone "logMismatches" (by decide), Option.or_none, hlog]
  have hgroupOf : groupOf merged = (mergedShadow defaults runtime).get? "mismatch_logging" := by
    change ((mergedShadow defaults runtime).get? "mismatch_logging").or
      ((mergedShadow defaults runtime).get? "mismatchLogging") = _
    rw [hnone "mismatchLogging" (by decide), Option.or_none]
  have hruntime := expandMismatchLogging_eq runtime
  rw [hshorthand, hgroupOf, hvalue, hdiff]
  refine ⟨hramp, hobject, ?_, ?_, malformedShorthand_kept _⟩
  · rw [hruntime]
    exact groupValue_merged _ _ _
  · rw [hruntime]
    exact groupDiff_merged _ _ _

theorem shadow_mergedFields (base overlay : Policy) :
    let shadow := (mergedFields base overlay).shadow
    objectOrAbsent shadow = true ∧ objectOrAbsent (groupOf shadow) = true ∧
      (∀ leaf ∈ [PolicyLeaf.shadowRamp, .mismatchValue, .mismatchDiff],
        fieldLeaf (mergedFields base overlay) leaf = (heldLeaf overlay leaf).or (heldLeaf base leaf)) ∧
      malformedShorthand (shorthandOf shadow) =
        (expandMismatchLogging (overlay.shadow.getD [])).invalid := by
  intro shadow
  have hshadow : shadow = (mergeShadow base.shadow overlay.shadow).map Json.object := rfl
  have hinvalid : (expandMismatchLogging (overlay.shadow.getD [])).invalid =
      malformedShorthand ((overlay.shadow.getD []).get? "log_mismatches") := by
    rw [expandMismatchLogging_eq]
  rcases mergeShadow_eq base.shadow overlay.shadow with h | h
  · obtain ⟨hmerged, hbase, hoverlay⟩ := h
    rw [hmerged] at hshadow
    have hnone : (mergedFields base overlay).shadow = none := hshadow
    refine ⟨by rw [hshadow]; rfl, by rw [hshadow]; rfl, ?_, by rw [hshadow, hoverlay]; rfl⟩
    intro leaf hleaf
    simp only [List.mem_cons, List.not_mem_nil, or_false] at hleaf
    rcases hleaf with rfl | rfl | rfl <;> simp only [fieldLeaf, heldLeaf, hnone, hbase, hoverlay] <;> rfl
  · obtain ⟨hramp, hgroup, hvalue, hdiff, hmalformed⟩ :=
      leaves_mergedShadow (base.shadow.getD []) (overlay.shadow.getD [])
    rw [h] at hshadow
    have hsome : (mergedFields base overlay).shadow =
        some (.object (mergedShadow (base.shadow.getD []) (overlay.shadow.getD []))) := hshadow
    refine ⟨by rw [hshadow]; rfl, by rw [hshadow]; exact hgroup, ?_,
      by rw [hshadow, hinvalid]; exact hmalformed⟩
    intro leaf hleaf
    simp only [List.mem_cons, List.not_mem_nil, or_false] at hleaf
    rcases hleaf with rfl | rfl | rfl
    · rw [fieldLeaf, hsome]
      exact hramp
    · rw [fieldLeaf, hsome]
      exact hvalue
    · rw [fieldLeaf, hsome]
      exact hdiff

theorem booleanOrAbsent_bool (flag : Option Bool) : booleanOrAbsent (flag.map Json.bool) = true := by
  cases flag <;> rfl

/-- The deadline of a policy is in its domain. -/
def Bounded (policy : Policy) : Prop :=
  ∀ ms, policy.remoteReadTimeoutMs = some ms → 0 < ms ∧ ms ≤ maxTimerDelayMs

theorem deadlineOrAbsent_natural {deadline : Option ℕ}
    (h : ∀ ms, deadline = some ms → 0 < ms ∧ ms ≤ maxTimerDelayMs) :
    deadlineOrAbsent (deadline.map natural) = true := by
  cases deadline with
  | none => rfl
  | some ms =>
    change (wholeNumber (natural ms) maxTimerDelayMs).isSome = true
    rw [wholeNumber_natural (h ms rfl)]
    rfl

theorem valid_mergedFields {base overlay : Policy} (hbase : Bounded base) (hoverlay : Bounded overlay) :
    Valid (mergedFields base overlay) := by
  obtain ⟨hshadow, hgroup, _, _⟩ := shadow_mergedFields base overlay
  refine ⟨rfl, rfl, hshadow, hgroup, booleanOrAbsent_bool _, booleanOrAbsent_bool _, ?_⟩
  apply deadlineOrAbsent_natural
  intro ms hms
  cases hcase : overlay.remoteReadTimeoutMs with
  | some ms' =>
    rw [hcase] at hms
    obtain rfl := Option.some.inj hms
    exact hoverlay ms' hcase
  | none =>
    rw [hcase] at hms
    exact hbase ms hms

theorem fieldLeaf_mergedFields (base overlay : Policy) (leaf : PolicyLeaf) :
    fieldLeaf (mergedFields base overlay) leaf = (heldLeaf overlay leaf).or (heldLeaf base leaf) := by
  obtain ⟨_, _, hshadow, _⟩ := shadow_mergedFields base overlay
  cases leaf with
  | ttlSec layer => exact get?_update base.ttlSec overlay.ttlSec (layerText layer)
  | ramp layer => exact get?_update base.ramp overlay.ramp (layerText layer)
  | requestLocal => exact Option.map_or
  | coalesce => exact Option.map_or
  | staleOnErrorMaxAgeSec => rfl
  | remoteReadTimeoutMs => exact Option.map_or
  | shadowRamp | mismatchValue | mismatchDiff => exact hshadow _ (by simp)

/-! ### Overlays under the portable names -/

/-- An overlay that uses no native alias. -/
structure Portable (overlay : Json) : Prop where
  members : ∀ name ∈ ["ttl_sec", "request_local", "stale_on_error_max_age_sec",
    "remote_read_timeout_ms", "shadow_ramp"], overlay.get? name = none
  shadow : ∀ name ∈ ["log_mismatches", "mismatch_logging"],
    (overlay.get? "shadow").bind (·.get? name) = none

/-- The constructor arguments that a reply supplies. -/
def overlayFields (members : Members) : Fields where
  ttlSec := aliased members "ttl_sec" "ttlSec"
  ramp := members.get? "ramp"
  requestLocal := aliased members "request_local" "requestLocal"
  coalesce := members.get? "coalesce"
  staleOnErrorMaxAgeSec := aliased members "stale_on_error_max_age_sec" "staleOnErrorMaxAgeSec"
  remoteReadTimeoutMs := aliased members "remote_read_timeout_ms" "remoteReadTimeoutMs"
  shadow := members.get? "shadow"

theorem aliased_portable {native : String} (h : members.get? native = none)
    (portable : String) : aliased members native portable = members.get? portable := by
  rw [aliased, h]
  rfl

theorem overlayFields_portable (h : Portable (.object members)) :
    overlayFields members = ⟨members.get? "ttlSec", members.get? "ramp",
      members.get? "requestLocal", members.get? "coalesce",
      members.get? "staleOnErrorMaxAgeSec", members.get? "remoteReadTimeoutMs",
      members.get? "shadow"⟩ := by
  have hnone : ∀ name ∈ ["ttl_sec", "request_local", "stale_on_error_max_age_sec",
      "remote_read_timeout_ms", "shadow_ramp"], members.get? name = none := h.members
  rw [overlayFields, aliased_portable (hnone "ttl_sec" (by simp)),
    aliased_portable (hnone "request_local" (by simp)),
    aliased_portable (hnone "stale_on_error_max_age_sec" (by simp)),
    aliased_portable (hnone "remote_read_timeout_ms" (by simp))]

theorem shadow_portable (h : Portable (.object members)) :
    shorthandOf (members.get? "shadow") =
        (members.get? "shadow").bind (·.get? "logMismatches") ∧
      groupOf (members.get? "shadow") =
        (members.get? "shadow").bind (·.get? "mismatchLogging") := by
  have hlog : (members.get? "shadow").bind (·.get? "log_mismatches") = none :=
    h.shadow "log_mismatches" (by simp)
  have hgroup : (members.get? "shadow").bind (·.get? "mismatch_logging") = none :=
    h.shadow "mismatch_logging" (by simp)
  cases hshadow : members.get? "shadow" with
  | none => exact ⟨rfl, rfl⟩
  | some shadow =>
    rw [hshadow] at hlog hgroup
    cases shadow with
    | object group => exact ⟨aliased_portable hlog _, aliased_portable hgroup _⟩
    | _ => exact ⟨rfl, rfl⟩

theorem fieldLeaf_overlayFields (h : Portable (.object members)) (leaf : PolicyLeaf) :
    fieldLeaf (overlayFields members) leaf = writtenLeaf (.object members) leaf := by
  obtain ⟨hshorthand, hgroup⟩ := shadow_portable h
  rw [overlayFields_portable h]
  cases leaf with
  | mismatchValue | mismatchDiff =>
    rw [fieldLeaf, hshorthand, hgroup]
    rfl
  | _ => rfl

theorem valid_overlayFields_iff (h : Portable (.object members)) :
    Valid (overlayFields members) ∧ members.get? "shadowRamp" = none ↔
      Accepted (.object members) := by
  obtain ⟨_, hgroup⟩ := shadow_portable h
  rw [overlayFields_portable h]
  constructor
  · intro h
    obtain ⟨⟨ttlSec, ramp, shadow, group, requestLocal, coalesce, timeout⟩, hrenamed⟩ := h
    exact ⟨rfl, hrenamed, ttlSec, ramp, shadow, hgroup ▸ group, requestLocal, coalesce, timeout⟩
  · intro h
    exact ⟨⟨h.ttlSec, h.ramp, h.shadow, hgroup.symm ▸ h.mismatchLogging, h.requestLocal, h.coalesce,
      h.remoteReadTimeoutMs⟩, h.renamed⟩

theorem normalizePolicy_eq_ok {reply : Json} (hportable : Portable reply) (hnull : reply ≠ .null)
    {overlay : Option Policy} :
    normalizePolicy (some reply) = .ok overlay ↔
      Accepted reply ∧ some (constructed (overlayFields (reply.asObject?.getD []))) = overlay := by
  cases reply with
  | null => exact absurd rfl hnull
  | object members =>
    have hnative : Members.get? members "shadow_ramp" = none := hportable.members "shadow_ramp" (by simp)
    have hnormalize : normalizePolicy (some (.object members)) =
        if (Members.get? members "shadowRamp").isSome then
          .error ⟨"shadow_ramp was replaced by \"shadow.ramp\""⟩
        else (construct (overlayFields members)).map some := by
      change (if (Members.get? members "shadowRamp").isSome || (Members.get? members "shadow_ramp").isSome
        then _ else _) = _
      rw [hnative, Option.isSome_none, Bool.or_false]
      rfl
    rw [hnormalize, ← valid_overlayFields_iff hportable]
    cases Members.get? members "shadowRamp" with
    | some leaf => simp
    | none =>
      rw [Option.isSome_none, if_neg Bool.false_ne_true]
      constructor
      · intro h
        cases hconstruct : construct (overlayFields members) with
        | error e =>
          rw [hconstruct] at h
          cases h
        | ok policy =>
          rw [hconstruct] at h
          obtain ⟨hok, rfl⟩ := construct_eq_ok.mp hconstruct
          exact ⟨⟨hok, rfl⟩, Except.ok.inj h⟩
      · intro h
        obtain ⟨⟨hok, _⟩, rfl⟩ := h
        rw [construct_eq_ok.mpr ⟨hok, rfl⟩]
        rfl
  | _ =>
    constructor
    · intro h
      cases h
    · intro h
      cases h.1.shape

/-! ### Resolution -/

theorem admits_eq (key : Text) (discriminator : String) {ramp : ℚ} (h0 : 0 ≤ ramp) :
    RolloutCohorts.Python.admits ramp (codePoints key)
      (KeyAgreement.Python.literal discriminator) = sampled key discriminator ramp := by
  rw [Bool.eq_iff_iff, sampled_iff]
  exact (cohortsAgree key discriminator.toList).python ramp h0

theorem admitsShadow_eq (key : Text) (ramp : ℚ) :
    RolloutCohorts.Python.admitsShadow ramp (codePoints key) =
      sampled key "shadow" ramp := by
  rw [Bool.eq_iff_iff, sampled_iff]
  exact (cohortsAgree key "shadow".toList).python_shadow (by decide +kernel) ramp

theorem validRamp_eq (value : Json) : validRamp? value = percentage value := rfl

theorem validRamp_getD (leaf : Option Json) :
    validRamp? (leaf.getD (.number 100)) = rampSpec leaf := by
  cases leaf with
  | none => decide +kernel
  | some leaf => rfl

/-- One layer of this port's result. -/
def layerResult (layer : LayerResolution) : LayerOutcome := ⟨layer.enabled, layer.reason, layer.ttlSec⟩

theorem safeInteger_of_whole {seconds : ℕ} (h : wholeNumber value maxCacheTtlSec = some seconds) :
    safeInteger? value = some (seconds : ℤ) := by
  obtain ⟨n, hn, hrange, rfl⟩ := (safeInteger_iff maxCacheTtlSec_safe).mp h
  rw [hn, Int.toNat_of_nonneg hrange.1.le]

theorem resolveLayer_eq (policy : Policy) (key : Text) (layer : CacheLayer) :
    layerResult (resolveLayer (some policy) (codePoints key) (layerText layer)) =
      layerSpec (heldLeaf policy (.ttlSec layer)) (heldLeaf policy (.ramp layer))
        (sampled key (layerText layer)) := by
  rw [resolveLayer, heldLeaf, heldLeaf]
  simp only [Option.bind_some, validRamp_getD, isSupportedCacheTtlSec_eq]
  cases policy.ttlSec.get? (layerText layer) with
  | none => rfl
  | some ttl =>
    simp only [layerSpec]
    cases hwhole : wholeNumber ttl maxCacheTtlSec with
    | none => rfl
    | some seconds =>
      simp only [Option.isSome_some, Bool.not_true, Bool.false_eq_true, if_false,
        safeInteger_of_whole hwhole]
      cases hramp : rampSpec (policy.ramp.get? (layerText layer)) with
      | none => rfl
      | some ramp =>
        simp only [admits_eq key (layerText layer) (rampSpec_nonneg hramp)]
        cases sampled key (layerText layer) ramp with
        | false => simp [layerResult]
        | true => simp [layerResult]

theorem safeInteger_zero_iff (value : Json) : safeInteger? value = some 0 ↔ value.asNumber? = some 0 := by
  rw [safeInteger?]
  cases value.asNumber? with
  | none => simp
  | some q =>
    constructor
    · intro h
      simp only at h
      split at h
      · rw [Rat.num_eq_zero.mp (Option.some.inj h)]
      · cases h
    · intro h
      obtain rfl := Option.some.inj h
      have hsafe : |(0 : ℚ)| ≤ maxSafeInteger ∧ (0 : ℚ).den = 1 := by
        rw [maxSafeInteger]
        norm_num
      simp only [hsafe, and_self, if_true]
      rfl

theorem recoverySpec_off {age : Option Json} (h : recoveryOff age = true) (remote : LayerOutcome) :
    recoverySpec age remote = (none, false) := by
  cases age with
  | none => rfl
  | some age =>
    have hzero : age.asNumber? = some 0 := (safeInteger_zero_iff age).mp (of_decide_eq_true h)
    rw [recoverySpec, if_pos hzero]

/-- Without a TTL that resolves there is nothing to recover from. -/
theorem recoverySpec_unconfigured (age : Option Json) (reason : Option DisabledReason) :
    recoverySpec age ⟨false, reason, none⟩ =
      (none, decide (reason = some .policyDisabled) && !recoveryOff age) := by
  cases hoff : recoveryOff age with
  | true =>
    rw [recoverySpec_off hoff, Bool.not_true, Bool.and_false]
  | false =>
    cases age with
    | none => cases hoff
    | some age =>
      have hzero : ¬ age.asNumber? = some 0 :=
        fun h => of_decide_eq_false hoff ((safeInteger_zero_iff age).mpr h)
      rw [recoverySpec, if_neg hzero, Bool.not_false, Bool.and_true]

theorem resolveRecovery_eq {ttl : Json} {ttlSec : ℕ} (h : wholeNumber ttl maxCacheTtlSec = some ttlSec)
    (age : Option Json) (enabled : Bool) (reason : Option DisabledReason) :
    resolveRecovery age ttl = recoverySpec age ⟨enabled, reason, some ttlSec⟩ := by
  rw [resolveRecovery.eq_def]
  cases hoff : recoveryOff age with
  | true =>
    rw [if_pos rfl, recoverySpec_off hoff]
  | false =>
    rw [if_neg Bool.false_ne_true]
    cases age with
    | none => rfl
    | some age =>
      have hzero : ¬ age.asNumber? = some 0 :=
        fun h => of_decide_eq_false hoff ((safeInteger_zero_iff age).mpr h)
      simp only [recoverySpec, hzero, if_false, safeInteger_of_whole h]
      cases hwhole : wholeNumber age maxCacheTtlSec with
      | some seconds =>
        obtain ⟨n, hn, hrange, rfl⟩ := (safeInteger_iff maxCacheTtlSec_safe).mp hwhole
        rw [hn]
        by_cases hlt : ttlSec < n.toNat
        · have hlt' : (ttlSec : ℤ) < n := by omega
          simp [hrange, hlt, hlt']
        · have hlt' : ¬ (ttlSec : ℤ) < n := by omega
          simp [hlt, hlt']
      | none =>
        cases hn : safeInteger? age with
        | none => rfl
        | some n =>
          have hrange : ¬ (0 < n ∧ n ≤ (maxCacheTtlSec : ℤ)) := by
            intro hrange
            rw [(safeInteger_iff maxCacheTtlSec_safe).mpr ⟨n, hn, hrange, rfl⟩] at hwhole
            cases hwhole
          simp [hrange]

theorem recovery_eq (policy : Policy) (key : Text) :
    let remote := resolveLayer (some policy) (codePoints key) "remote"
    (remote.staleOnErrorMaxAgeSec, remote.staleOnErrorConfigError) =
      recoverySpec policy.staleOnErrorMaxAgeSec (layerResult remote) := by
  simp only [resolveLayer, Option.bind_some, validRamp_getD, isSupportedCacheTtlSec_eq]
  cases policy.ttlSec.get? "remote" with
  | none =>
    simp only [layerResult]
    rw [recoverySpec_unconfigured]
    simp
  | some ttl =>
    simp only
    cases hwhole : wholeNumber ttl maxCacheTtlSec with
    | none => exact (recoverySpec_unconfigured _ (some .invalidTtl)).symm
    | some seconds =>
      simp only [Option.isSome_some, Bool.not_true, Bool.false_eq_true, if_false, if_true,
        safeInteger_of_whole hwhole]
      cases rampSpec (policy.ramp.get? "remote") with
      | none => exact (recoverySpec_unconfigured _ (some .invalidRamp)).symm
      | some ramp => exact resolveRecovery_eq hwhole _ _ _

theorem resolveMismatchLogging_eq (shadow : Members) :
    resolveMismatchLogging shadow =
      ⟨(valueSpec (expandMismatchLogging shadow).value).getD false,
        (diffSpec (expandMismatchLogging shadow).diff).getD .off,
        (expandMismatchLogging shadow).invalid || (valueSpec (expandMismatchLogging shadow).value).isNone ||
          (diffSpec (expandMismatchLogging shadow).diff).isNone⟩ := by
  have hvalue : ∀ leaf : Option Json, (leaf.getD (.bool false)).asBool? = valueSpec leaf := by
    intro leaf
    cases leaf <;> rfl
  have hdiff : ∀ leaf : Option Json, (leaf.getD (.string "off")).asString?.bind levelOf = diffSpec leaf := by
    intro leaf
    cases leaf with
    | none => decide
    | some leaf => rfl
  rw [resolveMismatchLogging, hvalue, hdiff]

theorem scheduleShadow_eq (shadow : Option Members) (key : Text) :
    scheduleShadow shadow (codePoints key) =
      shadowSpec ((shadow.getD []).get? "ramp") (sampled key "shadow") := by
  cases shadow with
  | none => rfl
  | some shadow =>
    simp only [scheduleShadow, Option.getD_some, admitsShadow_eq]
    cases shadow.get? "ramp" with
    | none =>
      have hzero : validRamp? (.number 0) = some 0 := by decide +kernel
      simp [hzero, shadowSpec]
    | some leaf =>
      simp only [Option.getD_some, validRamp_eq, shadowSpec]
      cases percentage leaf with
      | none => rfl
      | some ramp =>
        have hsampled : (ramp ≠ 0 ∧ sampled key "shadow" ramp = true) ↔
            sampled key "shadow" ramp = true := by
          constructor
          · intro h
            exact h.2
          · intro h
            exact ⟨fun hzero => not_admitted_zero _ (hzero ▸ (sampled_iff key "shadow" ramp).mp h), h⟩
        simp only [hsampled, Bool.decide_eq_true]

/-- What one invocation takes from its policy. -/
def result (policy : Policy) (urn : KeyAgreement.Python.PyString) (instanceTimeoutMs : ℕ) : Resolved :=
  let remote := resolveLayer (some policy) urn "remote"
  let logging := resolveMismatchLogging (policy.shadow.getD [])
  { requestLocal := policy.requestLocal = some true
    coalesce := policy.coalesce ≠ some false
    onLocal := layerResult (resolveLayer (some policy) urn "local")
    onRemote := layerResult remote
    readTimeoutMs := policy.remoteReadTimeoutMs.getD instanceTimeoutMs
    staleOnErrorMaxAgeSec := remote.staleOnErrorMaxAgeSec
    staleOnErrorConfigError := remote.staleOnErrorConfigError
    shadowAdmitted := (scheduleShadow policy.shadow urn).1
    shadowConfigError := (scheduleShadow policy.shadow urn).2
    mismatchValue := logging.value
    mismatchDiff := logging.diff
    loggingConfigError := logging.invalid }

/-- What a policy resolves to is decided by the leaves it holds. -/
theorem result_eq {policy : Policy} (hbounded : Bounded policy) (key : Text) (instanceTimeoutMs : ℕ) :
    result policy (codePoints key) instanceTimeoutMs =
      resolveLeaves (heldLeaf policy) (expandMismatchLogging (policy.shadow.getD [])).invalid key
        instanceTimeoutMs := by
  have hrecovery := recovery_eq policy key
  have hlocal := resolveLayer_eq policy key .LOCAL
  have hremote := resolveLayer_eq policy key .REMOTE
  have hrequestLocal : decide (policy.requestLocal = some true) =
      flagSpec (policy.requestLocal.map Json.bool) false := by
    cases policy.requestLocal with
    | none => rfl
    | some flag => cases flag <;> rfl
  have hcoalesce : decide (policy.coalesce ≠ some false) =
      flagSpec (policy.coalesce.map Json.bool) true := by
    cases policy.coalesce with
    | none => rfl
    | some flag => cases flag <;> rfl
  have hdeadline : policy.remoteReadTimeoutMs.getD instanceTimeoutMs =
      ((policy.remoteReadTimeoutMs.map natural).bind
        fun leaf => wholeNumber leaf maxTimerDelayMs).getD instanceTimeoutMs := by
    cases htimeout : policy.remoteReadTimeoutMs with
    | none => rfl
    | some ms =>
      change ms = (wholeNumber (natural ms) maxTimerDelayMs).getD instanceTimeoutMs
      rw [wholeNumber_natural (hbounded ms htimeout)]
      rfl
  rw [show layerText .REMOTE = "remote" from rfl] at hremote
  simp only [hremote] at hrecovery
  rw [result, resolveLeaves, Resolved.mk.injEq, scheduleShadow_eq, resolveMismatchLogging_eq]
  exact ⟨hrequestLocal, hcoalesce, hlocal, hremote, hdeadline, congrArg Prod.fst hrecovery,
    congrArg Prod.snd hrecovery, rfl, rfl, rfl, rfl, rfl⟩

/-! ### The static policy -/

theorem shadow_fields :
    let shadow := (fields policy).shadow
    objectOrAbsent shadow = true ∧ objectOrAbsent (groupOf shadow) = true ∧
      shadow.bind (·.get? "ramp") = (policy.shadow.bind (·.ramp)).map Json.number ∧
      shorthandOf shadow = (policy.shadow.bind (·.logMismatches)).map Json.bool ∧
      (groupOf shadow).bind (·.get? "value") =
        ((policy.shadow.bind (·.mismatchLogging)).bind (·.value)).map Json.bool ∧
      (groupOf shadow).bind (·.get? "diff") =
        ((policy.shadow.bind (·.mismatchLogging)).bind (·.diff)).map fun level =>
          Json.string (levelText level) := by
  intro shadow
  have hshadow : shadow = policy.shadow.map staticShadow := rfl
  rw [hshadow]
  cases policy.shadow with
  | none => exact ⟨rfl, rfl, rfl, rfl, rfl, rfl⟩
  | some shadow =>
    obtain ⟨hramp, -, -, hshorthand, hmismatch⟩ := get?_shadowMembers (shadow.ramp.map Json.number)
      (shadow.logMismatches.map Json.bool) (shadow.mismatchLogging.map staticMismatchLogging)
    have hgroupOf : groupOf (some (staticShadow shadow)) =
        shadow.mismatchLogging.map staticMismatchLogging := hmismatch
    refine ⟨rfl, ?_, hramp, hshorthand, ?_, ?_⟩
    · rw [Option.map_some, hgroupOf]
      cases shadow.mismatchLogging <;> rfl
    · rw [Option.map_some, hgroupOf, Option.bind_some]
      cases shadow.mismatchLogging with
      | none => rfl
      | some group => exact (get?_group _ _).1
    · rw [Option.map_some, hgroupOf, Option.bind_some]
      cases shadow.mismatchLogging with
      | none => rfl
      | some group => exact (get?_group _ _).2

theorem valid_fields : Valid (fields policy) := by
  obtain ⟨hshadow, hgroup, _⟩ := shadow_fields policy
  exact ⟨rfl, rfl, hshadow, hgroup, booleanOrAbsent_bool _, booleanOrAbsent_bool _,
    deadlineOrAbsent_natural policy.timeout_range⟩

theorem fieldLeaf_fields (leaf : PolicyLeaf) :
    fieldLeaf (fields policy) leaf = staticLeaf policy leaf := by
  obtain ⟨_, _, hramp, hshorthand, hvalue, hdiff⟩ := shadow_fields policy
  cases leaf with
  | ttlSec layer | ramp layer =>
    refine (get?_layerPair _ _ layer).trans ?_
    cases layer <;> rfl
  | shadowRamp => exact hramp
  | mismatchValue => exact congrArg₂ groupValue hshorthand hvalue
  | mismatchDiff => exact congrArg₂ groupDiff hshorthand hdiff
  | _ => rfl

theorem bounded_constructed (fields : Fields) : Bounded (constructed fields) := by
  intro ms hms
  obtain ⟨leaf, _, hwhole⟩ := Option.bind_eq_some_iff.mp hms
  obtain ⟨n, _, hrange, rfl⟩ := (safeInteger_iff maxTimerDelayMs_safe).mp hwhole
  omega

end Python

/-- The static policy as Python constructs it. -/
theorem python_constructs :
    PolicyPorts.Python.construct (PolicyPorts.Python.fields policy) =
      .ok (Python.constructed (PolicyPorts.Python.fields policy)) :=
  Python.construct_eq_ok.mpr ⟨Python.valid_fields policy, rfl⟩

namespace Python

open PolicyPorts.Python

theorem heldLeaf_static : heldLeaf (constructed (fields policy)) = staticLeaf policy := by
  funext leaf
  rw [heldLeaf_constructed (valid_fields policy), fieldLeaf_fields]

theorem validateStaticLayer_static (layer : CacheLayer) :
    validateStaticLayer (constructed (fields policy)) (layerText layer) = .ok () := by
  have httl : Members.get? (constructed (fields policy)).ttlSec (layerText layer) =
      staticLeaf policy (.ttlSec layer) := congrFun (heldLeaf_static policy) (.ttlSec layer)
  have hramp : Members.get? (constructed (fields policy)).ramp (layerText layer) =
      staticLeaf policy (.ramp layer) := congrFun (heldLeaf_static policy) (.ramp layer)
  have hseconds : ∀ {ttl : Option ℕ}, (∀ n, ttl = some n → 0 < n ∧ n ≤ maxCacheTtlSec) →
      (ttl.map natural).any (fun ttl => !PolicyPorts.Python.isSupportedCacheTtlSec ttl) = false := by
    intro ttl h
    cases ttl with
    | none => rfl
    | some n =>
      change (!PolicyPorts.Python.isSupportedCacheTtlSec (natural n)) = false
      rw [isSupportedCacheTtlSec_eq, wholeNumber_natural (h n rfl)]
      rfl
  have hpercentage : ∀ {ramp : Option ℚ}, (∀ n, ramp = some n → 0 ≤ n ∧ n ≤ 100) →
      (ramp.map Json.number).any (fun ramp => (validRamp? ramp).isNone) = false := by
    intro ramp h
    cases ramp with
    | none => rfl
    | some n =>
      change (if 0 ≤ n ∧ n ≤ 100 then some n else none).isNone = false
      rw [if_pos (h n rfl)]
      rfl
  rw [validateStaticLayer, httl, hramp]
  cases layer with
  | LOCAL =>
    rw [staticLeaf, staticLeaf, hseconds policy.localTtl_range, hpercentage policy.localRamp_range]
    rfl
  | REMOTE =>
    rw [staticLeaf, staticLeaf, hseconds policy.remoteTtl_range, hpercentage policy.remoteRamp_range]
    rfl

theorem safeInteger_natural {n : ℕ} (h : n ≤ maxCacheTtlSec) :
    safeInteger? (natural n) = some (n : ℤ) := by
  by_cases hpos : 0 < n
  · exact safeInteger_of_whole (wholeNumber_natural ⟨hpos, h⟩)
  · obtain rfl := Nat.eq_zero_of_not_pos hpos
    exact (safeInteger_zero_iff _).mpr rfl

theorem validateStaticAge_static : validateStaticAge (constructed (fields policy)) = .ok () := by
  have hage : (constructed (fields policy)).staleOnErrorMaxAgeSec =
      policy.staleOnErrorMaxAgeSec.map natural := rfl
  have httl : Members.get? (constructed (fields policy)).ttlSec "remote" =
      policy.remoteTtlSec.map natural := congrFun (heldLeaf_static policy) (.ttlSec .REMOTE)
  rw [validateStaticAge, hage, httl]
  cases hsome : policy.staleOnErrorMaxAgeSec with
  | none => rfl
  | some age =>
    by_cases hpos : 0 < age
    · obtain ⟨hle, seconds, hremote, hlt⟩ := policy.maxAge_range age hsome hpos
      have hsupported := policy.remoteTtl_range seconds hremote
      have hsmaller : ¬ (age : ℤ) ≤ seconds := by omega
      simp [safeInteger_natural hle, hle, hremote, safeInteger_natural hsupported.2, hsmaller]
    · obtain rfl := Nat.eq_zero_of_not_pos hpos
      simp [safeInteger_natural (Nat.zero_le _)]

theorem validateStaticShadow_static {policy : StaticPolicy} {shadow : Members}
    (h : (constructed (fields policy)).shadow = some shadow) : validateStaticShadow shadow = .ok () := by
  have hshadow : shadow = (shadowOf (fields policy).shadow).getD [] := by
    rw [show shadowOf (fields policy).shadow = some shadow from h]
    rfl
  obtain ⟨hramp, hlog, hvalue, hdiff⟩ := get?_shadowOf (fields policy).shadow
  obtain ⟨_, _, hstaticRamp, hstaticLog, hstaticValue, hstaticDiff⟩ := shadow_fields policy
  rw [hstaticRamp] at hramp
  rw [hstaticLog] at hlog
  rw [hstaticValue] at hvalue
  rw [hstaticDiff] at hdiff
  rw [← hshadow] at hramp hlog hvalue hdiff
  have hpercentage : ((policy.shadow.bind (·.ramp)).map Json.number).any
      (fun ramp => (validRamp? ramp).isNone) = false := by
    cases hcase : policy.shadow with
    | none => rfl
    | some shadow =>
      change (shadow.ramp.map Json.number).any _ = false
      cases hsome : shadow.ramp with
      | none => rfl
      | some n =>
        change (if 0 ≤ n ∧ n ≤ 100 then some n else none).isNone = false
        rw [if_pos (shadow.ramp_range n hsome)]
        rfl
  have hbool : ∀ flag : Option Bool, (flag.map Json.bool).any (fun leaf => leaf.asBool?.isNone) = false := by
    intro flag
    cases flag <;> rfl
  have hlevel : ∀ level : Option ShadowMismatchDiffLevel,
      (level.map fun level => Json.string (levelText level)).any (fun leaf => !validDiffLevel leaf) =
        false := by
    intro level
    cases level with
    | none => rfl
    | some level => cases level <;> decide
  rw [validateStaticShadow, hramp, hlog, hvalue, hdiff, hpercentage, hbool, hbool, hlevel]
  rfl

/-- The static policy passes this port's validation. -/
theorem validateStaticPolicy_static :
    validateStaticPolicy (constructed (fields policy)) = .ok (constructed (fields policy)) := by
  have hlocal : validateStaticLayer (constructed (fields policy)) "local" = .ok () :=
    validateStaticLayer_static policy .LOCAL
  have hremote : validateStaticLayer (constructed (fields policy)) "remote" = .ok () :=
    validateStaticLayer_static policy .REMOTE
  have hage := validateStaticAge_static policy
  rw [validateStaticPolicy, hlocal, hremote, hage]
  simp only [KeyAgreement.ok_bind]
  cases hshadow : (constructed (fields policy)).shadow with
  | none => rfl
  | some shadow =>
    simp only [validateStaticShadow_static hshadow]
    rfl

/-- A merge succeeds exactly for an accepted overlay. -/
theorem mergePolicy_eq_ok {base : Policy} (hbase : Bounded base) {reply : Json}
    (hportable : Portable reply) (hnull : reply ≠ .null) {merged : Option Policy} :
    mergePolicy (some base) (some reply) = .ok merged ↔
      Accepted reply ∧ some (constructed (mergedFields base
        (constructed (overlayFields (reply.asObject?.getD []))))) = merged := by
  rw [mergePolicy]
  constructor
  · intro h
    obtain ⟨overlay, hoverlay, h⟩ := bind_eq_ok.mp h
    obtain ⟨haccepted, rfl⟩ := (normalizePolicy_eq_ok hportable hnull).mp hoverlay
    obtain ⟨constructed, hconstructed, h⟩ := bind_eq_ok.mp h
    obtain ⟨_, rfl⟩ := construct_eq_ok.mp hconstructed
    exact ⟨haccepted, Except.ok.inj h⟩
  · intro h
    obtain ⟨haccepted, rfl⟩ := h
    have hvalid := valid_mergedFields hbase
      (bounded_constructed (overlayFields (reply.asObject?.getD [])))
    exact bind_eq_ok.mpr ⟨_, (normalizePolicy_eq_ok hportable hnull).mpr ⟨haccepted, rfl⟩,
      bind_eq_ok.mpr ⟨_, construct_eq_ok.mpr ⟨hvalid, rfl⟩, rfl⟩⟩

theorem result_merged (hportable : Portable (.object members))
    (haccepted : Accepted (.object members)) (key : Text) (instanceTimeoutMs : ℕ) :
    result (constructed (mergedFields (constructed (fields policy)) (constructed (overlayFields members))))
        (codePoints key) instanceTimeoutMs =
      resolveLeaves (mergedLeaf policy (.object members)) (malformedOverlay (.object members)) key
        instanceTimeoutMs := by
  obtain ⟨hvalid, _⟩ := (valid_overlayFields_iff hportable).mpr haccepted
  have hmerged := valid_mergedFields (bounded_constructed (fields policy))
    (bounded_constructed (overlayFields members))
  have hleaves : heldLeaf (constructed (mergedFields (constructed (fields policy))
      (constructed (overlayFields members)))) = mergedLeaf policy (.object members) := by
    funext leaf
    rw [heldLeaf_constructed hmerged, fieldLeaf_mergedFields, heldLeaf_constructed hvalid,
      fieldLeaf_overlayFields hportable, heldLeaf_static, mergedLeaf]
  have hmalformed : malformedShorthand (shorthandOf (overlayFields members).shadow) =
      malformedOverlay (.object members) := congrArg malformedShorthand (shadow_portable hportable).1
  rw [result_eq (bounded_constructed _), hleaves, invalid_constructed,
    (shadow_mergedFields _ _).2.2.2, invalid_constructed, hmalformed]

end Python

/-- The Python resolution of an overlay over a static policy. -/
theorem python_resolves {overlay : Option Json}
    (hportable : ∀ reply, overlay = some reply → Python.Portable reply) (key : Text)
    (instanceTimeoutMs : ℕ) :
    (PolicyPorts.Python.mergePolicy (some (Python.constructed (PolicyPorts.Python.fields policy)))
        overlay).toOption.map (fun merged => merged.map fun merged =>
          Python.result merged (codePoints key) instanceTimeoutMs) =
      (resolvePolicy policy overlay key instanceTimeoutMs).map some := by
  have hbounded := Python.bounded_constructed (PolicyPorts.Python.fields policy)
  have hstatic : Python.result (Python.constructed (PolicyPorts.Python.fields policy))
      (codePoints key) instanceTimeoutMs =
        resolveLeaves (staticLeaf policy) false key instanceTimeoutMs := by
    rw [Python.result_eq hbounded, Python.heldLeaf_static, Python.invalid_constructed,
      (Python.shadow_fields policy).2.2.2.1, malformedShorthand_bool]
  cases overlay with
  | none => exact congrArg (some ∘ some) hstatic
  | some reply =>
    by_cases hnull : reply = .null
    · rw [hnull]
      exact congrArg (some ∘ some) hstatic
    have hreply := hportable reply rfl
    have hmerge : (PolicyPorts.Python.mergePolicy (some (Python.constructed (PolicyPorts.Python.fields
        policy))) (some reply)).toOption.map (fun merged => merged.map fun merged =>
          Python.result merged (codePoints key) instanceTimeoutMs) =
        if Accepted reply then some (some (resolveLeaves (mergedLeaf policy reply)
          (malformedOverlay reply) key instanceTimeoutMs)) else none := by
      apply toOption_map_eq_ite
      · intro merged hmerged
        obtain ⟨haccepted, rfl⟩ := (Python.mergePolicy_eq_ok hbounded hreply hnull).mp hmerged
        have hshape := haccepted.shape
        cases reply with
        | object members =>
          constructor
          · exact haccepted
          · exact congrArg some (Python.result_merged policy hreply haccepted key instanceTimeoutMs)
        | _ => cases hshape
      · intro haccepted
        exact ⟨_, (Python.mergePolicy_eq_ok hbounded hreply hnull).mpr ⟨haccepted, rfl⟩⟩
    rw [resolvePolicy_some policy hnull, hmerge]
    split <;> rfl

end DialCache.PolicyLeaves
