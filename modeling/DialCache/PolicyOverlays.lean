import DialCache.CacheTraversal

/-!
# Runtime overlays

A static default is checked when an operation is registered, and a provider's overlay is merged
over it for each call. The leaves of a policy are named here, so that what a merge does and what
a resolution reads can be said leaf by leaf.
-/

namespace DialCache.PolicyOverlays

open JsValues CacheKeys RuntimeConfig CacheOperations ShadowValidation CacheTraversal

/-! ### Static defaults -/

/-- A flag of a static default. -/
def defaultFlag (name : String) : JsValue → Except ConfigError (Option Bool)
  | .undefined => .ok none
  | .boolean value => .ok (some value)
  | _ => .error (.typeError ("DialCache defaultConfig " ++ name ++ " must be a boolean"))

def defaultLayerMap (name : String) (config : JsValue) : Except ConfigError LayerConfig :=
  if isPlainObject config then .ok ⟨config.member "local", config.member "remote"⟩
  else .error (.typeError ("DialCache defaultConfig " ++ name ++ " must be a layer map"))

/-- `assertDefaultShadowConfig`, then the shadow group as the constructor clones it. -/
def defaultShadow (config : JsValue) : Except ConfigError (Option ShadowConfig) :=
  match config with
  | .undefined => .ok none
  | .object _ => overlayShadowConfig config
  | _ => .error (.typeError "DialCache defaultConfig shadow must be an object")

def layerText : CacheLayer → String
  | .LOCAL => "local"
  | .REMOTE => "remote"

def isSupportedCacheTtlSec (value : JsValue) : Bool :=
  value.natural?.any fun seconds => 0 < seconds ∧ seconds ≤ maxCacheTtlSec

def isNumber : JsValue → Bool
  | .number _ => true
  | _ => false

def isUndefined : JsValue → Bool
  | .undefined => true
  | _ => false

def checkDefaultTtl (leaf : JsValue) (layer : CacheLayer) : Except ConfigError Unit :=
  if isUndefined leaf then .ok ()
  else if !isNumber leaf then
    .error (.typeError ("DialCache defaultConfig ttlSec." ++ layerText layer ++ " must be a number"))
  else if !isSupportedCacheTtlSec leaf then
    .error (.rangeError ("DialCache defaultConfig ttlSec." ++ layerText layer ++
      " must be a positive safe integer no greater than 31536000"))
  else .ok ()

/-- A percentage of a static default, under the name its errors give it. -/
def checkDefaultRamp (leaf : JsValue) (name : String) : Except ConfigError Unit :=
  if isUndefined leaf then .ok ()
  else if !isNumber leaf then
    .error (.typeError ("DialCache defaultConfig " ++ name ++ " must be a number"))
  else if (percentage? leaf).isNone then
    .error (.rangeError ("DialCache defaultConfig " ++ name ++ " must be between 0 and 100"))
  else .ok ()

def checkDefaultLayer (ttlSec ramp : LayerConfig) (layer : CacheLayer) : Except ConfigError Unit := do
  checkDefaultTtl (ttlSec.leaf layer) layer
  checkDefaultRamp (ramp.leaf layer) ("ramp." ++ layerText layer)

def checkDefaultMaxAge (maxAge : JsValue) (ttlSec : LayerConfig) : Except ConfigError Unit :=
  if isUndefined maxAge then .ok ()
  else if !isNumber maxAge then
    .error (.typeError "DialCache defaultConfig staleOnErrorMaxAgeSec must be a number")
  else if maxAge.natural? = some 0 then .ok ()
  else if !isSupportedCacheTtlSec maxAge then
    .error (.rangeError ("DialCache defaultConfig staleOnErrorMaxAgeSec must be a " ++
      "nonnegative safe integer no greater than 31536000"))
  else
    match ttlSec.onRemote.natural?, maxAge.natural? with
    | some remoteTtlSec, some maxAgeSec =>
      if maxAgeSec ≤ remoteTtlSec then
        .error (.rangeError
          "DialCache defaultConfig staleOnErrorMaxAgeSec must be greater than ttlSec.remote")
      else .ok ()
    | _, _ =>
      .error (.rangeError "DialCache defaultConfig staleOnErrorMaxAgeSec requires ttlSec.remote")

def isBoolean : JsValue → Bool
  | .boolean _ => true
  | _ => false

def checkDefaultMismatchLogging (group : Option MismatchLoggingConfig) : Except ConfigError Unit :=
  match group with
  | none => .ok ()
  | some group =>
    if !isUndefined group.value && !isBoolean group.value then
      .error (.typeError "DialCache defaultConfig shadow.mismatchLogging.value must be a boolean")
    else if !isUndefined group.diff && (isShadowMismatchDiffLevel group.diff).isNone then
      .error (.typeError ("DialCache defaultConfig shadow.mismatchLogging.diff must be " ++
        "\"off\", \"paths\" or \"values\""))
    else .ok ()

def checkDefaultShadow (shadow : Option ShadowConfig) : Except ConfigError Unit :=
  match shadow with
  | none => .ok ()
  | some shadow => do
    checkDefaultRamp shadow.ramp "shadow.ramp"
    if !isUndefined shadow.logMismatches && !isBoolean shadow.logMismatches then
      .error (.typeError "DialCache defaultConfig shadow.logMismatches must be a boolean")
    else checkDefaultMismatchLogging shadow.mismatchLogging

/-- The static default that registering an operation captures. -/
def snapshotDefaultConfig (config : JsValue) : Except ConfigError (Option DialCacheKeyConfig) :=
  match config with
  | .undefined => .ok none
  | .null => .ok none
  | .object _ =>
    if config.hasOwn "shadowRamp" then
      .error (.typeError "DialCacheKeyConfig.shadowRamp was replaced by \"shadow.ramp\"")
    else do
      let requestLocal ← defaultFlag "requestLocal" (config.member "requestLocal")
      let coalesce ← defaultFlag "coalesce" (config.member "coalesce")
      let ttlSec ← defaultLayerMap "ttlSec" (config.member "ttlSec")
      let ramp ← defaultLayerMap "ramp" (config.member "ramp")
      let shadow ← defaultShadow (config.member "shadow")
      let remoteReadTimeoutMs ←
        deadlineMs "DialCache remoteReadTimeoutMs" (config.member "remoteReadTimeoutMs")
      checkDefaultLayer ttlSec ramp .LOCAL
      checkDefaultLayer ttlSec ramp .REMOTE
      checkDefaultMaxAge (config.member "staleOnErrorMaxAgeSec") ttlSec
      checkDefaultShadow shadow
      return some {
        ttlSec, ramp, shadow, requestLocal, coalesce, remoteReadTimeoutMs
        staleOnErrorMaxAgeSec := config.member "staleOnErrorMaxAgeSec" }
  | _ => .error (.typeError "DialCache defaultConfig must be an object")

/-! ### The kill switch -/

def zero : JsValue := .number (.ofInt 0)

/-- `DialCacheKeyConfig.disabled()`. -/
def disabled : DialCacheKeyConfig where
  ttlSec := ⟨.undefined, .undefined⟩
  ramp := ⟨zero, zero⟩
  shadow := some ⟨zero, .undefined, some ⟨.boolean false, .string (text "off")⟩⟩
  requestLocal := some false
  coalesce := none
  staleOnErrorMaxAgeSec := zero
  remoteReadTimeoutMs := none

/-- The member of that name, where it was written. -/
def written (name : String) : JsValue → List (List UInt16 × JsValue)
  | .undefined => []
  | value => [(text name, value)]

def LayerConfig.object (config : LayerConfig) : JsValue :=
  .object (written "local" config.onLocal ++ written "remote" config.onRemote)

def ShadowConfig.object (config : ShadowConfig) : JsValue :=
  .object (written "ramp" config.ramp ++ written "logMismatches" config.logMismatches ++
    written "mismatchLogging" ((config.mismatchLogging.map fun group =>
      JsValue.object (written "value" group.value ++ written "diff" group.diff)).getD .undefined))

/-- An instance as the object that a provider hands out. -/
def keyConfigObject (config : DialCacheKeyConfig) : JsValue :=
  .object (written "ttlSec" (LayerConfig.object config.ttlSec) ++
    written "ramp" (LayerConfig.object config.ramp) ++
    written "shadow" ((config.shadow.map ShadowConfig.object).getD .undefined) ++
    written "requestLocal" (flagValue config.requestLocal) ++
    written "coalesce" (flagValue config.coalesce) ++
    written "staleOnErrorMaxAgeSec" config.staleOnErrorMaxAgeSec ++
    written "remoteReadTimeoutMs"
      ((config.remoteReadTimeoutMs.map fun deadline =>
        JsValue.number (.ofInt deadline.ms)).getD .undefined))

/-! ### Leaves -/

/-- The leaves of a policy, with the two that the mismatch shorthand stands for. -/
inductive PolicyLeaf where
  | ttlSec (layer : CacheLayer)
  | ramp (layer : CacheLayer)
  | requestLocal
  | coalesce
  | staleOnErrorMaxAgeSec
  | remoteReadTimeoutMs
  | shadowRamp
  | mismatchValue
  | mismatchDiff

/-- The mismatch leaves of a shadow group once its shorthand is expanded. -/
def mismatchLeaves (shadow : Option ShadowConfig) : MismatchLoggingLeaves :=
  (shadow.map expandMismatchLogging).getD ⟨.undefined, .undefined, false⟩

/-- A leaf of a built policy. -/
def policyLeaf (config : Option DialCacheKeyConfig) : PolicyLeaf → JsValue
  | .ttlSec layer => (config.map (·.ttlSec.leaf layer)).getD .undefined
  | .ramp layer => (config.map (·.ramp.leaf layer)).getD .undefined
  | .requestLocal => flagValue (config.bind (·.requestLocal))
  | .coalesce => flagValue (config.bind (·.coalesce))
  | .staleOnErrorMaxAgeSec => (config.map (·.staleOnErrorMaxAgeSec)).getD .undefined
  | .remoteReadTimeoutMs =>
    ((config.bind (·.remoteReadTimeoutMs)).map fun deadline =>
      JsValue.number (.ofInt deadline.ms)).getD .undefined
  | .shadowRamp => ((config.bind (·.shadow)).map (·.ramp)).getD .undefined
  | .mismatchValue => (mismatchLeaves (config.bind (·.shadow))).value
  | .mismatchDiff => (mismatchLeaves (config.bind (·.shadow))).diff

/-- What a shorthand writes for the value leaf. -/
def shorthandValue : JsValue → JsValue
  | .undefined => .undefined
  | .boolean true => .boolean true
  | _ => .boolean false

/-- What a shorthand writes for the diff leaf. -/
def shorthandDiff : JsValue → JsValue
  | .undefined => .undefined
  | .boolean true => .string (text "values")
  | _ => .string (text "off")

/-- The leaf that an overlay writes, and `undefined` where it writes none. -/
def overlayLeaf (overlay : JsValue) : PolicyLeaf → JsValue
  | .ttlSec layer => (overlay.member "ttlSec").member (layerText layer)
  | .ramp layer => (overlay.member "ramp").member (layerText layer)
  | .requestLocal => overlay.member "requestLocal"
  | .coalesce => overlay.member "coalesce"
  | .staleOnErrorMaxAgeSec => overlay.member "staleOnErrorMaxAgeSec"
  | .remoteReadTimeoutMs => overlay.member "remoteReadTimeoutMs"
  | .shadowRamp => (overlay.member "shadow").member "ramp"
  | .mismatchValue => (((overlay.member "shadow").member "mismatchLogging").member "value").orElse
      (shorthandValue ((overlay.member "shadow").member "logMismatches"))
  | .mismatchDiff => (((overlay.member "shadow").member "mismatchLogging").member "diff").orElse
      (shorthandDiff ((overlay.member "shadow").member "logMismatches"))

/-! ### Merging -/

@[simp] theorem orElse_undefined (value : JsValue) : value.orElse .undefined = value := by
  cases value <;> rfl

@[simp] theorem undefined_orElse (value : JsValue) : JsValue.undefined.orElse value = value := rfl

theorem orElse_of_ne {first : JsValue} (h : first ≠ .undefined) (second : JsValue) :
    first.orElse second = first := by
  cases first with
  | undefined => exact absurd rfl h
  | _ => rfl

variable (shadow : ShadowConfig)

/-- A shorthand that is neither omitted nor a boolean. -/
def malformed : JsValue → Bool
  | .undefined => false
  | .boolean _ => false
  | _ => true

theorem expandMismatchLogging_eq :
    expandMismatchLogging shadow =
      ⟨((shadow.mismatchLogging.map MismatchLoggingConfig.value).getD .undefined).orElse
          (shorthandValue shadow.logMismatches),
        ((shadow.mismatchLogging.map MismatchLoggingConfig.diff).getD .undefined).orElse
          (shorthandDiff shadow.logMismatches), malformed shadow.logMismatches⟩ := by
  obtain ⟨ramp, logMismatches, group⟩ := shadow
  cases group with
  | none | some group =>
    cases logMismatches with
    | boolean value => cases value <;> rfl
    | _ => rfl

theorem shorthand_ne_undefined {shorthand : JsValue} (h : malformed shorthand = true) :
    shorthandValue shorthand ≠ .undefined ∧ shorthandDiff shorthand ≠ .undefined := by
  cases shorthand with
  | undefined => cases h
  | boolean value => cases h
  | _ => exact ⟨JsValue.noConfusion, JsValue.noConfusion⟩

theorem orElse_ne_undefined {first second : JsValue} (h : second ≠ .undefined) :
    first.orElse second ≠ .undefined := by
  cases first with
  | undefined => exact h
  | _ => exact JsValue.noConfusion

/-- A group that is dropped when neither leaf is written. -/
theorem leaves_of_group (group : MismatchLoggingConfig) :
    ((match group with
      | ⟨.undefined, .undefined⟩ => none
      | group => some group : Option MismatchLoggingConfig).map
        MismatchLoggingConfig.value).getD .undefined = group.value ∧
    ((match group with
      | ⟨.undefined, .undefined⟩ => none
      | group => some group : Option MismatchLoggingConfig).map
        MismatchLoggingConfig.diff).getD .undefined = group.diff := by
  obtain ⟨value, diff⟩ := group
  cases value <;> cases diff <;> exact ⟨rfl, rfl⟩

/-- The shadow group of a merge, as three leaves and a raw shorthand. -/
theorem mergeShadowConfig_leaves (defaults overlay : Option ShadowConfig) :
    let merged := mergeShadowConfig defaults overlay
    (merged.map ShadowConfig.ramp).getD .undefined =
        ((overlay.map ShadowConfig.ramp).getD .undefined).orElse
          ((defaults.map ShadowConfig.ramp).getD .undefined) ∧
      (mismatchLeaves merged).value =
        (mismatchLeaves overlay).value.orElse (mismatchLeaves defaults).value ∧
      (mismatchLeaves merged).diff =
        (mismatchLeaves overlay).diff.orElse (mismatchLeaves defaults).diff ∧
      (mismatchLeaves merged).invalid = (mismatchLeaves overlay).invalid := by
  have hmerged : ∀ shadow : ShadowConfig,
      shadow.logMismatches = (if (mismatchLeaves overlay).invalid then
        (overlay.map ShadowConfig.logMismatches).getD .undefined else .undefined) →
      shadow.mismatchLogging = (match (⟨(mismatchLeaves overlay).value.orElse
          (mismatchLeaves defaults).value, (mismatchLeaves overlay).diff.orElse
          (mismatchLeaves defaults).diff⟩ : MismatchLoggingConfig) with
        | ⟨.undefined, .undefined⟩ => none
        | group => some group) →
      (expandMismatchLogging shadow).value =
          (mismatchLeaves overlay).value.orElse (mismatchLeaves defaults).value ∧
        (expandMismatchLogging shadow).diff =
          (mismatchLeaves overlay).diff.orElse (mismatchLeaves defaults).diff ∧
        (expandMismatchLogging shadow).invalid = (mismatchLeaves overlay).invalid := by
    intro shadow hlog hgroup
    have hleaves := leaves_of_group ⟨(mismatchLeaves overlay).value.orElse
      (mismatchLeaves defaults).value, (mismatchLeaves overlay).diff.orElse
      (mismatchLeaves defaults).diff⟩
    rw [← hgroup] at hleaves
    rw [expandMismatchLogging_eq, hleaves.1, hleaves.2, hlog]
    cases hinvalid : (mismatchLeaves overlay).invalid with
    | false => exact ⟨orElse_undefined _, orElse_undefined _, rfl⟩
    | true =>
      -- a malformed shorthand has written both leaves already
      cases overlay with
      | none => cases hinvalid
      | some overlay =>
        have hleaves : mismatchLeaves (some overlay) = _ := expandMismatchLogging_eq overlay
        have hmalformed : malformed overlay.logMismatches = true := by
          rw [hleaves] at hinvalid
          exact hinvalid
        obtain ⟨hvalue, hdiff⟩ := shorthand_ne_undefined hmalformed
        have hwritten : (mismatchLeaves (some overlay)).value ≠ .undefined ∧
            (mismatchLeaves (some overlay)).diff ≠ .undefined := by
          rw [hleaves]
          exact ⟨orElse_ne_undefined hvalue, orElse_ne_undefined hdiff⟩
        rw [orElse_of_ne hwritten.1, orElse_of_ne hwritten.2, orElse_of_ne hwritten.1,
          orElse_of_ne hwritten.2]
        exact ⟨rfl, rfl, hmalformed⟩
  cases defaults with
  | none =>
    cases overlay with
    | none => exact ⟨rfl, rfl, rfl, rfl⟩
    | some overlay => exact ⟨rfl, hmerged _ rfl rfl⟩
  | some defaults => exact ⟨rfl, hmerged _ rfl rfl⟩

variable {overlay : JsValue}

theorem overlayShadowConfig_leaves {shadow : Option ShadowConfig}
    (h : overlayShadowConfig overlay = .ok shadow) :
    (shadow.map ShadowConfig.ramp).getD .undefined = overlay.member "ramp" ∧
      (mismatchLeaves shadow).value = ((overlay.member "mismatchLogging").member "value").orElse
        (shorthandValue (overlay.member "logMismatches")) ∧
      (mismatchLeaves shadow).diff = ((overlay.member "mismatchLogging").member "diff").orElse
        (shorthandDiff (overlay.member "logMismatches")) ∧
      (mismatchLeaves shadow).invalid = malformed (overlay.member "logMismatches") := by
  have hshadow : ∀ config : ShadowConfig, mismatchLeaves (some config) = _ := expandMismatchLogging_eq
  cases overlay with
  | undefined =>
    obtain rfl := Except.ok.inj h
    exact ⟨rfl, rfl, rfl, rfl⟩
  | object members =>
    rw [overlayShadowConfig] at h
    cases hgroup : (JsValue.object members).member "mismatchLogging" with
    | undefined | object group =>
      rw [hgroup] at h
      obtain rfl := Except.ok.inj h
      rw [hshadow]
      exact ⟨rfl, rfl, rfl, rfl⟩
    | _ =>
      rw [hgroup] at h
      cases h
  | _ => cases h

variable {name : String}

theorem mergeLayerConfig_leaf {defaults : Option LayerConfig} {merged : LayerConfig}
    (h : mergeLayerConfig defaults overlay name = .ok merged) (layer : CacheLayer) :
    merged.leaf layer = (overlay.member (layerText layer)).orElse
      ((defaults.map (·.leaf layer)).getD .undefined) := by
  cases overlay with
  | undefined | object members =>
    obtain rfl := Except.ok.inj h
    cases layer <;> rfl
  | _ => cases h

variable {value : JsValue}

theorem flagValue_of_booleanFlag {flag : Option Bool} (h : booleanFlag name value = .ok flag) :
    flagValue flag = value := by
  cases value with
  | undefined | boolean value =>
    obtain rfl := Except.ok.inj h
    rfl
  | _ => cases h

theorem booleanFlag_flagValue (name : String) (flag : Option Bool) :
    booleanFlag name (flagValue flag) = .ok flag := by
  cases flag <;> rfl

/-- A deadline as the number it was written as. -/
def deadlineValue (deadline : Option DeadlineMs) : JsValue :=
  (deadline.map fun deadline => JsValue.number (.ofInt deadline.ms)).getD .undefined

theorem deadlineValue_of_deadlineMs {deadline : Option DeadlineMs}
    (h : deadlineMs name value = .ok deadline) : deadlineValue deadline = value := by
  cases value with
  | undefined =>
    obtain rfl := Except.ok.inj h
    rfl
  | number n =>
    cases hnatural : (JsValue.number n).natural? with
    | none =>
      simp only [deadlineMs, hnatural] at h
      cases h
    | some ms =>
      simp only [deadlineMs, hnatural] at h
      split at h
      · obtain rfl := Except.ok.inj h
        exact (JsValue.eq_of_natural? hnatural).1.symm
      · cases h
  | _ => cases h

/-- The read deadline of a merge. -/
def mergedDeadline (inherited : Option DeadlineMs) : JsValue → Except ConfigError (Option DeadlineMs)
  | .undefined => .ok inherited
  | leaf => deadlineMs "DialCache remoteReadTimeoutMs" leaf

theorem isUndefined_eq_false (h : value ≠ .undefined) : isUndefined value = false := by
  cases value with
  | undefined => exact absurd rfl h
  | _ => rfl

/-- What a successful merge consists of. -/
structure Merged (defaults : Option DialCacheKeyConfig) (overlay : JsValue)
    (merged : DialCacheKeyConfig) : Prop where
  shape : assertKeyConfig overlay = .ok ()
  shadow : ∃ shadow, overlayShadowConfig (overlay.member "shadow") = .ok shadow ∧
    merged.shadow = mergeShadowConfig (defaults.bind (·.shadow)) shadow
  ttlSec : mergeLayerConfig (defaults.map (·.ttlSec)) (overlay.member "ttlSec") "ttlSec" =
    .ok merged.ttlSec
  ramp : mergeLayerConfig (defaults.map (·.ramp)) (overlay.member "ramp") "ramp" = .ok merged.ramp
  requestLocal : booleanFlag "requestLocal" ((overlay.member "requestLocal").orElse
    (flagValue (defaults.bind (·.requestLocal)))) = .ok merged.requestLocal
  coalesce : booleanFlag "coalesce" ((overlay.member "coalesce").orElse
    (flagValue (defaults.bind (·.coalesce)))) = .ok merged.coalesce
  remoteReadTimeoutMs : mergedDeadline (defaults.bind (·.remoteReadTimeoutMs))
    (overlay.member "remoteReadTimeoutMs") = .ok merged.remoteReadTimeoutMs
  staleOnErrorMaxAgeSec : merged.staleOnErrorMaxAgeSec =
    (overlay.member "staleOnErrorMaxAgeSec").orElse
      ((defaults.map (·.staleOnErrorMaxAgeSec)).getD .undefined)

theorem bind_eq_ok {ε α β : Type} {x : Except ε α} {f : α → Except ε β} {b : β} :
    (x >>= f) = .ok b ↔ ∃ a, x = .ok a ∧ f a = .ok b := by
  cases x with
  | error e =>
    constructor
    · intro h
      cases h
    · intro h
      obtain ⟨a, ha, _⟩ := h
      cases ha
  | ok a =>
    constructor
    · intro h
      exact ⟨a, rfl, h⟩
    · intro h
      obtain ⟨a', ha, hf⟩ := h
      obtain rfl := Except.ok.inj ha
      exact hf

theorem bind_mergedDeadline {α : Type} (inherited : Option DeadlineMs) (leaf : JsValue)
    (f : Option DeadlineMs → Except ConfigError α) :
    (match leaf with
      | .undefined => Except.ok inherited >>= f
      | leaf => deadlineMs "DialCache remoteReadTimeoutMs" leaf >>= f) =
      mergedDeadline inherited leaf >>= f := by
  cases leaf <;> rfl

variable {defaults : Option DialCacheKeyConfig} {merged : DialCacheKeyConfig}

theorem mergeKeyConfig_eq_ok :
    mergeKeyConfig defaults overlay = .ok merged ↔ Merged defaults overlay merged := by
  rw [mergeKeyConfig]
  constructor
  · intro h
    obtain ⟨_, hshape, h⟩ := bind_eq_ok.mp h
    obtain ⟨shadow, hshadow, h⟩ := bind_eq_ok.mp h
    obtain ⟨ttlSec, httlSec, h⟩ := bind_eq_ok.mp h
    obtain ⟨ramp, hramp, h⟩ := bind_eq_ok.mp h
    obtain ⟨requestLocal, hrequestLocal, h⟩ := bind_eq_ok.mp h
    obtain ⟨coalesce, hcoalesce, h⟩ := bind_eq_ok.mp h
    obtain ⟨deadline, hdeadline, h⟩ := bind_eq_ok.mp ((bind_mergedDeadline _ _ _).symm.trans h)
    obtain rfl := Except.ok.inj h
    exact ⟨hshape, ⟨shadow, hshadow, rfl⟩, httlSec, hramp, hrequestLocal, hcoalesce, hdeadline,
      rfl⟩
  · intro h
    obtain ⟨hshape, ⟨shadow, hshadow, hmerged⟩, httlSec, hramp, hrequestLocal, hcoalesce, hdeadline,
      hmaxAge⟩ := h
    apply bind_eq_ok.mpr
    refine ⟨(), hshape, bind_eq_ok.mpr ⟨shadow, hshadow, bind_eq_ok.mpr ⟨_, httlSec,
      bind_eq_ok.mpr ⟨_, hramp, bind_eq_ok.mpr ⟨_, hrequestLocal, bind_eq_ok.mpr ⟨_, hcoalesce,
        (bind_mergedDeadline _ _ _).trans (bind_eq_ok.mpr ⟨_, hdeadline, ?_⟩)⟩⟩⟩⟩⟩⟩
    rw [← hmerged, ← hmaxAge]
    rfl

/-- Every leaf of a merge is the overlay's where the overlay writes it, and the default's
otherwise. -/
theorem policyLeaf_merged (h : mergeKeyConfig defaults overlay = .ok merged) (leaf : PolicyLeaf) :
    policyLeaf (some merged) leaf = (overlayLeaf overlay leaf).orElse (policyLeaf defaults leaf) := by
  have hmerged := mergeKeyConfig_eq_ok.mp h
  obtain ⟨shadow, hshadow, hshadowEq⟩ := hmerged.shadow
  have hwritten := overlayShadowConfig_leaves hshadow
  have hleaves := mergeShadowConfig_leaves (defaults.bind (·.shadow)) shadow
  cases leaf with
  | ttlSec layer =>
    have hlayer := mergeLayerConfig_leaf hmerged.ttlSec layer
    rw [Option.map_map] at hlayer
    exact hlayer
  | ramp layer =>
    have hlayer := mergeLayerConfig_leaf hmerged.ramp layer
    rw [Option.map_map] at hlayer
    exact hlayer
  | requestLocal => exact flagValue_of_booleanFlag hmerged.requestLocal
  | coalesce => exact flagValue_of_booleanFlag hmerged.coalesce
  | staleOnErrorMaxAgeSec => exact hmerged.staleOnErrorMaxAgeSec
  | remoteReadTimeoutMs =>
    have hdeadline := hmerged.remoteReadTimeoutMs
    change deadlineValue merged.remoteReadTimeoutMs = (overlay.member "remoteReadTimeoutMs").orElse
      (deadlineValue (defaults.bind (·.remoteReadTimeoutMs)))
    by_cases hmember : overlay.member "remoteReadTimeoutMs" = .undefined
    · rw [hmember] at hdeadline ⊢
      rw [← Except.ok.inj hdeadline]
      rfl
    · rw [mergedDeadline.eq_2 _ _ hmember] at hdeadline
      rw [orElse_of_ne hmember]
      exact deadlineValue_of_deadlineMs hdeadline
  | shadowRamp =>
    rw [← hshadowEq, hwritten.1] at hleaves
    exact hleaves.1
  | mismatchValue =>
    rw [← hshadowEq, hwritten.2.1] at hleaves
    exact hleaves.2.1
  | mismatchDiff =>
    rw [← hshadowEq, hwritten.2.2.1] at hleaves
    exact hleaves.2.2.1

/-! ### Resolution -/

/-- One serving layer of a resolved policy. -/
structure LayerOutcome where
  enabled : Bool
  reason : Option DisabledReason
  ttlSec : Option ℕ
deriving DecidableEq

/-- Everything that one invocation takes from its policy. -/
structure Resolved where
  requestLocal : Bool
  coalesce : Bool
  onLocal : LayerOutcome
  onRemote : LayerOutcome
  readTimeoutMs : ℕ
  staleOnErrorMaxAgeSec : Option ℕ
  staleOnErrorConfigError : Bool
  shadowAdmitted : Bool
  shadowConfigError : Bool
  mismatchValue : Bool
  mismatchDiff : ShadowMismatchDiffLevel
  loggingConfigError : Bool
deriving DecidableEq

def layerOutcome : LayerConfigResolution ResolvedLayerConfig → LayerOutcome
  | .enabled config => ⟨true, none, some config.ttlSec⟩
  | .rampedDown config => ⟨false, some .rampedDown, some config.ttlSec⟩
  | .disabled reason => ⟨false, some reason, none⟩

def remoteOutcome : LayerConfigResolution ResolvedRemoteLayerConfig → LayerOutcome
  | .enabled config => ⟨true, none, some config.ttlSec⟩
  | .rampedDown config => ⟨false, some .rampedDown, some config.ttlSec⟩
  | .disabled reason => ⟨false, some reason, none⟩

def recoveryAge : LayerConfigResolution ResolvedRemoteLayerConfig → Option ℕ
  | .enabled config => config.staleOnErrorMaxAgeSec
  | .rampedDown config => config.staleOnErrorMaxAgeSec
  | .disabled _ => none

/-- Whether shadow work is sampled, and whether its ramp is malformed, as
`scheduleShadowValidation` reads them. -/
def shadowOutcome (urn : List UInt16) (ramp : JsValue) : Bool × Bool :=
  if isUndefined ramp then (false, false)
  else
    match percentage? ramp with
    | none => (false, true)
    | some percentage => (percentage ≠ 0 ∧ shadowSampled urn percentage = true, false)

def shadowRamp (shadow : Option ShadowConfig) : JsValue :=
  (shadow.map ShadowConfig.ramp).getD .undefined

def mismatchLogging (shadow : Option ShadowConfig) : MismatchLoggingResolution :=
  (shadow.map resolveMismatchLogging).getD ⟨false, .off, false⟩

/-- The reads of a call's policy: `requestLocal === true`, `coalesce !== false`, the two layers,
the read deadline over that of the instance, and the shadow group. -/
def resolve (config : Option DialCacheKeyConfig) (urn : List UInt16) (instanceTimeoutMs : ℕ) :
    Resolved where
  requestLocal := config.bind (·.requestLocal) = some true
  coalesce := config.bind (·.coalesce) ≠ some false
  onLocal := layerOutcome (resolveLayerConfigResult config urn .LOCAL)
  onRemote := remoteOutcome (resolveRemoteLayerConfigResult config urn).1
  readTimeoutMs := ((config.bind (·.remoteReadTimeoutMs)).map (·.ms)).getD instanceTimeoutMs
  staleOnErrorMaxAgeSec := recoveryAge (resolveRemoteLayerConfigResult config urn).1
  staleOnErrorConfigError := (resolveRemoteLayerConfigResult config urn).2
  shadowAdmitted := (shadowOutcome urn (shadowRamp (config.bind (·.shadow)))).1
  shadowConfigError := (shadowOutcome urn (shadowRamp (config.bind (·.shadow)))).2
  mismatchValue := (mismatchLogging (config.bind (·.shadow))).value
  mismatchDiff := (mismatchLogging (config.bind (·.shadow))).diff
  loggingConfigError := (mismatchLogging (config.bind (·.shadow))).invalid

theorem flagValue_injective : Function.Injective flagValue := by
  intro a b h
  cases a with
  | none =>
    cases b with
    | none => rfl
    | some b => cases h
  | some a =>
    cases b with
    | none => cases h
    | some b => rw [JsValue.boolean.inj h]

theorem ms_of_deadlineValue {a b : Option DeadlineMs} (h : deadlineValue a = deadlineValue b) :
    a.map (·.ms) = b.map (·.ms) := by
  cases a with
  | none =>
    cases b with
    | none => rfl
    | some b => cases h
  | some a =>
    cases b with
    | none => cases h
    | some b =>
      have hms := JsNumber.finite.inj (JsValue.number.inj h)
      have hcast : (a.ms : ℤ) = b.ms := by exact_mod_cast hms
      simp only [Option.map_some, Option.some.injEq]
      omega

theorem resolveLayerConfigResult_congr {config config' : Option DialCacheKeyConfig}
    {layer : CacheLayer} (httl : policyLeaf config (.ttlSec layer) = policyLeaf config' (.ttlSec layer))
    (hramp : policyLeaf config (.ramp layer) = policyLeaf config' (.ramp layer))
    (urn : List UInt16) :
    resolveLayerConfigResult config urn layer = resolveLayerConfigResult config' urn layer := by
  cases config with
  | none =>
    cases config' with
    | none => rfl
    | some config' =>
      have hundefined : config'.ttlSec.leaf layer = .undefined := httl.symm
      simp only [resolveLayerConfigResult, hundefined]
  | some config =>
    cases config' with
    | none =>
      have hundefined : config.ttlSec.leaf layer = .undefined := httl
      simp only [resolveLayerConfigResult, hundefined]
    | some config' =>
      have httl' : config.ttlSec.leaf layer = config'.ttlSec.leaf layer := httl
      have hramp' : config.ramp.leaf layer = config'.ramp.leaf layer := hramp
      simp only [resolveLayerConfigResult, httl', hramp']

theorem mismatchLogging_eq (shadow : Option ShadowConfig) :
    mismatchLogging shadow =
      ⟨(resolveValueLeaf (mismatchLeaves shadow).value).getD false,
        (resolveDiffLeaf (mismatchLeaves shadow).diff).getD .off,
        (mismatchLeaves shadow).invalid ||
          (resolveValueLeaf (mismatchLeaves shadow).value).isNone ||
          (resolveDiffLeaf (mismatchLeaves shadow).diff).isNone⟩ := by
  cases shadow <;> rfl

theorem mismatchLogging_congr {shadow shadow' : Option ShadowConfig}
    (h : mismatchLeaves shadow = mismatchLeaves shadow') :
    mismatchLogging shadow = mismatchLogging shadow' := by
  rw [mismatchLogging_eq shadow, mismatchLogging_eq shadow', h]

/-- A resolution reads leaves only, and whether the shorthand was malformed. -/
theorem resolve_congr {config config' : Option DialCacheKeyConfig}
    (h : ∀ leaf, policyLeaf config leaf = policyLeaf config' leaf)
    (hinvalid : (mismatchLeaves (config.bind (·.shadow))).invalid =
      (mismatchLeaves (config'.bind (·.shadow))).invalid)
    (urn : List UInt16) (instanceTimeoutMs : ℕ) :
    resolve config urn instanceTimeoutMs = resolve config' urn instanceTimeoutMs := by
  have hlocal := resolveLayerConfigResult_congr (h (.ttlSec .LOCAL)) (h (.ramp .LOCAL)) urn
  have hremote := resolveLayerConfigResult_congr (h (.ttlSec .REMOTE)) (h (.ramp .REMOTE)) urn
  have hmaxAge : (config.map (·.staleOnErrorMaxAgeSec)).getD .undefined =
      (config'.map (·.staleOnErrorMaxAgeSec)).getD .undefined := h .staleOnErrorMaxAgeSec
  have hresolved : resolveRemoteLayerConfigResult config urn =
      resolveRemoteLayerConfigResult config' urn := by
    rw [resolveRemoteLayerConfigResult, resolveRemoteLayerConfigResult, hremote, hmaxAge]
  have hrequestLocal := flagValue_injective (h .requestLocal)
  have hcoalesce := flagValue_injective (h .coalesce)
  have hdeadline := ms_of_deadlineValue (h .remoteReadTimeoutMs)
  have hramp : shadowRamp (config.bind (·.shadow)) = shadowRamp (config'.bind (·.shadow)) :=
    h .shadowRamp
  have hleaves : mismatchLeaves (config.bind (·.shadow)) =
      mismatchLeaves (config'.bind (·.shadow)) := by
    have hvalue := h .mismatchValue
    have hdiff := h .mismatchDiff
    simp only [policyLeaf] at hvalue hdiff
    cases hconfig : mismatchLeaves (config.bind (·.shadow))
    cases hconfig' : mismatchLeaves (config'.bind (·.shadow))
    rw [hconfig, hconfig'] at hvalue hdiff hinvalid
    simp only at hvalue hdiff hinvalid
    rw [hvalue, hdiff, hinvalid]
  simp only [resolve, hlocal, hresolved, hrequestLocal, hcoalesce, hdeadline, hramp,
    mismatchLogging_congr hleaves]

theorem scheduleShadowValidation_off {V X : Type} (settings : Settings X) (plan : Plan)
    (start : ShadowValidationStart X) (readTimeoutMs : ℕ)
    (h : shadowOutcome plan.key.urn (shadowRamp (plan.keyConfig.bind (·.shadow))) =
      (false, false)) :
    scheduleShadowValidation (V := V) settings plan start readTimeoutMs = pure () := by
  rw [scheduleShadowValidation]
  cases hshadow : plan.keyConfig.bind (·.shadow) with
  | none => rfl
  | some shadow =>
    rw [hshadow] at h
    have hramp : shadowOutcome plan.key.urn shadow.ramp = (false, false) := h
    by_cases hundefined : shadow.ramp = .undefined
    · simp only [hundefined]
    · rw [shadowOutcome, isUndefined_eq_false hundefined] at hramp
      cases hpercentage : percentage? shadow.ramp with
      | none =>
        rw [hpercentage] at hramp
        cases hramp
      | some percentage =>
        rw [hpercentage] at hramp
        have hsampled : ¬ (percentage ≠ 0 ∧ shadowSampled plan.key.urn percentage = true) :=
          of_decide_eq_false (Prod.mk.inj hramp).1
        have hadmitted : ¬ (percentage ≠ 0 ∧ settings.shadowHook = true ∧
            shadowSampled plan.key.urn percentage = true) := fun hand => hsampled ⟨hand.1, hand.2.2⟩
        dsimp only
        split
        · rename_i hcase
          exact absurd hcase hundefined
        · simp only [hpercentage, if_neg hadmitted]

/-! ### The empty overlay and the kill switch -/

/-- `{}`. -/
def emptyOverlay : JsValue := .object []

theorem mergeKeyConfig_empty (defaults : Option DialCacheKeyConfig) :
    ∃ merged, mergeKeyConfig defaults emptyOverlay = .ok merged := by
  rw [mergeKeyConfig]
  have hmember : ∀ name, emptyOverlay.member name = .undefined := fun _ => rfl
  have hshape : assertKeyConfig emptyOverlay = .ok () := rfl
  rw [hshape]
  simp only [hmember, undefined_orElse, booleanFlag_flagValue]
  exact ⟨_, rfl⟩

/-- Registration rejects a malformed shorthand. -/
theorem valid_of_snapshotDefaultConfig (h : snapshotDefaultConfig value = .ok defaults) :
    (mismatchLeaves (defaults.bind (·.shadow))).invalid = false := by
  cases value with
  | undefined | null =>
    obtain rfl := Except.ok.inj h
    rfl
  | object members =>
    simp only [snapshotDefaultConfig] at h
    split at h
    · cases h
    · obtain ⟨requestLocal, _, h⟩ := bind_eq_ok.mp h
      obtain ⟨coalesce, _, h⟩ := bind_eq_ok.mp h
      obtain ⟨ttlSec, _, h⟩ := bind_eq_ok.mp h
      obtain ⟨ramp, _, h⟩ := bind_eq_ok.mp h
      obtain ⟨shadow, _, h⟩ := bind_eq_ok.mp h
      obtain ⟨deadline, _, h⟩ := bind_eq_ok.mp h
      obtain ⟨_, _, h⟩ := bind_eq_ok.mp h
      obtain ⟨_, _, h⟩ := bind_eq_ok.mp h
      obtain ⟨_, _, h⟩ := bind_eq_ok.mp h
      obtain ⟨_, hshadow, h⟩ := bind_eq_ok.mp h
      obtain rfl := Except.ok.inj h
      cases shadow with
      | none => rfl
      | some shadow =>
        change (expandMismatchLogging shadow).invalid = false
        rw [expandMismatchLogging_eq]
        obtain ⟨_, _, hlog⟩ := bind_eq_ok.mp hshadow
        cases hshorthand : shadow.logMismatches with
        | undefined => rfl
        | boolean value => rfl
        | _ =>
          rw [hshorthand] at hlog
          cases hlog
  | _ => cases h

/-- An overlay that writes no leaf leaves the resolution of an accepted default as it is. -/
theorem resolve_unwritten (haccepted : snapshotDefaultConfig value = .ok defaults)
    (hmerge : mergeKeyConfig defaults overlay = .ok merged)
    (hunwritten : ∀ leaf, overlayLeaf overlay leaf = .undefined) (urn : List UInt16)
    (instanceTimeoutMs : ℕ) :
    resolve (some merged) urn instanceTimeoutMs = resolve defaults urn instanceTimeoutMs := by
  apply resolve_congr
  · intro leaf
    rw [policyLeaf_merged hmerge, hunwritten, undefined_orElse]
  · obtain ⟨shadow, hshadow, hmerged⟩ := (mergeKeyConfig_eq_ok.mp hmerge).shadow
    have hvalue : ((((overlay.member "shadow").member "mismatchLogging").member "value").orElse
        (shorthandValue ((overlay.member "shadow").member "logMismatches"))) = .undefined :=
      hunwritten .mismatchValue
    have hshorthand : malformed ((overlay.member "shadow").member "logMismatches") = false := by
      cases hmalformed : malformed ((overlay.member "shadow").member "logMismatches") with
      | false => rfl
      | true => exact absurd hvalue (orElse_ne_undefined (shorthand_ne_undefined hmalformed).1)
    have hinvalid := (mergeShadowConfig_leaves (defaults.bind (·.shadow)) shadow).2.2.2
    rw [← hmerged, (overlayShadowConfig_leaves hshadow).2.2.2, hshorthand] at hinvalid
    exact hinvalid.trans (valid_of_snapshotDefaultConfig haccepted).symm

/-- No memo, no serving layer, no recovery and no shadow work, and no error to report. -/
structure Off (resolved : Resolved) : Prop where
  requestLocal : resolved.requestLocal = false
  onLocal : resolved.onLocal.enabled = false
  onRemote : resolved.onRemote.enabled = false
  staleOnErrorMaxAgeSec : resolved.staleOnErrorMaxAgeSec = none
  staleOnErrorConfigError : resolved.staleOnErrorConfigError = false
  shadowAdmitted : resolved.shadowAdmitted = false
  shadowConfigError : resolved.shadowConfigError = false
  loggingConfigError : resolved.loggingConfigError = false

theorem mergeKeyConfig_disabled (defaults : Option DialCacheKeyConfig) :
    ∃ merged, mergeKeyConfig defaults (keyConfigObject disabled) = .ok merged := by
  rw [mergeKeyConfig]
  have hcoalesce : (keyConfigObject disabled).member "coalesce" = .undefined := rfl
  have hshape : assertKeyConfig (keyConfigObject disabled) = .ok () := rfl
  rw [hshape, hcoalesce, undefined_orElse, booleanFlag_flagValue]
  exact ⟨_, rfl⟩

theorem resolveLayerConfigResult_ramp_zero {config : DialCacheKeyConfig} {layer : CacheLayer}
    (h : config.ramp.leaf layer = zero) (urn : List UInt16) (resolved : ResolvedLayerConfig) :
    resolveLayerConfigResult (some config) urn layer ≠ .enabled resolved := by
  have hramp : configuredRamp? (config.ramp.leaf layer) = some 0 := by
    rw [h]
    rfl
  simp only [resolveLayerConfigResult, hramp]
  split
  · intro hcase
    cases hcase
  · split
    · intro hcase
      cases hcase
    · split
      · rw [if_pos (le_refl 0)]
        intro hcase
        cases hcase
      · intro hcase
        cases hcase

theorem recovery_off {config : DialCacheKeyConfig} (h : config.staleOnErrorMaxAgeSec = zero)
    (urn : List UInt16) :
    recoveryAge (resolveRemoteLayerConfigResult (some config) urn).1 = none ∧
      (resolveRemoteLayerConfigResult (some config) urn).2 = false := by
  have hage : ∀ base, resolveMaxAge zero base = resolveMaxAge .undefined base := by
    intro base
    rfl
  simp only [resolveRemoteLayerConfigResult, Option.map_some, Option.getD_some, h, hage]
  cases resolveLayerConfigResult (some config) urn .REMOTE with
  | enabled base | rampedDown base => exact ⟨rfl, rfl⟩
  | disabled reason =>
    refine ⟨rfl, ?_⟩
    have hunset : (zero.natural? == some 0) = true := rfl
    cases reason <;> rfl

theorem resolveMaxAge_ttlSec (configured : JsValue) (base : ResolvedLayerConfig) :
    (resolveMaxAge configured base).1.ttlSec = base.ttlSec := by
  by_cases h : configured = .undefined
  · rw [h]
    rfl
  · rw [resolveMaxAge.eq_2 _ _ h]
    repeat' split
    all_goals rfl

theorem remoteOutcome_eq (config : Option DialCacheKeyConfig) (urn : List UInt16) :
    remoteOutcome (resolveRemoteLayerConfigResult config urn).1 =
      layerOutcome (resolveLayerConfigResult config urn .REMOTE) := by
  rw [resolveRemoteLayerConfigResult]
  generalize (config.map (·.staleOnErrorMaxAgeSec)).getD .undefined = age
  cases resolveLayerConfigResult config urn .REMOTE with
  | disabled reason => rfl
  | enabled base => exact congrArg (LayerOutcome.mk true none ∘ some) (resolveMaxAge_ttlSec age base)
  | rampedDown base =>
    exact congrArg (LayerOutcome.mk false (some .rampedDown) ∘ some) (resolveMaxAge_ttlSec age base)

/-- The kill switch is complete against every inherited policy. -/
theorem off_of_disabled (h : mergeKeyConfig defaults (keyConfigObject disabled) = .ok merged)
    (urn : List UInt16) (instanceTimeoutMs : ℕ) :
    Off (resolve (some merged) urn instanceTimeoutMs) := by
  have hleaf := policyLeaf_merged h
  have hrequestLocal : flagValue merged.requestLocal = .boolean false := hleaf .requestLocal
  have hmaxAge : merged.staleOnErrorMaxAgeSec = zero := hleaf .staleOnErrorMaxAgeSec
  have hshadowRamp : shadowRamp merged.shadow = zero := hleaf .shadowRamp
  have hvalue : (mismatchLeaves merged.shadow).value = .boolean false := hleaf .mismatchValue
  have hdiff : (mismatchLeaves merged.shadow).diff = .string (text "off") := hleaf .mismatchDiff
  have hdisabled : ∀ layer, (layerOutcome (resolveLayerConfigResult (some merged) urn layer)).enabled
      = false := by
    intro layer
    have hramp : merged.ramp.leaf layer = zero := by
      have hwritten := hleaf (.ramp layer)
      cases layer with
      | LOCAL => exact hwritten
      | REMOTE => exact hwritten
    have hne := resolveLayerConfigResult_ramp_zero hramp urn
    cases hresolved : resolveLayerConfigResult (some merged) urn layer with
    | enabled resolved => exact absurd hresolved (hne resolved)
    | rampedDown resolved => rfl
    | disabled reason => rfl
  have hinvalid : (mismatchLeaves merged.shadow).invalid = false := by
    obtain ⟨shadow, hshadow, hmerged⟩ := (mergeKeyConfig_eq_ok.mp h).shadow
    rw [hmerged, (mergeShadowConfig_leaves (defaults.bind (·.shadow)) shadow).2.2.2,
      (overlayShadowConfig_leaves hshadow).2.2.2]
    rfl
  have hshadow : shadowOutcome urn (shadowRamp merged.shadow) = (false, false) := by
    rw [hshadowRamp]
    rfl
  have hlogging : (mismatchLogging merged.shadow).invalid = false := by
    cases hsome : merged.shadow with
    | none => rfl
    | some shadow =>
      rw [hsome] at hvalue hdiff hinvalid
      change (resolveMismatchLogging shadow).invalid = false
      have hleaves : expandMismatchLogging shadow = ⟨.boolean false, .string (text "off"), false⟩ := by
        cases hexpanded : expandMismatchLogging shadow
        simp only [mismatchLeaves, Option.map_some, Option.getD_some, hexpanded] at hvalue hdiff hinvalid
        rw [hvalue, hdiff, hinvalid]
      rw [resolveMismatchLogging, hleaves]
      rfl
  exact {
    requestLocal := by
      have hflag : merged.requestLocal = some false := flagValue_injective hrequestLocal
      simp [resolve, hflag]
    onLocal := hdisabled .LOCAL
    onRemote :=
      (congrArg LayerOutcome.enabled (remoteOutcome_eq (some merged) urn)).trans (hdisabled .REMOTE)
    staleOnErrorMaxAgeSec := (recovery_off hmaxAge urn).1
    staleOnErrorConfigError := (recovery_off hmaxAge urn).2
    shadowAdmitted := congrArg Prod.fst hshadow
    shadowConfigError := congrArg Prod.snd hshadow
    loggingConfigError := hlogging }

end DialCache.PolicyOverlays
