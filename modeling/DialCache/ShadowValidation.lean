import DialCache.RedisCache

/-!
# Shadow validation

Detached validation of cached values against their source. A sampled invocation is
admitted as a job or dropped; an admitted job runs outside its caller under one deadline,
reads and compares without serving anything, and reports one outcome.
-/

namespace DialCache.ShadowValidation

open AsyncPrograms CacheKeys CacheOperations JsValues RedisFrames RuntimeConfig RedisCache

variable {V X : Type}

/-- The configuration of a cache instance. -/
structure Settings (X : Type) where
  cacheNamespace : JsString
  redis : Option (RedisSettings X)
  shadowHook : Bool
  shadowMaxInFlight : ℕ
  shadowMaxInFlight_pos : 0 < shadowMaxInFlight

inductive ShadowValidationStart (X : Type) where
  | retained (frame : ReplyObject X)
  | redis (source : ℕ) (remoteConfig : ResolvedRemoteLayerConfig) (startedAtMs : Option ℚ)

def ShadowValidationStart.frame : ShadowValidationStart X → Option (ReplyObject X)
  | .retained frame => some frame
  | .redis _ _ _ => none

def ShadowValidationStart.run : ShadowValidationStart X → ShadowValidationRunStart
  | .retained _ => .retained
  | .redis source remoteConfig _ => .redis source remoteConfig

variable (key : DialCacheKey)

/-- Log the details of a reported mismatch; the verdict is already recorded. -/
def warnShadowMismatch (details : ShadowMismatchDetails V) (valueAgeSeconds : Option ℚ) :
    Async V X Unit := do
  let failure : Option ShadowMismatchLoggingOutcome ← act (.renderMismatch details)
  let delivered : Delivery ← act (.warnMismatch (keyLabels key) details valueAgeSeconds failure)
  match failure, delivered with
  | some failure, _ => observe (.shadowMismatchLogging (keyLabels key) failure)
  | none, .delivered succeeded =>
    observe (.shadowMismatchLogging (keyLabels key) (if succeeded then .logged else .loggerError))
  | none, .pending => do
    let succeeded : Bool ← act .fulfills
    observe (.shadowMismatchLogging (keyLabels key) (if succeeded then .logged else .loggerError))

def recordValueAge (outcome : ShadowValidationOutcome) : Option ℚ → Async V X Unit
  | some seconds => observe (.observeShadowValueAge (keyLabels key) outcome seconds)
  | none => return ()

def warnDetails (report : ShadowReport V) : Async V X Unit :=
  match report.mismatchDetails with
  | some details => warnShadowMismatch key details report.valueAgeSeconds
  | none => return ()

def recordShadowValidation (report : ShadowReport V) : Async V X Unit := do
  observe (.shadowValidation (keyLabels key) report.outcome)
  recordValueAge key report.outcome report.valueAgeSeconds
  warnDetails key report

/-- The logging leaves captured at admission; `none` when both are off. -/
def resolveShadowLogging (shadow : ShadowConfig) : Async V X (Option ShadowMismatchLogPlan) := do
  let resolved := resolveMismatchLogging shadow
  let plan := if resolved.value || resolved.diff != .off then
    some ⟨resolved.value, resolved.diff⟩ else none
  if resolved.invalid then
    recordError key .REMOTE .configResolution
    return plan
  else return plan

def shadowStartedAt : ShadowValidationStart X → Async V X ℚ
  | .redis _ _ (some startedAtMs) => return startedAtMs
  | _ => performanceNow

/-- A sampled attempt: admitted while there is room, dropped otherwise. -/
def admitShadowValidation (plan : Plan) (shadow : ShadowConfig) (start : ShadowValidationStart X)
    (readTimeoutMs : ℕ) : Async V X Unit := do
  if ← act (.shadow (.busy plan.key.urn)) then
    recordShadowValidation plan.key ⟨.dropped, none, none⟩
  else
    let logPlan ← resolveShadowLogging plan.key shadow
    let startedAtMs ← shadowStartedAt start
    let _ ← act (.shadow (.enlist plan.key.urn start.frame
      ⟨plan, start.run, startedAtMs, readTimeoutMs, logPlan⟩))

/-- Whether a percentage samples a key. -/
def shadowSampled (urn : JsString) (percentage : ℚ) : Bool :=
  !(percentage < 100 && percentage ≤ deterministicShadowRampSample urn)

def scheduleShadowValidation (settings : Settings X) (plan : Plan)
    (start : ShadowValidationStart X) (readTimeoutMs : ℕ) : Async V X Unit :=
  match plan.keyConfig.bind (·.shadow) with
  | none => return ()
  | some shadow =>
    match shadow.ramp with
    | .undefined => return ()
    | ramp =>
      match percentage? ramp with
      | none => recordError plan.key .REMOTE .configResolution
      | some percentage =>
        if percentage ≠ 0 ∧ settings.shadowHook = true ∧
            shadowSampled plan.key.urn percentage = true then
          admitShadowValidation plan shadow start readTimeoutMs
        else return ()

/-- The budget of a job counts from the moment its operation was deferred, or for a frame
the caller was served from, from the start of its run. -/
def deadlineStart (work : ShadowWork) : Async V X ℚ :=
  match work.start with
  | .retained => performanceNow
  | .redis _ _ => return work.startedAtMs

def runShadowValidation (job : ℕ) (work : ShadowWork) : Async V X Unit := do
  let deadlineStartedAtMs ← deadlineStart work
  let nowMs ← performanceNow
  let elapsedBeforeStartMs := max (nowMs - deadlineStartedAtMs) 0
  let remainingTimeoutMs := max (work.plan.call.shadowTimeoutMs - elapsedBeforeStartMs) 0
  let operation ← spawn (.shadowOperation job work deadlineStartedAtMs)
  act (.shadow (.start job remainingTimeoutMs operation))
  act (.shadow (.arm job))

section Operation

variable (redis : RedisSettings X) (job : ℕ) (work : ShadowWork) (deadlineStartedAtMs : ℚ)

def abandonIfExpired : Async V X Bool := do
  if ← act (.shadow (.abandoned job)) then return true
  else
    let nowMs ← performanceNow
    if nowMs - deadlineStartedAtMs ≥ work.plan.call.shadowTimeoutMs then
      act (.shadow (.abandon job))
      return true
    else return false

/-- `if (abandonIfExpired()) return "timeout"`, then the rest of the operation. -/
def unlessExpired (rest : Async V X ShadowValidationOutcome) :
    Async V X ShadowValidationOutcome := do
  if ← abandonIfExpired job work deadlineStartedAtMs then return .timeout else rest

def readShadowFrame (maxAgeSec : Option ℕ) (futureFramePolicy : FutureFramePolicy) :
    Async V X (ReadResult X) := do
  let started ← startPayloadReadForShadow work.plan.key work.readTimeoutMs
  act (.shadow (.addPendingRead job started.read))
  shadowReadResult work.plan.key started maxAgeSec futureFramePolicy

/-- The source of a job; `none` when the deadline wins the race against the caller's. -/
def shadowSource : Async V X (Option V) :=
  match work.start with
  | .retained => do return some (← Program.ofExcept (← act .disabledSource))
  | .redis source _ => do
    if ← act (.shadow (.raceTimedOut job)) then return none
    else
      let value ← join source
      pause
      return some value

def sourceFailure : Async V X ShadowValidationOutcome :=
  match work.start with
  | .retained => return .sourceError
  | .redis _ _ => do
    if ← act (.source (.didTimeOut work.plan.id)) then return .timeout else return .sourceError

/-- Obtain the source value and go on with it. -/
def withSource (next : V → Async V X ShadowValidationOutcome) :
    Async V X ShadowValidationOutcome := do
  match ← (shadowSource job work).attempt with
  | .error _ => sourceFailure work
  | .ok none => return .timeout
  | .ok (some sourceValue) => unlessExpired job work deadlineStartedAtMs (next sourceValue)

/-- Populate a missing value from the caller's source. -/
def shadowFill (config : ResolvedRemoteLayerConfig) (observedWatermarkMs : Option ℕ)
    (sourceValue : V) : Async V X ShadowValidationOutcome :=
  tryCatch
    (do
      let filled ← awaited (putForShadow redis work.plan.key sourceValue config
        (do return !(← abandonIfExpired job work deadlineStartedAtMs)) observedWatermarkMs)
      unlessExpired job work deadlineStartedAtMs
        (return if filled then .filled else .fillFenced))
    fun e => do
      observe (.log .warn "Error populating Redis from DialCache shadow work" (some e))
      return .fillError

/-- The age of a validated value; skipped for a stamp that is not finite. -/
def shadowValueAgeSeconds (frame : ReplyObject X) : Async V X (Option ℚ) := do
  let createdAtMs ← readStamp frame
  let nowMs ← dateNow
  match (← getMember createdAtMs.numeric).subtractFrom nowMs with
  | .finite ageMs => return some (max (ageMs / 1000) 0)
  | _ => return none

/-- Compare payloads, strings by their UTF-8 bytes where the other side is a buffer. -/
def redisPayloadsEqual : Payload → Payload → Except (Failure X) Bool
  | .typed (.text left), .typed (.text right) => .ok (left == right)
  | .typed left, .typed right => .ok (payloadBytes left == payloadBytes right)
  | .foreign (some left), .typed (.binary right) => .ok (right == left)
  | .foreign none, .typed (.binary _) => .error (.error
      "The first argument must be of type string or an instance of Buffer, ArrayBuffer, or Array or an Array-like Object.")
  | _, _ => .ok false

def framePayloadsEqual (original confirmation : ReplyObject X) : Async V X Bool := do
  let left ← getMember original.payload
  let right ← getMember confirmation.payload
  Program.ofExcept (redisPayloadsEqual left right)

def setMismatchDetails (cachedValue sourceValue : V) : Async V X Unit :=
  match work.logPlan with
  | some logPlan => act (.shadow (.setMismatchDetails job ⟨logPlan, cachedValue, sourceValue⟩))
  | none => return ()

/-- The verdict after the confirming read. -/
def concludeMismatch (cachedValue sourceValue : V) (confirmation : ReadResult X) :
    Async V X ShadowValidationOutcome := do
  let original : Option (ReplyObject X) ← act (.shadow (.cachedFrame job))
  match original, confirmation with
  | none, _ => return .timeout
  | some _, .miss _ => return .superseded
  | some original, .frame confirmation =>
    if ← framePayloadsEqual original confirmation then
      setMismatchDetails job work cachedValue sourceValue
      let age ← shadowValueAgeSeconds original
      act (.shadow (.setValueAge job age))
      return .mismatch
    else return .superseded

def confirmMismatch (cachedValue sourceValue : V) : Async V X ShadowValidationOutcome := do
  match ← (readShadowFrame job work none .retain).attempt with
  | .error _ => return .confirmationError
  | .ok confirmation =>
    unlessExpired job work deadlineStartedAtMs
      (concludeMismatch job work cachedValue sourceValue confirmation)

def concludeMatch (frame : ReplyObject X) : Async V X ShadowValidationOutcome := do
  let age ← shadowValueAgeSeconds frame
  act (.shadow (.setValueAge job age))
  return .matched

def compareValues (frame : ReplyObject X) (cachedValue sourceValue : V) :
    Async V X ShadowValidationOutcome := do
  let result : Except (Failure X) CallbackResult ← act (.comparator cachedValue sourceValue)
  match result with
  | .error _ => return .comparisonError
  | .ok .other =>
    let _ ← act .fulfills
    unlessExpired job work deadlineStartedAtMs (return .comparisonError)
  | .ok (.boolean equal) =>
    unlessExpired job work deadlineStartedAtMs
      (if equal then concludeMatch job frame
        else confirmMismatch job work deadlineStartedAtMs cachedValue sourceValue)

def loadForShadow (frame : ReplyObject X) : Async V X V := do
  let payload ← getMember frame.payload
  awaited (deserializeForShadow redis work.plan.key payload)

/-- Compare the job's frame with the source value. -/
def shadowCompare (sourceValue : V) : Async V X ShadowValidationOutcome := do
  let retained : Option (ReplyObject X) ← act (.shadow (.cachedFrame job))
  match retained with
  | none => return .timeout
  | some frame =>
    match ← (loadForShadow redis work frame).attempt with
    | .error _ => return .deserializationError
    | .ok cachedValue =>
      unlessExpired job work deadlineStartedAtMs
        (compareValues job work deadlineStartedAtMs frame cachedValue sourceValue)

/-- After the job's own read: a miss is filled, a frame is compared. -/
def continueWithRead (config : ResolvedRemoteLayerConfig) :
    ReadResult X → Async V X ShadowValidationOutcome
  | .miss miss => withSource job work deadlineStartedAtMs
      (shadowFill redis job work deadlineStartedAtMs config miss.observedWatermarkMs)
  | .frame frame => do
    act (.shadow (.setCachedFrame job frame))
    withSource job work deadlineStartedAtMs (shadowCompare redis job work deadlineStartedAtMs)

def validateShadow : Async V X ShadowValidationOutcome :=
  match work.start with
  | .retained =>
    withSource job work deadlineStartedAtMs (shadowCompare redis job work deadlineStartedAtMs)
  | .redis _ config => do
    match ← (readShadowFrame job work (some config.ttlSec) .reject).attempt with
    | .error _ => return .redisError
    | .ok result =>
      unlessExpired job work deadlineStartedAtMs
        (continueWithRead redis job work deadlineStartedAtMs config result)

/-- The operation under the job's deadline. It starts in a microtask of its own. -/
def shadowOperation : Async V X ShadowValidationOutcome := do
  pause
  Program.andFinally
    (unlessExpired job work deadlineStartedAtMs
      (validateShadow redis job work deadlineStartedAtMs))
    (act (.shadow (.finishOperation job)))

end Operation

end DialCache.ShadowValidation
