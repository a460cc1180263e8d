import DialCache.ShadowValidation

/-!
# The cache chain

One execution of a cache operation: request memo, process-local store, Redis and source,
with the coalescing of concurrent calls of one key. Every failure of the chain itself is
recorded and the chain goes on towards the source.
-/

namespace DialCache.CacheTraversal

open AsyncPrograms CacheKeys CacheOperations JsValues RuntimeConfig RedisCache ShadowValidation

variable {V X : Type}

inductive CacheGetResult (V : Type) where
  | hit (value : V)
  | miss (config : ResolvedLayerConfig)
  | disabled (reason : DisabledReason)

inductive RemoteCacheGetResult (V X : Type) where
  | read (result : RedisCacheGetResult V X)
  | disabled (reason : DisabledReason) (skipCacheWrite : Bool)
  | error

/-- The remote layer as an invocation sees it. A reason other than `config_error` is the
one its policy snapshot resolves to. -/
inductive RemoteLayer (plan : Plan) where
  | enabled (config : ResolvedRemoteLayerConfig) (h : plan.remoteLayer.1 = .enabled config)
  | rampedDown (config : ResolvedRemoteLayerConfig) (h : plan.remoteLayer.1 = .rampedDown config)
  | disabled (reason : DisabledReason) (skipCacheWrite : Bool)
      (h : reason ≠ .configError → plan.remoteLayer.1 = .disabled reason)

/-- The application's source under the deadline of the call. -/
def boundedSource (invocation : Invocation) (budget : Option DeadlineMs) : Async V X V := do
  let source : ℕ ← act (.source (.start invocation budget))
  act (.source (.arm source))
  Program.ofExcept (← act (.source (.settled source)))

def callFallback (invocation : Invocation) (labels : CacheMetricLabels) : Async V X V := do
  let start ← performanceNow
  Program.andFinally
    (tryCatch (boundedSource invocation invocation.call.fallbackTimeoutMs) fun e => do
      observe (.error labels .fallback true)
      throw e)
    (do observe (.observeFallback labels (← elapsedSeconds start)))

/-- `await this.callFallback(..)`. -/
def awaitFallback (invocation : Invocation) (labels : CacheMetricLabels) : Async V X V := do
  join (← spawn (.fallback invocation labels))

variable (settings : Settings X) (redis : RedisSettings X) (key : DialCacheKey) (plan : Plan)

def recordInvalidLeaf (layer : CacheLayer) (reason : DisabledReason) : Async V X Unit :=
  if reason = .invalidTtl ∨ reason = .invalidRamp then
    recordError key (metricLayer layer) .configResolution
  else return ()

def recordDisabled (layer : CacheLayer) (reason : DisabledReason) : Async V X Unit := do
  observe (.disabled (labelsFor key (metricLayer layer)) reason)
  recordInvalidLeaf key layer reason

/-- A policy that cannot be resolved disables its layer. -/
def recordPolicyFailure (layer : CacheLayer) (level : LogLevel) (message : String)
    (reason : Failure X) : Async V X Unit := do
  observe (.log level message (some reason))
  recordError key (metricLayer layer) .configResolution
  observe (.disabled (labelsFor key (metricLayer layer)) .configError)

/-- The local layer: its configuration when it is enabled, otherwise the reason. -/
def resolveLocalLayerConfig : Async V X (Except DisabledReason ResolvedLayerConfig) := do
  let resolved : Except (Failure X) Unit ← act (.resolvePolicy .LOCAL)
  match resolved with
  | .error e =>
    recordPolicyFailure plan.key .LOCAL .error "Error resolving local cache config" e
    return .error .configError
  | .ok () =>
    pause
    match resolveLayerConfigResult plan.keyConfig plan.key.urn .LOCAL with
    | .enabled config => return .ok config
    | .rampedDown _ =>
      recordDisabled plan.key .LOCAL .rampedDown
      return .error .rampedDown
    | .disabled reason =>
      recordDisabled plan.key .LOCAL reason
      return .error reason

def recordMalformedStalePolicy : Async V X Unit :=
  if plan.remoteLayer.2 then recordError plan.key .REMOTE .configResolution else return ()

def resolvedRemoteLayer : Async V X (RemoteLayer plan) :=
  match h : plan.remoteLayer.1 with
  | .enabled config => return .enabled config h
  | .rampedDown config => do
    recordDisabled plan.key .REMOTE .rampedDown
    return .rampedDown config h
  | .disabled reason => do
    recordDisabled plan.key .REMOTE reason
    return .disabled reason false (fun _ => h)

def resolveRemoteLayerConfig : Async V X (RemoteLayer plan) := do
  let resolved : Except (Failure X) Unit ← act (.resolvePolicy .REMOTE)
  match resolved with
  | .error e =>
    recordPolicyFailure plan.key .REMOTE .warn "Error resolving Redis cache config" e
    return .disabled .configError plan.key.trackForInvalidation (fun h => absurd rfl h)
  | .ok () =>
    recordMalformedStalePolicy plan
    resolvedRemoteLayer plan

def recordLocalRead (startMs : ℚ) : Async V X Unit := do
  observe (.request (labelsFor key .LOCAL))
  observe (.observeGet (labelsFor key .LOCAL) (← elapsedSeconds startMs))

def readLocalWithResolvedConfig (config : ResolvedLayerConfig) : Async V X (CacheGetResult V) := do
  let start ← performanceNow
  let result : Except (Failure X) (Option V) ← act (.store (.get key.urn))
  match result with
  | .ok (some value) =>
    recordLocalRead key start
    return .hit value
  | .ok none =>
    recordLocalRead key start
    observe (.miss (labelsFor key .LOCAL) .valueAbsent)
    return .miss config
  | .error e =>
    observe (.log .error "Error getting value from local cache" (some e))
    recordError key .LOCAL .cacheRead
    observe (.disabled (labelsFor key .LOCAL) .configError)
    return .disabled .configError

def readRemoteWithResolvedConfig (config : ResolvedRemoteLayerConfig) (readTimeoutMs : ℕ) :
    Async V X (RemoteCacheGetResult V X) :=
  tryCatch
    (do return .read (← awaited (getWithResolvedConfig redis key config readTimeoutMs)))
    fun e => do
      observe (.log .warn "Error getting value from Redis cache" (some e))
      return .error

def putLocalFailOpen (value : V) (config : ResolvedLayerConfig) : Async V X Unit := do
  let stored : Except (Failure X) Unit ←
    act (.store (.put key.urn value (cacheTtlSecToMs config.ttlSec - 1)))
  match stored with
  | .ok () => return ()
  | .error e =>
    observe (.log .warn "Error putting value in local cache" (some e))
    recordError key .LOCAL .cacheWrite

/-- `if (local.status === "miss") await this.putLocalFailOpen(..)`. -/
def putOnMiss (value : V) : CacheGetResult V → Async V X Unit
  | .miss config => awaited (putLocalFailOpen key value config)
  | _ => return ()

variable (local_ : CacheGetResult V)

def finishLocalOnly : Async V X V := do
  let value ← awaitFallback plan.toInvocation (labelsFor plan.key .LOCAL)
  putOnMiss plan.key value local_
  return value

/-- The read deadline of an invocation. -/
def readTimeoutMs : ℕ :=
  ((plan.keyConfig.bind (·.remoteReadTimeoutMs)).getD redis.readTimeoutMs).ms

/-- `keyConfig?.shadow?.ramp`. -/
def shadowRamp : JsValue :=
  ((plan.keyConfig.bind (·.shadow)).map (·.ramp)).getD .undefined

/-- When a dark invocation may be sampled, its budget counts from here. -/
def shadowStartedAtMs : Async V X (Option ℚ) :=
  match shadowRamp plan with
  | .undefined => return none
  | ramp =>
    if percentage? ramp = some 0 then return none
    else do return some (← performanceNow)

def putOptional (value : V) : Option (CacheGetResult V) → Async V X Unit
  | some local_ => putOnMiss key value local_
  | none => return ()

def finishRampedDownRemote (local_ : Option (CacheGetResult V))
    (remoteConfig : ResolvedRemoteLayerConfig) (fallbackLabels : CacheMetricLabels) :
    Async V X V := do
  let startedAtMs ← shadowStartedAtMs plan
  let source ← spawn (.fallback plan.toInvocation fallbackLabels)
  scheduleShadowValidation settings plan (.redis source remoteConfig startedAtMs)
    (readTimeoutMs redis plan)
  let value ← join source
  putOptional plan.key value local_
  return value

def shouldAttemptStaleRecovery (reason : Failure X) : Async V X Bool := do
  let result : Except (Failure X) CallbackResult ← act (.predicate reason)
  match result with
  | .error e =>
    observe (.log .warn "DialCache stale recovery predicate threw; recovery was denied" (some e))
    return false
  | .ok .other =>
    observe (.log .warn
      "DialCache stale recovery predicate returned a non-boolean; recovery was denied" none)
    return false
  | .ok (.boolean result) => return result

/-- Recovery is subordinate to the source rejection and never replaces it by an error. -/
def attemptRecovery (retainedFrame : Option (ReplyObject X)) (maxAgeSec : ℕ) :
    Async V X (Option V) :=
  tryCatch (awaited (recoverRetainedCandidate redis key retainedFrame maxAgeSec)) fun e => do
    observe (.log .warn "Error using retained Redis value during stale recovery" (some e))
    return none

/-- After the source rejected: a recovered value, or the rejection itself. -/
def recoverOrRethrow (staleRecoveryMaxAgeSec : Option ℕ) (retainedFrame : Option (ReplyObject X))
    (reason : Failure X) : Async V X V :=
  match staleRecoveryMaxAgeSec with
  | none => throw reason
  | some maxAgeSec => do
    if ← shouldAttemptStaleRecovery reason then
      match ← attemptRecovery redis key retainedFrame maxAgeSec with
      | some value => return value
      | none => throw reason
    else throw reason

/-- What the outcome of the remote layer means for the rest of the chain. -/
structure RemoteOutcome (X : Type) where
  writeConfig : Option ResolvedRemoteLayerConfig
  observedWatermarkMs : Option ℕ
  fallbackLayer : MetricLayer
  staleRecoveryMaxAgeSec : Option ℕ
  retainedFrame : Option (ReplyObject X)
  skipCacheWrite : Bool

def missOutcome (config : ResolvedRemoteLayerConfig) (reason : RedisCacheMissReason)
    (observedWatermarkMs : Option ℕ) : RemoteOutcome X where
  writeConfig := some config
  observedWatermarkMs
  fallbackLayer := .REMOTE
  staleRecoveryMaxAgeSec := if reason = .cacheMiss then config.staleOnErrorMaxAgeSec else none
  retainedFrame := none
  skipCacheWrite := false

def retainedOutcome (frame : ReplyObject X) (config : ResolvedRemoteLayerConfig) :
    RemoteOutcome X where
  writeConfig := some config
  observedWatermarkMs := none
  fallbackLayer := .REMOTE
  staleRecoveryMaxAgeSec := config.staleOnErrorMaxAgeSec
  retainedFrame := some frame
  skipCacheWrite := false

def disabledOutcome (reason : DisabledReason) (skipCacheWrite : Bool) : RemoteOutcome X where
  writeConfig := none
  observedWatermarkMs := none
  fallbackLayer := if reason = .configError then .REMOTE else .LOCAL
  staleRecoveryMaxAgeSec := none
  retainedFrame := none
  skipCacheWrite

def putRemoteFailOpen (value : V) (outcome : RemoteOutcome X) : Async V X Unit :=
  match outcome.writeConfig with
  | none => return ()
  | some config =>
    tryCatch (awaited (put redis key value config outcome.observedWatermarkMs)) fun e =>
      observe (.log .warn "Error putting value in Redis cache" (some e))

/-- A tracked source value that reached the Redis write path is not published locally. -/
def suppressLocalWrite (outcome : RemoteOutcome X) : Bool :=
  outcome.skipCacheWrite || (outcome.writeConfig.isSome && key.trackForInvalidation)

def putUnless (suppress : Bool) (key : DialCacheKey) (value : V) (local_ : CacheGetResult V) :
    Async V X Unit :=
  if suppress then return () else putOnMiss key value local_

/-- Publish a source value to Redis and to the local store. -/
def publish (outcome : RemoteOutcome X) (value : V) : Async V X V := do
  putRemoteFailOpen redis key value outcome
  putUnless (suppressLocalWrite key outcome) key value local_
  return value

def finishWithSource (outcome : RemoteOutcome X) : Async V X V := do
  let settled ← (awaitFallback plan.toInvocation
    (labelsFor plan.key outcome.fallbackLayer)).attempt
  match settled with
  | .ok value => publish redis plan.key local_ outcome value
  | .error reason =>
    recoverOrRethrow redis plan.key outcome.staleRecoveryMaxAgeSec outcome.retainedFrame reason

def finishHit (value : V) (frame : ReplyObject X) : Async V X V := do
  putOnMiss plan.key value local_
  scheduleShadowValidation settings plan (.retained frame) (readTimeoutMs redis plan)
  return value

def finishReadError : Async V X V := do
  let value ← awaitFallback plan.toInvocation (labelsFor plan.key .REMOTE)
  putUnless plan.key.trackForInvalidation plan.key value local_
  return value

def finishRedisChain : RemoteCacheGetResult V X → Async V X V
  | .read (.hit value frame) => finishHit settings redis plan local_ value frame
  | .read (.retained frame config) =>
    finishWithSource redis plan local_ (retainedOutcome frame config)
  | .read (.miss config reason observedWatermarkMs) =>
    finishWithSource redis plan local_ (missOutcome config reason observedWatermarkMs)
  | .disabled reason skipCacheWrite =>
    finishWithSource redis plan local_ (disabledOutcome reason skipCacheWrite)
  | .error => finishReadError plan local_

/-- The chain below a local layer that did not hit. -/
def continueRemote : Async V X V :=
  match settings.redis with
  | none => awaited (finishLocalOnly plan local_)
  | some redis => do
    match ← awaited (resolveRemoteLayerConfig plan) with
    | .rampedDown config _ =>
      awaited (finishRampedDownRemote settings redis plan (some local_) config
        (labelsFor plan.key .LOCAL))
    | .disabled reason skipCacheWrite _ =>
      awaited (finishRedisChain settings redis plan local_ (.disabled reason skipCacheWrite))
    | .enabled config _ =>
      let remote ← awaited (readRemoteWithResolvedConfig redis plan.key config
        (readTimeoutMs redis plan))
      awaited (finishRedisChain settings redis plan local_ remote)

def getThroughActiveLocal (config : ResolvedLayerConfig) : Async V X V := do
  match ← readLocalWithResolvedConfig plan.key config with
  | .hit value => return value
  | local_ => continueRemote settings plan local_

/-- The run of a remote-only flight. -/
def getThroughRemote (localReason : DisabledReason) (config : ResolvedRemoteLayerConfig) :
    Async V X V := do
  let remote ← awaited (readRemoteWithResolvedConfig redis plan.key config
    (readTimeoutMs redis plan))
  awaited (finishRedisChain settings redis plan (.disabled localReason) remote)

def singleFlightProcess (run : CacheTask V) : Async V X V := do
  let existing : Option ProcessFlight ← act (.flight (.get key.urn))
  match existing with
  | some ⟨none, _, _⟩ =>
    throw (.error "DialCache process flight was joined before initialization")
  | some ⟨some promise, _, _⟩ =>
    act (.flight (.join key.urn))
    observe (.coalesced (keyLabels key) .process)
    join promise
  | none =>
    let startedAtMs ← performanceNow
    let flight : ℕ ← act (.flight (.register key.urn startedAtMs))
    let promise ← spawn run
    act (.flight (.setPromise flight promise))
    join promise

/-- Omission means coalescing in every shape of the policy. -/
def coalesces : Bool := plan.keyConfig.bind (·.coalesce) != some false

/-- Share the run of a key among concurrent callers, unless the policy opts out. -/
def runShared (run : CacheTask V) : Async V X V :=
  if coalesces plan then singleFlightProcess plan.key run
  else do join (← spawn run)

def getThroughSharedLayers (fallbackLayer : MetricLayer) : Async V X V := do
  match ← awaited (resolveLocalLayerConfig plan) with
  | .ok config => runShared plan (.localRun plan config)
  | .error localReason =>
    match settings.redis with
    | none => awaitFallback plan.toInvocation (labelsFor plan.key fallbackLayer)
    | some redis =>
      match ← awaited (resolveRemoteLayerConfig plan) with
      | .rampedDown config _ =>
        awaited (finishRampedDownRemote settings redis plan none config
          (labelsFor plan.key fallbackLayer))
      | .disabled reason _ _ =>
        awaitFallback plan.toInvocation
          (labelsFor plan.key (if reason = .configError then .REMOTE else fallbackLayer))
      | .enabled config h => runShared plan (.remoteRun plan localReason config h)

/-- The run of a request-local flight. -/
def requestLocalRun (scope : ℕ) : Async V X V := do
  let start ← performanceNow
  let result : Option V ← act (.scope (.read scope plan.key.urn))
  observe (.request (labelsFor plan.key .requestLocal))
  observe (.observeGet (labelsFor plan.key .requestLocal) (← elapsedSeconds start))
  match result with
  | some value => return value
  | none =>
    observe (.miss (labelsFor plan.key .requestLocal) .valueAbsent)
    let value ← join (← spawn (.sharedLayers plan .requestLocal))
    act (.scope (.set scope plan.key.urn value))
    return value

def singleFlightRequestLocal (scope : ℕ) : Async V X V := do
  let existing : Option ℕ ← act (.scope (.inFlightGet scope plan.key.urn))
  match existing with
  | some promise =>
    observe (.coalesced (keyLabels plan.key) .requestLocal)
    join promise
  | none =>
    let promise ← spawn (.requestRun plan scope)
    act (.scope (.inFlightSet scope plan.key.urn promise))
    join promise

def getThroughRequestLocal (scope : ℕ) : Async V X V :=
  if coalesces plan then singleFlightRequestLocal plan scope
  else do join (← spawn (.requestRun plan scope))

def configFailure : ConfigError → Failure X
  | .typeError message => .error message
  | .rangeError message => .error message

def keyFailure : KeyError → Failure X
  | .uriError => .error "URI malformed"
  | .typeError message => .error message
  | .error message => .error message

/-- `this.buildKey(options, selectKey(), defaultConfig)`. -/
def selectedKey (call : Call) : Except (Failure X) CacheKeySpec → Except (Failure X) DialCacheKey
  | .error e => .error e
  | .ok spec => (buildKey settings.cacheNamespace call.options spec).mapError keyFailure

/-- The policy snapshot that a provider result makes of the static default. -/
def overlaid : JsValue → Except ConfigError (Option DialCacheKeyConfig)
  | .null => .ok key.defaultConfig
  | .undefined => .ok key.defaultConfig
  | overlay => (mergeKeyConfig key.defaultConfig overlay).map some

def fetchKeyConfig : Async V X (Option DialCacheKeyConfig) := do
  let overlay ← Program.ofExcept (← act (.configProvider key))
  Program.ofExcept ((overlaid key overlay).mapError configFailure)

def noLayerLabels (call : Call) : CacheMetricLabels :=
  ⟨⟨settings.cacheNamespace, call.options.useCase, call.options.keyType⟩, .noop⟩

/-- The request scope whose memo serves an invocation, if its policy asks for one. -/
def requestScope : Async V X (Option ℕ) :=
  if plan.keyConfig.bind (·.requestLocal) = some true then
    act (.scope (.getOrCreate plan.call.store))
  else return none

def executeEnabled : Async V X V := do
  match ← requestScope plan with
  | some scope => awaited (getThroughRequestLocal plan scope)
  | none => join (← spawn (.sharedLayers plan .LOCAL))

/-- The chain once the key is known. -/
def executeKeyed (invocation : Invocation) (key : DialCacheKey) : Async V X V := do
  match ← (awaited (fetchKeyConfig key)).attempt with
  | .error e =>
    observe (.log .warn "Could not resolve DialCache key config" (some e))
    recordError key .noop .configResolution
    observe (.disabled (noLayerLabels settings invocation.call) .configError)
    awaitFallback invocation (noLayerLabels settings invocation.call)
  | .ok keyConfig =>
    if ← act (.scope (.isEnabled invocation.call.store)) then
      executeEnabled ⟨invocation, key, keyConfig⟩
    else
      observe (.disabled (noLayerLabels settings invocation.call) .context)
      awaitFallback invocation (noLayerLabels settings invocation.call)

def executeCacheOperation (call : Call) : Async V X V := do
  let id : ℕ ← act (.source .invocation)
  if ← act (.scope (.isEnabled call.store)) then
    match selectedKey settings call (← act (.selectKey call)) with
    | .error e =>
      observe (.log .error "Could not construct DialCache key" (some e))
      observe (.error (noLayerLabels settings call) .keyConstruction false)
      awaitFallback ⟨call, id⟩ (noLayerLabels settings call)
    | .ok key => executeKeyed settings ⟨call, id⟩ key
  else
    observe (.disabled (noLayerLabels settings call) .context)
    awaited (boundedSource ⟨call, id⟩ none)

end DialCache.CacheTraversal
