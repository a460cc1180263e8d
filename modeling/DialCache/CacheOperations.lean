import DialCache.CacheKeys
import DialCache.PayloadEnvelope
import DialCache.ThreadPool

/-!
# Operations of a cache instance

What the asynchronous code of a cache instance does besides computing: calls of
application code, clock samples, and accesses to the tables of the instance. Application
code may throw or reject with any reason at any of these points. `V` is the type of cached
values and `X` the type of the reasons application code fails with.
-/

namespace DialCache.CacheOperations

open AsyncPrograms ThreadPool CacheKeys JsValues RedisFrames RuntimeConfig PayloadEnvelope

variable {V X α : Type}

/-- A rejection reason: one of the application's, or an error of DialCache. -/
inductive Failure (X : Type) where
  | thrown (reason : X)
  | fallbackTimeout (useCase : JsString) (timeoutMs : ℕ)
  | redisReadTimeout (useCase : JsString) (timeoutMs : ℕ)
  | error (message : String)
deriving DecidableEq

inductive MetricLayer where
  | LOCAL
  | REMOTE
  | remoteShadow
  | requestLocal
  | noop
deriving DecidableEq

inductive MetricErrorKind where
  | keyConstruction
  | configResolution
  | cacheRead
  | cacheReadTimeout
  | cacheWrite
  | trackedTtlClamped
  | serializationLoad
  | serializationDump
  | compression
  | fallback
deriving DecidableEq

inductive CoalescingScope where
  | requestLocal
  | process
deriving DecidableEq

inductive ShadowValidationOutcome where
  | matched
  | mismatch
  | superseded
  | filled
  | fillFenced
  | fillError
  | redisError
  | sourceError
  | deserializationError
  | comparisonError
  | confirmationError
  | timeout
  | dropped
deriving DecidableEq

inductive ShadowMismatchLoggingOutcome where
  | logged
  | hookError
  | renderError
  | loggerError
deriving DecidableEq

inductive StaleRecoveryOutcome where
  | served
  | miss
  | deserializationError
deriving DecidableEq

inductive SerializationOperation where
  | dump
  | load
deriving DecidableEq

inductive CompressionOperation where
  | compress
  | decompress
deriving DecidableEq

/-- The labels of every per-key metric. -/
structure KeyLabels where
  cacheNamespace : JsString
  useCase : JsString
  keyType : JsString
deriving DecidableEq

structure CacheMetricLabels extends KeyLabels where
  layer : MetricLayer
deriving DecidableEq

def keyLabels (key : DialCacheKey) : KeyLabels := ⟨key.cacheNamespace, key.useCase, key.keyType⟩

def labelsFor (key : DialCacheKey) (layer : MetricLayer) : CacheMetricLabels :=
  ⟨keyLabels key, layer⟩

def metricLayer : CacheLayer → MetricLayer
  | .LOCAL => .LOCAL
  | .REMOTE => .REMOTE

inductive LogLevel where
  | warn
  | error
deriving DecidableEq

/-- A call of the metrics adapter or of the logger. Both are isolated: whatever they throw
or reject with is dropped. -/
inductive Observation (X : Type) where
  | request (labels : CacheMetricLabels)
  | miss (labels : CacheMetricLabels) (reason : CacheMissReason)
  | disabled (labels : CacheMetricLabels) (reason : DisabledReason)
  | error (labels : CacheMetricLabels) (kind : MetricErrorKind) (inFallback : Bool)
  | coalesced (labels : KeyLabels) (scope : CoalescingScope)
  | compressionWrite (labels : CacheMetricLabels) (outcome : CompressionWriteOutcome)
  | compressionRead (labels : CacheMetricLabels) (outcome : CompressionReadOutcome)
  | shadowValidation (labels : KeyLabels) (outcome : ShadowValidationOutcome)
  | observeShadowValueAge (labels : KeyLabels) (outcome : ShadowValidationOutcome) (seconds : ℚ)
  | shadowMismatchLogging (labels : KeyLabels) (outcome : ShadowMismatchLoggingOutcome)
  | staleRecovery (labels : KeyLabels) (outcome : StaleRecoveryOutcome)
  | observeStaleRecoveryValueAge (labels : KeyLabels) (outcome : StaleRecoveryOutcome)
      (seconds : JsNumber)
  | observeFutureTimestampOffset (labels : CacheMetricLabels) (seconds : ℚ)
  | observeGet (labels : CacheMetricLabels) (seconds : ℚ)
  | observeFallback (labels : CacheMetricLabels) (seconds : ℚ)
  | observeSerialization (labels : CacheMetricLabels) (operation : SerializationOperation)
      (seconds : ℚ)
  | observeSize (labels : CacheMetricLabels) (bytes : ℕ)
  | observeStoredSize (labels : CacheMetricLabels) (bytes : ℕ)
  | observeCompressionRatio (labels : CacheMetricLabels) (ratio : ℚ)
  | observeCompression (labels : CacheMetricLabels) (operation : CompressionOperation)
      (seconds : ℚ)
  | log (level : LogLevel) (message : String) (reason : Option (Failure X))

/-- Serialized data at a boundary where the declared type may be broken. A foreign value is
known by the bytes that `Buffer` makes of it, if `Buffer` accepts it. -/
inductive Payload where
  | typed (payload : RedisCachePayload)
  | foreign (bytes : Option Bytes)
deriving DecidableEq

/-- What a read of `createdAtMs` gives: the value, and the number an operator makes of it or
what the conversion throws. -/
structure Stamp (X : Type) where
  value : JsValue
  numeric : Except X JsNumber
  numeric_natural : ∀ n, value.natural? = some n → numeric = .ok (.ofInt n)

def Stamp.ofNumber (x : JsNumber) : Stamp X where
  value := .number x
  numeric := .ok x
  numeric_natural n h := by
    cases (JsValue.eq_of_natural? h).1
    rfl

def Stamp.undefined : Stamp X := ⟨.undefined, .ok .nan, by simp [JsValue.natural?]⟩

/-- An object returned by the Redis client. A member may be a getter that throws; the one of
`createdAtMs`, which is read again and again, may answer each read differently. -/
structure ReplyObject (X : Type) where
  kind : Except X JsValue
  reason : Except X JsValue
  observedWatermarkMs : Except X JsValue
  createdAtMs : ℕ → Except X (Stamp X)
  payload : Except X Payload

inductive Reply (X : Type) where
  | nonObject
  | object (members : ReplyObject X)

structure RedisReadRequest where
  valueKey : JsString
  watermarkKey : Option JsString
deriving DecidableEq

structure RedisWriteRequest where
  valueKey : JsString
  cacheTtlMs : ℕ
  value : Payload
  createdAtMs : Option ℕ
deriving DecidableEq

/-- The asynchronous context a call runs in. `holder` is the request scope, if any. -/
structure ContextStore where
  enabled : Bool
  holder : Option ℕ
deriving DecidableEq

/-- The arguments of one execution of a cache operation. -/
structure Call where
  store : ContextStore
  options : KeyOptions
  fallbackTimeoutMs : Option DeadlineMs

/-- A call with the identity of its `callerFallbackTimedOut` variable. -/
structure Invocation where
  call : Call
  id : ℕ

/-- An invocation with its key and its policy snapshot. -/
structure Plan extends Invocation where
  key : DialCacheKey
  keyConfig : Option DialCacheKeyConfig

/-- The remote layer under the policy snapshot, and whether a stale policy is malformed. -/
def Plan.remoteLayer (plan : Plan) : LayerConfigResolution ResolvedRemoteLayerConfig × Bool :=
  resolveRemoteLayerConfigResult plan.keyConfig plan.key.urn

/-- `DEFAULT_FALLBACK_TIMEOUT_MS`. -/
def defaultFallbackTimeoutMs : ℕ := 60000

/-- The budget of shadow work for a call. -/
def Call.shadowTimeoutMs (call : Call) : ℕ :=
  (call.fallbackTimeoutMs.map (·.ms)).getD defaultFallbackTimeoutMs

structure ShadowMismatchLogPlan where
  value : Bool
  diff : ShadowMismatchDiffLevel
deriving DecidableEq

/-- A shadow job compares the frame its caller was served from, or reads a frame itself and
takes the caller's source, which another thread awaits. -/
inductive ShadowValidationRunStart where
  | retained
  | redis (source : ℕ) (remoteConfig : ResolvedRemoteLayerConfig)

/-- What an admitted shadow job works on. -/
structure ShadowWork where
  plan : Plan
  start : ShadowValidationRunStart
  startedAtMs : ℚ
  readTimeoutMs : ℕ
  logPlan : Option ShadowMismatchLogPlan

structure ShadowMismatchDetails (V : Type) where
  logPlan : ShadowMismatchLogPlan
  cachedValue : V
  sourceValue : V

/-- What the settled deadline of a shadow job hands to its report. -/
structure ShadowReport (V : Type) where
  outcome : ShadowValidationOutcome
  mismatchDetails : Option (ShadowMismatchDetails V)
  valueAgeSeconds : Option ℚ

/-- The asynchronous functions whose promises are shared or awaited elsewhere. -/
inductive CacheTask (V : Type) where
  | call (call : Call)
  | requestRun (plan : Plan) (scope : ℕ)
  | sharedLayers (plan : Plan) (fallbackLayer : MetricLayer)
  | localRun (plan : Plan) (config : ResolvedLayerConfig)
  | remoteRun (plan : Plan) (localReason : DisabledReason) (config : ResolvedRemoteLayerConfig)
      (enabled : plan.remoteLayer.1 = .enabled config)
  | fallback (invocation : Invocation) (labels : CacheMetricLabels)
  | shadowRun (job : ℕ) (work : ShadowWork)
  | shadowOperation (job : ℕ) (work : ShadowWork) (deadlineStartedAtMs : ℚ)
  | shadowReport (job : ℕ) (work : ShadowWork) (report : ShadowReport V)

/-- What a thread settles with. -/
inductive Settlement (V : Type) where
  | value (value : V)
  | verdict (outcome : ShadowValidationOutcome)
  | done

/-- Request scopes: `DialCacheContext` and the request-local cache of a scope. -/
inductive ScopeOp (V : Type) where
  | isEnabled (store : ContextStore)
  | getOrCreate (store : ContextStore)
  | read (scope : ℕ) (urn : JsString)
  | set (scope : ℕ) (urn : JsString) (value : V)
  | inFlightGet (scope : ℕ) (urn : JsString)
  | inFlightSet (scope : ℕ) (urn : JsString) (thread : ℕ)

/-- The process-local store. -/
inductive StoreOp (V : Type) where
  | get (urn : JsString)
  | put (urn : JsString) (value : V) (ttlMs : ℕ)

/-- `processFlights`. A flight is named by its position in the order of registration. -/
inductive FlightOp where
  | get (urn : JsString)
  | join (urn : JsString)
  | register (urn : JsString) (startedAtMs : ℚ)
  | setPromise (flight : ℕ) (thread : ℕ)

/-- Source invocations under their deadline. -/
inductive SourceOp where
  | invocation
  | start (invocation : Invocation) (budget : Option DeadlineMs)
  | arm (source : ℕ)
  | settled (source : ℕ)
  | didTimeOut (invocation : ℕ)

/-- Raw Redis reads under their deadline. -/
inductive ReadOp where
  | start (request : RedisReadRequest) (useCase : JsString) (timeoutMs : ℕ)
  | arm (read : ℕ)
  | settled (read : ℕ)

/-- `shadowFlights` and the variables of the jobs in it. -/
inductive ShadowOp (V X : Type) where
  | busy (urn : JsString)
  | enlist (urn : JsString) (frame : Option (ReplyObject X)) (work : ShadowWork)
  | start (job : ℕ) (remainingMs : ℚ) (operation : ℕ)
  | arm (job : ℕ)
  | abandoned (job : ℕ)
  | abandon (job : ℕ)
  | cachedFrame (job : ℕ)
  | setCachedFrame (job : ℕ) (frame : ReplyObject X)
  | addPendingRead (job : ℕ) (read : ℕ)
  | raceTimedOut (job : ℕ)
  | setMismatchDetails (job : ℕ) (details : ShadowMismatchDetails V)
  | setValueAge (job : ℕ) (seconds : Option ℚ)
  | finishOperation (job : ℕ)

/-- The entry of `processFlights` under an urn. -/
structure ProcessFlight where
  promise : Option ℕ
  startedAtMs : ℚ
  followers : ℕ
deriving DecidableEq

/-- What a synchronous callback returns where a boolean is expected. -/
inductive CallbackResult where
  | boolean (result : Bool)
  | other
deriving DecidableEq

/-- The delivery report of the isolated logger. -/
inductive Delivery where
  | delivered (succeeded : Bool)
  | pending
deriving DecidableEq

inductive CacheOp (V X : Type) where
  | performanceNow
  | dateNow
  | reading
  | observe (observation : Observation X)
  | yield
  | selectKey (call : Call)
  | configProvider (key : DialCacheKey)
  | resolvePolicy (layer : CacheLayer)
  | load (key : DialCacheKey) (payload : Payload)
  | dump (key : DialCacheKey) (value : V)
  | dumped
  | write (request : RedisWriteRequest)
  | written
  | predicate (reason : Failure X)
  | comparator (cachedValue sourceValue : V)
  | fulfills
  | disabledSource
  | renderMismatch (details : ShadowMismatchDetails V)
  | warnMismatch (labels : KeyLabels) (details : ShadowMismatchDetails V)
      (valueAgeSeconds : Option ℚ) (failure : Option ShadowMismatchLoggingOutcome)
  | scope (op : ScopeOp V)
  | store (op : StoreOp V)
  | flight (op : FlightOp)
  | source (op : SourceOp)
  | read (op : ReadOp)
  | shadow (op : ShadowOp V X)

@[reducible] def ScopeOp.Answer : ScopeOp V → Type
  | .isEnabled _ => Bool
  | .getOrCreate _ => Option ℕ
  | .read _ _ => Option V
  | .set _ _ _ => Unit
  | .inFlightGet _ _ => Option ℕ
  | .inFlightSet _ _ _ => Unit

@[reducible] def StoreOp.Answer (X : Type) : StoreOp V → Type
  | .get _ => Except (Failure X) (Option V)
  | .put _ _ _ => Except (Failure X) Unit

@[reducible] def FlightOp.Answer : FlightOp → Type
  | .get _ => Option ProcessFlight
  | .join _ => Unit
  | .register _ _ => ℕ
  | .setPromise _ _ => Unit

@[reducible] def SourceOp.Answer (V X : Type) : SourceOp → Type
  | .invocation => ℕ
  | .start _ _ => ℕ
  | .arm _ => Unit
  | .settled _ => Except (Failure X) V
  | .didTimeOut _ => Bool

@[reducible] def ReadOp.Answer (X : Type) : ReadOp → Type
  | .start _ _ _ => ℕ
  | .arm _ => Unit
  | .settled _ => Except (Failure X) (Reply X)

@[reducible] def ShadowOp.Answer : ShadowOp V X → Type
  | .busy _ => Bool
  | .enlist _ _ _ => ℕ
  | .start _ _ _ => Unit
  | .arm _ => Unit
  | .abandoned _ => Bool
  | .abandon _ => Unit
  | .cachedFrame _ => Option (ReplyObject X)
  | .setCachedFrame _ _ => Unit
  | .addPendingRead _ _ => Unit
  | .raceTimedOut _ => Bool
  | .setMismatchDetails _ _ => Unit
  | .setValueAge _ _ => Unit
  | .finishOperation _ => Unit

@[reducible] def CacheOp.Answer : CacheOp V X → Type
  | .performanceNow => ℚ
  | .dateNow => ℤ
  | .reading => ℕ
  | .observe _ => Unit
  | .yield => Unit
  | .selectKey _ => Except (Failure X) CacheKeySpec
  | .configProvider _ => Except (Failure X) JsValue
  | .resolvePolicy _ => Except (Failure X) Unit
  | .load _ _ => Except (Failure X) V
  | .dump _ _ => Unit
  | .dumped => Except (Failure X) Payload
  | .write _ => Unit
  | .written => Except (Failure X) Unit
  | .predicate _ => Except (Failure X) CallbackResult
  | .comparator _ _ => Except (Failure X) CallbackResult
  | .fulfills => Bool
  | .disabledSource => Except (Failure X) V
  | .renderMismatch _ => Option ShadowMismatchLoggingOutcome
  | .warnMismatch _ _ _ _ => Delivery
  | .scope op => op.Answer
  | .store op => op.Answer X
  | .flight op => op.Answer
  | .source op => op.Answer V X
  | .read op => op.Answer X
  | .shadow op => op.Answer

/-- An answer of each kind. -/
def CacheOp.anyAnswer : (op : CacheOp V X) → op.Answer
  | .performanceNow => (0 : ℚ)
  | .dateNow => (0 : ℤ)
  | .reading => (0 : ℕ)
  | .observe _ | .yield | .dump _ _ | .write _ => ()
  | .selectKey _ | .configProvider _ | .resolvePolicy _ | .load _ _ | .dumped | .written
  | .predicate _ | .comparator _ _ | .disabledSource => .error (.error "")
  | .fulfills => true
  | .renderMismatch _ => none
  | .warnMismatch _ _ _ _ => .pending
  | .scope (.isEnabled _) => false
  | .scope (.getOrCreate _) | .scope (.read _ _) | .scope (.inFlightGet _ _) => none
  | .scope (.set _ _ _) | .scope (.inFlightSet _ _ _) => ()
  | .store (.get _) | .store (.put _ _ _) => .error (.error "")
  | .flight (.get _) => none
  | .flight (.register _ _) => (0 : ℕ)
  | .flight (.join _) | .flight (.setPromise _ _) => ()
  | .source .invocation | .source (.start _ _) => (0 : ℕ)
  | .source (.arm _) => ()
  | .source (.settled _) => .error (.error "")
  | .source (.didTimeOut _) => false
  | .read (.start _ _ _) => (0 : ℕ)
  | .read (.arm _) => ()
  | .read (.settled _) => .error (.error "")
  | .shadow (.busy _) | .shadow (.abandoned _) | .shadow (.raceTimedOut _) => false
  | .shadow (.enlist _ _ _) => (0 : ℕ)
  | .shadow (.cachedFrame _) => none
  | .shadow (.start _ _ _) | .shadow (.arm _) | .shadow (.abandon _) | .shadow (.setCachedFrame _ _)
  | .shadow (.addPendingRead _ _) | .shadow (.setMismatchDetails _ _) | .shadow (.setValueAge _ _)
  | .shadow (.finishOperation _) => ()

/-- The code of asynchronous functions of a cache instance. -/
abbrev Async (V X α : Type) :=
  Code (CacheTask V) (CacheOp V X) CacheOp.Answer (Failure X) (Settlement V) α

def act (op : CacheOp V X) : Async V X op.Answer := Program.perform (PoolOp.act op)

/-- Call an asynchronous function: it runs until it first awaits something. -/
def spawn (task : CacheTask V) : Async V X ℕ := Program.perform (PoolOp.spawn task)

/-- The value a serving thread settled with. -/
def Settlement.value? : Except (Failure X) (Settlement V) → Except (Failure X) V
  | .ok (.value v) => .ok v
  | .ok _ => .error (.error "a shadow thread has no value")
  | .error e => .error e

/-- Await the promise of a serving thread. -/
def join (thread : ℕ) : Async V X V := do
  Program.ofExcept (Settlement.value? (← Program.perform (PoolOp.join thread)))

/-- Go on in a later microtask. -/
def pause : Async V X Unit := act .yield

/-- `performance.now()`. -/
def performanceNow : Async V X ℚ := act .performanceNow

/-- `Date.now()`. -/
def dateNow : Async V X ℤ := act .dateNow

/-- `await f()` for an asynchronous function whose promise nobody else holds: its code runs
in place and the caller goes on in a later microtask. -/
def awaited (code : Async V X α) : Async V X α := do
  let settlement ← code.attempt
  pause
  Program.ofExcept settlement

def observe (observation : Observation X) : Async V X Unit := act (.observe observation)

def recordError (key : DialCacheKey) (layer : MetricLayer) (kind : MetricErrorKind) :
    Async V X Unit :=
  observe (.error (labelsFor key layer) kind false)

/-- `elapsedSeconds`. -/
def elapsedSeconds (startMs : ℚ) : Async V X ℚ := do
  let nowMs ← performanceNow
  return max ((nowMs - startMs) / 1000) 0

end DialCache.CacheOperations
