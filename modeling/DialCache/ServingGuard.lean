import DialCache.RefillTraces

/-!
# What serving code is allowed to do

The conditions under which a thread may carry a value further: into the process-local
store, into a request memo, to the serializer and to Redis. Each is a condition on what the
thread has recorded before. Starting other threads and handing out their promises is
watched as well, so that a promise found in a table belongs to the key it is found under.
-/

namespace DialCache.ServingGuard

open AsyncPrograms ThreadPool CacheKeys CacheOperations CacheRecorder RedisCache RuntimeConfig
open RedisTraces RefillTraces ShadowValidation CacheTraversal

variable {V X : Type}

/-- The call a serving thread works for. -/
def taskCall : CacheTask V → Option Call
  | .call call => some call
  | .requestRun plan _ => some plan.call
  | .sharedLayers plan _ => some plan.call
  | .localRun plan _ => some plan.call
  | .remoteRun plan _ _ _ => some plan.call
  | .fallback invocation _ => some invocation.call
  | _ => none

/-- The plan of a thread that works on one key. -/
def taskPlan : CacheTask V → Option Plan
  | .requestRun plan _ => some plan
  | .sharedLayers plan _ => some plan
  | .localRun plan _ => some plan
  | .remoteRun plan _ _ _ => some plan
  | _ => none

/-- The plan of a thread that a process flight shares. -/
def runPlan : CacheTask V → Option Plan
  | .localRun plan _ => some plan
  | .remoteRun plan _ _ _ => some plan
  | _ => none

def isReadStart (e : CacheEvent V X) : Bool :=
  match e.op with
  | .act (.read (.start _ _ _)) => true
  | _ => false

section Authority

variable (settings : Settings X)

/-- The thread read a fresh frame of its key and `value` is its decoded payload. -/
def FreshDecode (plan : Plan) (log : Log V X) (value : V) : Prop :=
  ∃ redis config timeoutMs read t frame, settings.redis = some redis ∧
    plan.remoteLayer.1 = .enabled config ∧
    ReadTrace redis plan.key config timeoutMs read t (.ok (.hit value frame)) ∧ t <:+: log

/-- The thread called the source and `value` is what the source settled with. -/
def SourceValue (plan : Plan) (log : Log V X) (value : V) : Prop :=
  ∃ labels thread, spawned (.fallback plan.toInvocation labels) thread ∈ log ∧
    joined thread (.ok (.value value)) ∈ log

/-- There is no Redis client, or the remote layer is disabled for another reason than an
error of its policy. -/
def RemoteUnread (plan : Plan) : Prop :=
  settings.redis = none ∨
    (∃ reason, reason ≠ .configError ∧ plan.remoteLayer.1 = .disabled reason) ∨
    ∃ config, plan.remoteLayer.1 = .rampedDown config

/-- Who may put a value into the process-local store. -/
def PutAuthority (g : Ghost V X) (urn : JsString) (value : V) : Prop :=
  ∃ plan config, g.task = .localRun plan config ∧ urn = plan.key.urn ∧
    (FreshDecode settings plan g.log value ∨
      (SourceValue plan g.log value ∧ (plan.key.trackForInvalidation = true →
        RemoteUnread settings plan ∧ ∀ e ∈ g.log, isReadStart e = false)))

/-- Who may pass a value to the serializer: the run that called the source. -/
def DumpAuthority (g : Ghost V X) (key : DialCacheKey) (value : V) : Prop :=
  ∃ plan, runPlan g.task = some plan ∧ key = plan.key ∧ SourceValue plan g.log value

def WriteAuthority (g : Ghost V X) (request : RedisWriteRequest) : Prop :=
  ∃ key value, did (.dump key value) () ∈ g.log ∧ request.valueKey = redisKey key

/-- A shadow job works on the frame its caller was served from, or on the source its caller
has started under a ramped-down remote layer. -/
def EnlistAuthority (g : Ghost V X) (urn : JsString) (frame : Option (ReplyObject X))
    (work : ShadowWork) : Prop :=
  taskPlan g.task = some work.plan ∧ urn = work.plan.key.urn ∧ settings.redis.isSome = true ∧
    match work.start with
    | .retained => frame.isSome = true
    | .redis source config => frame = none ∧ work.plan.remoteLayer.1 = .rampedDown config ∧
        ∃ labels, spawned (.fallback work.plan.toInvocation labels) source ∈ g.log

def servingAllows (g : Ghost V X) : PoolOp (CacheTask V) (CacheOp V X) → Prop
  | .act (.store (.put urn value _)) => PutAuthority settings g urn value
  | .act (.shadow (.enlist urn frame work)) => EnlistAuthority settings g urn frame work
  | .act (.dump key value) => DumpAuthority g key value
  | .act (.write request) => WriteAuthority g request
  | .spawn task => taskCall g.task = taskCall task
  | _ => True

/-- The guard of serving code. -/
def serving : Guard V X where
  allows := servingAllows settings
  free := by
    intro g op hop
    unfold servingAllows
    split <;> trivial

end Authority

section Growth

variable {settings : Settings X} {plan : Plan} {value : V} {log : Log V X}

theorem SourceValue.append (h : SourceValue plan log value) (t : Log V X) :
    SourceValue plan (log ++ t) value := by
  obtain ⟨labels, thread, hspawned, hjoined⟩ := h
  exact ⟨labels, thread, List.mem_append_left t hspawned, List.mem_append_left t hjoined⟩

theorem FreshDecode.append (h : FreshDecode settings plan log value) (t : Log V X) :
    FreshDecode settings plan (log ++ t) value := by
  obtain ⟨redis, config, timeoutMs, read, u, frame, hredis, hremote, htrace, hu⟩ := h
  exact ⟨redis, config, timeoutMs, read, u, frame, hredis, hremote, htrace,
    hu.trans (List.prefix_append log t).isInfix⟩

end Growth

end DialCache.ServingGuard
