import DialCache.DeadlineRaces
import DialCache.FlightRuns

/-!
# Executions of a cache instance

The threads of an instance in any order: calls, the runs that they share, source calls and shadow
work. A call settles with a value that the instance held, or as a source settled; a source and a
Redis read settle in time or with their timeout.
-/

namespace DialCache.InstanceRuns

open AsyncPrograms ThreadPool CacheKeys CacheOperations CacheRecorder RedisCache RuntimeConfig
open RedisTraces ShadowValidation CacheTraversal CacheInstance ServingGuard ChainTraces RunTraces
open FlightRuns
open DeadlineRaces (Bounded InTime)

variable {V X : Type} {settings : Settings X} {g : Ghost V X} {plan : Plan}
  {events t : Log V X} {outcome : Except (Failure X) V}

/-! ### Where an outcome comes from -/

/-- Tasks that settle with a value. The run of a remote flight needs Redis. -/
def Serves (settings : Settings X) : CacheTask V → Prop
  | .remoteRun _ _ _ _ => settings.redis.isSome = true
  | task => (taskCall task).isSome = true

/-- A promise that a table handed out. -/
def Handed (events : Log V X) (thread : ℕ) : Prop :=
  (∃ urn flight, did (.flight (.get urn)) (some flight) ∈ events ∧ flight.promise = some thread) ∨
    ∃ scope urn, did (.scope (.inFlightGet scope urn)) (some thread) ∈ events

/-- A promise that a thread may await: of a task that it called, or handed out by a table. -/
def Known (settings : Settings X) (events : Log V X) (thread : ℕ) : Prop :=
  (∃ task, Serves settings task ∧ spawned task thread ∈ events) ∨ Handed events thread

/-- What a thread settles with on its own account. -/
inductive Origin (events : Log V X) : Except (Failure X) V → Prop where
  | stored {urn : JsString} {value : V} (h : did (.store (.get urn)) (.ok (some value)) ∈ events) :
      Origin events (.ok value)
  | remembered {scope : ℕ} {urn : JsString} {value : V}
      (h : did (.scope (.read scope urn)) (some value) ∈ events) : Origin events (.ok value)
  | decoded {key : DialCacheKey} {payload : Payload} {value : V}
      (h : did (.load key payload) (.ok value) ∈ events) : Origin events (.ok value)
  | source {invocation : Invocation} {budget : Option DeadlineMs} {source : ℕ}
      {settled : Except (Failure X) V}
      (hstart : did (.source (.start invocation budget)) source ∈ events)
      (h : did (.source (.settled source)) settled ∈ events) : Origin events settled
  | uninitialized {urn : JsString} {flight : ProcessFlight}
      (h : did (.flight (.get urn)) (some flight) ∈ events) (hflight : flight.promise = none) :
      Origin events (.error (.error "DialCache process flight was joined before initialization"))

/-- A thread settles on its own account or as a thread that it awaits. -/
inductive Outcome (settings : Settings X) (events : Log V X) :
    Except (Failure X) V → Prop where
  | own {outcome : Except (Failure X) V} (h : Origin events outcome) :
      Outcome settings events outcome
  | awaited {thread : ℕ} {settlement : Except (Failure X) (Settlement V)}
      (hknown : Known settings events thread) (hjoined : joined thread settlement ∈ events) :
      Outcome settings events (Settlement.value? settlement)

theorem Outcome.mono (h : Outcome settings events outcome) (ht : events ⊆ t) :
    Outcome settings t outcome := by
  cases h with
  | own h =>
    cases h with
    | stored h => exact .own (.stored (ht h))
    | remembered h => exact .own (.remembered (ht h))
    | decoded h => exact .own (.decoded (ht h))
    | source hstart h => exact .own (.source (ht hstart) (ht h))
    | uninitialized h hflight => exact .own (.uninitialized (ht h) hflight)
  | awaited hknown hjoined =>
    refine .awaited ?_ (ht hjoined)
    rcases hknown with ⟨task, hserves, h⟩ | ⟨urn, flight, h, hflight⟩ | ⟨scope, urn, h⟩
    · exact .inl ⟨task, hserves, ht h⟩
    · exact .inr (.inl ⟨urn, flight, ht h, hflight⟩)
    · exact .inr (.inr ⟨scope, urn, ht h⟩)

/-- The outcome of serving code, by what its thread has recorded. -/
def Served (settings : Settings X) (r : Except (Failure X) V) (g : Ghost V X) : Prop :=
  Outcome settings g.log r

/-! ### The code of the tasks -/

theorem Outcome.served (h : Outcome settings t outcome) : Served settings outcome (g.extend t) :=
  h.mono (List.subset_append_right _ _)

theorem served_called (task : CacheTask V) (thread : ℕ)
    (settlement : Except (Failure X) (Settlement V)) (hserves : Serves settings task)
    (hspawned : spawned task thread ∈ t) (hjoined : joined thread settlement ∈ t) :
    Served settings (Settlement.value? settlement) (g.extend t) :=
  (Outcome.awaited (.inl ⟨task, hserves, hspawned⟩) hjoined).served

theorem served_handed (thread : ℕ) (settlement : Except (Failure X) (Settlement V))
    (hhanded : Handed t thread) (hjoined : joined thread settlement ∈ t) :
    Served settings (Settlement.value? settlement) (g.extend t) :=
  (Outcome.awaited (.inr hhanded) hjoined).served

/-- A thread that calls another one and awaits it settles as that one. -/
theorem wp_called {task : CacheTask V} (hserves : Serves settings task)
    (hcall : taskCall g.task = taskCall task) :
    wp (recorder (serving settings)) (do join (← spawn task)) (Served settings) g := by
  simp only [wp_bind, wp_spawn, thenWp_ok, wp_join, Ghost.extend_extend]
  refine ⟨hcall, fun thread => ⟨trivial, fun settlement => ?_⟩⟩
  exact served_called task thread settlement hserves (by simp) (by simp)

theorem wp_awaitFallback {invocation : Invocation} (labels : CacheMetricLabels)
    (hcall : taskCall g.task = some invocation.call) :
    wp (recorder (serving settings)) (awaitFallback invocation labels) (Served settings) g :=
  wp_called (show Serves settings (.fallback invocation labels) from rfl) hcall

theorem wp_boundedSource (invocation : Invocation) (budget : Option DeadlineMs) :
    wp (recorder (serving settings)) (boundedSource invocation budget) (Served settings) g := by
  simp only [boundedSource, wp_bind, wp_act]
  simp
  intro source settled
  exact (Outcome.own (.source List.mem_cons_self (List.mem_cons_of_mem _ List.mem_cons_self))).served

theorem wp_callFallback (invocation : Invocation) (labels : CacheMetricLabels) :
    wp (recorder (serving settings)) (callFallback invocation labels) (Served settings) g := by
  rw [callFallback, wp_bind, wp_performanceNow]
  intro start
  rw [thenWp_ok, wp_andFinally, wp_tryCatch]
  refine wp_mono (wp_boundedSource invocation _) fun r g' hserved => ?_
  cases r with
  | ok value => simpa using hserved
  | error e => simpa using hserved

theorem wp_singleFlightProcess {key : DialCacheKey} {run : CacheTask V}
    (hserves : Serves settings run) (hcall : taskCall g.task = taskCall run) :
    wp (recorder (serving settings)) (singleFlightProcess key run) (Served settings) g := by
  rw [singleFlightProcess, wp_bind]
  refine (wp_act_recorded rfl _).mpr ⟨trivial, fun existing => ?_⟩
  rw [thenWp_ok]
  match existing with
  | some ⟨none, startedAtMs, followers⟩ =>
    exact (Outcome.own (.uninitialized List.mem_cons_self rfl)).served
  | some ⟨some promise, startedAtMs, followers⟩ =>
    simp
    intro _ settlement
    exact served_handed promise settlement (.inl ⟨key.urn, _, List.mem_cons_self, rfl⟩) (by simp)
  | none =>
    simp
    intro _ flight
    refine ⟨hcall, fun thread _ settlement => ?_⟩
    exact served_called run thread settlement hserves (by simp) (by simp)

theorem wp_runShared {run : CacheTask V} (hserves : Serves settings run)
    (hcall : taskCall g.task = taskCall run) :
    wp (recorder (serving settings)) (runShared plan run) (Served settings) g := by
  rw [runShared]
  split
  · exact wp_singleFlightProcess hserves hcall
  · exact wp_called hserves hcall

theorem wp_resolveLocalLayerConfig {G : Guard V X}
    {Q : Except (Failure X) (Except DisabledReason ResolvedLayerConfig) → Ghost V X → Prop}
    (hQ : ∀ resolved, Q (.ok resolved) g) :
    wp (recorder G) (resolveLocalLayerConfig plan) Q g := by
  rw [resolveLocalLayerConfig, wp_bind, wp_act]
  refine ⟨G.free _ _ rfl, fun resolved => ?_⟩
  rw [thenWp_ok]
  cases resolved with
  | error e =>
    rw [wp_bind, wp_recordPolicyFailure]
    exact hQ _
  | ok _ =>
    rw [wp_bind, wp_pause, thenWp_ok]
    split
    · exact hQ _
    · rw [wp_bind, wp_recordDisabled]
      exact hQ _
    · rw [wp_bind, wp_recordDisabled]
      exact hQ _

theorem SourceTrace.served {recovers : Failure X → Log V X → V → Prop}
    (h : SourceTrace plan recovers t outcome) (hnone : ∀ reason u value, ¬ recovers reason u value) :
    Served settings outcome (g.extend t) := by
  cases h with
  | @settled labels thread value u admission _ _ =>
    exact served_called (.fallback plan.toInvocation labels) thread (.ok (.value value)) rfl (by simp)
      (by simp)
  | @rejected labels thread settlement reason u admission _ hs _ =>
    rw [← hs]
    exact served_called (.fallback plan.toInvocation labels) thread settlement rfl (by simp) (by simp)
  | recovered _ ht => exact absurd ht (hnone _ _ _)

theorem wp_getThroughSharedLayers (layer : MetricLayer)
    (hplan : taskPlan g.task = some plan) (hlog : g.log = []) :
    wp (recorder (serving settings)) (getThroughSharedLayers settings plan layer)
      (Served settings) g := by
  have hcall := taskCall_of_taskPlan hplan
  rw [getThroughSharedLayers, wp_bind, wp_awaited]
  refine wp_resolveLocalLayerConfig fun resolved => ?_
  rw [thenWp_ok]
  cases resolved with
  | ok config => exact wp_runShared rfl hcall
  | error reason =>
    cases hredis : settings.redis with
    | none => exact wp_awaitFallback _ hcall
    | some redis =>
      dsimp only
      rw [wp_bind, wp_awaited]
      refine wp_resolveRemoteLayerConfig fun remote _ => ?_
      rw [thenWp_ok]
      cases remote with
      | rampedDown config hremote =>
        simp only [wp_awaited]
        refine wp_of_records (records_finishRampedDownRemote _ hplan hredis hremote (by simp)
          (by simp [hlog])) fun t r ht => ?_
        exact SourceTrace.served ht fun _ _ _ => id
      | disabled reason _ _ => exact wp_awaitFallback _ hcall
      | enabled config _ => exact wp_runShared (Option.isSome_of_eq_some hredis) hcall

theorem wp_requestLocalRun (scope : ℕ) (hplan : taskPlan g.task = some plan) :
    wp (recorder (serving settings)) (requestLocalRun plan scope) (Served settings) g := by
  rw [requestLocalRun, wp_bind, wp_performanceNow]
  intro start
  rw [thenWp_ok, wp_bind]
  refine (wp_act_recorded rfl _).mpr ⟨trivial, fun result => ?_⟩
  simp only [thenWp_ok, wp_bind, wp_observe, wp_elapsedSeconds]
  intro now
  cases result with
  | some value => exact (Outcome.own (.remembered List.mem_cons_self)).served
  | none =>
    simp
    refine ⟨taskCall_of_taskPlan hplan, fun thread settlement => ?_⟩
    cases hs : Settlement.value? settlement with
    | error e =>
      rw [thenWp_error, ← hs]
      exact served_called (.sharedLayers plan .requestLocal) thread settlement rfl (by simp) (by simp)
    | ok value =>
      simp
      intro _
      rw [← hs]
      exact served_called (.sharedLayers plan .requestLocal) thread settlement rfl (by simp) (by simp)

theorem wp_getThroughRequestLocal (scope : ℕ) (hcall : taskCall g.task = some plan.call) :
    wp (recorder (serving settings)) (getThroughRequestLocal plan scope) (Served settings) g := by
  rw [getThroughRequestLocal]
  split
  · rw [singleFlightRequestLocal, wp_bind]
    refine (wp_act_recorded rfl _).mpr ⟨trivial, fun existing => ?_⟩
    rw [thenWp_ok]
    cases existing with
    | some promise =>
      simp
      intro settlement
      exact served_handed promise settlement (.inr ⟨scope, plan.key.urn, List.mem_cons_self⟩) (by simp)
    | none =>
      simp
      refine ⟨hcall, fun thread _ settlement => ?_⟩
      exact served_called (.requestRun plan scope) thread settlement rfl (by simp) (by simp)
  · exact wp_called rfl hcall

theorem wp_executeEnabled (hcall : taskCall g.task = some plan.call) :
    wp (recorder (serving settings)) (executeEnabled plan) (Served settings) g := by
  rw [executeEnabled, requestScope, wp_bind]
  split
  · refine (wp_act_recorded rfl _).mpr ⟨trivial, fun scope => ?_⟩
    cases scope with
    | some scope =>
      simp only [thenWp_ok, wp_awaited]
      exact wp_getThroughRequestLocal scope hcall
    | none => exact wp_called rfl hcall
  · exact wp_called rfl hcall

/-- Whatever the provider does, the chain goes on. -/
theorem wp_fetched (key : DialCacheKey) :
    wp (recorder (serving settings)) ((awaited (fetchKeyConfig key)).attempt : Async V X _)
      (fun r g' => ∃ settled, r = .ok settled ∧ g'.task = g.task) g := by
  rw [wp_attempt, wp_awaited, fetchKeyConfig, wp_bind]
  refine (wp_act_recorded rfl _).mpr ⟨trivial, fun overlay => ?_⟩
  rw [thenWp_ok, wp_bind, wp_ofExcept]
  cases overlay with
  | error e => exact ⟨_, rfl, rfl⟩
  | ok overlay =>
    rw [thenWp_ok, wp_ofExcept]
    exact ⟨_, rfl, rfl⟩

theorem wp_executeKeyed {invocation : Invocation} (key : DialCacheKey)
    (hcall : taskCall g.task = some invocation.call) :
    wp (recorder (serving settings)) (executeKeyed settings invocation key) (Served settings) g := by
  rw [executeKeyed, wp_bind]
  refine wp_mono (wp_fetched key) ?_
  rintro _ g' ⟨settled, rfl, htask⟩
  rw [← htask] at hcall
  rw [thenWp_ok]
  cases settled with
  | error e =>
    simp only [wp_bind, wp_observe, wp_recordError, thenWp_ok]
    exact wp_awaitFallback _ hcall
  | ok keyConfig =>
    rw [wp_bind]
    refine (wp_act_recorded rfl _).mpr ⟨trivial, fun enabled => ?_⟩
    simp only [thenWp_ok, wp_ite, wp_bind, wp_observe]
    exact ⟨fun _ => wp_executeEnabled hcall, fun _ => wp_awaitFallback _ hcall⟩

theorem wp_executeCacheOperation {call : Call} (hcall : taskCall g.task = some call) :
    wp (recorder (serving settings)) (executeCacheOperation settings call) (Served settings) g := by
  rw [executeCacheOperation, wp_bind, wp_act]
  refine ⟨trivial, fun id => ?_⟩
  rw [thenWp_ok, wp_bind]
  refine (wp_act_recorded rfl _).mpr ⟨trivial, fun enabled => ?_⟩
  simp only [thenWp_ok, wp_ite, wp_bind, wp_observe, wp_awaited]
  refine ⟨fun _ => (wp_act_recorded rfl _).mpr ⟨trivial, fun selected => ?_⟩,
    fun _ => wp_boundedSource _ _⟩
  rw [thenWp_ok]
  cases selectedKey settings call selected with
  | error e =>
    simp only [wp_bind, wp_observe, thenWp_ok]
    exact wp_awaitFallback _ hcall
  | ok key => exact wp_executeKeyed key hcall

theorem load_of_hit {redis : RedisSettings X} {key : DialCacheKey}
    {config : ResolvedRemoteLayerConfig} {timeoutMs read : ℕ} {value : V} {frame : ReplyObject X}
    (h : ReadTrace redis key config timeoutMs read t (.ok (.hit value frame))) :
    ∃ payload, did (.load key payload) (.ok value) ∈ t := by
  cases h with
  | fresh _ _ _ decode =>
    cases decode with
    | @decoded payload _ _ => exact ⟨(decompress redis payload).1, by simp [loadEvent]⟩

/-- The run behind a flight settles with what it read or as its source. -/
theorem outcome_of_runOutcome (h : RunOutcome settings plan t outcome) : Outcome settings t outcome := by
  cases h with
  | stored hget _ => exact .own (.stored hget)
  | fresh hfresh _ =>
    obtain ⟨redis, config, timeoutMs, read, u, frame, -, -, htrace, hu⟩ := hfresh
    obtain ⟨payload, hload⟩ := load_of_hit htrace
    exact .own (.decoded (hu.subset hload))
  | source labels thread settlement hspawned hjoins =>
    refine .awaited (.inl ⟨.fallback plan.toInvocation labels, rfl, hspawned⟩) (mem_joins.mp ?_)
    rw [hjoins]
    exact List.mem_singleton_self _
  | @recovered _ _ _ _ value _ _ _ hrecovered =>
    obtain ⟨pre, labels, thread, settlement, u, rfl, -, redis, frame, config, seconds, v, -, -, -,
      rfl, payload, before, after, t₁, t₂, -, rfl, -⟩ := hrecovered
    refine .own (.decoded (?_ : loadEvent redis plan.key payload (.ok value) ∈ _))
    simp

/-! ### Executions -/

/-- The outcome of a task, by what its thread has recorded. -/
def TaskServed (settings : Settings X) (r : Except (Failure X) (Settlement V)) (g : Ghost V X) :
    Prop :=
  ∃ outcome, r = outcome.map Settlement.value ∧ Served settings outcome g

theorem wp_value {code : Async V X V}
    (h : wp (recorder (serving settings)) code (Served settings) g) :
    wp (recorder (serving settings)) (do return Settlement.value (← code)) (TaskServed settings) g := by
  rw [wp_bind]
  refine wp_mono h fun r g' hserved => ?_
  cases r with
  | ok value => exact ⟨.ok value, rfl, hserved⟩
  | error e => exact ⟨.error e, rfl, hserved⟩

variable {task : CacheTask V}

theorem wp_run (h : Started settings plan task) :
    wp (recorder (serving settings)) (body settings task) (TaskServed settings) ⟨task, []⟩ := by
  refine wp_of_records (records_run h) fun t r ⟨outcome, hr, htrace⟩ => ?_
  exact ⟨outcome, hr, (outcome_of_runOutcome htrace.outcome).served⟩

/-- What a serving task does is allowed, and it settles on its own account or as what it awaits. -/
theorem wp_body (h : Serves settings task) :
    wp (recorder (serving settings)) (body settings task) (TaskServed settings) ⟨task, []⟩ := by
  cases task with
  | call call => exact wp_value (wp_executeCacheOperation rfl)
  | requestRun plan scope => exact wp_value (wp_requestLocalRun scope rfl)
  | sharedLayers plan layer => exact wp_value (wp_getThroughSharedLayers layer rfl rfl)
  | localRun plan config => exact wp_run ⟨rfl, fun _ => ⟨config, rfl⟩⟩
  | remoteRun plan reason config enabled =>
    refine wp_run ⟨rfl, fun hnone => ?_⟩
    rw [Serves, hnone] at h
    cases h
  | fallback invocation labels => exact wp_value (wp_callFallback invocation labels)
  | _ => cases h

theorem outcome_of_runs {r : Except (Failure X) (Settlement V)} (h : Serves settings task)
    (hr : Runs (body settings task) events r) :
    ∃ outcome, r = outcome.map Settlement.value ∧ Outcome settings events outcome := by
  obtain ⟨outcome, houtcome, hserved⟩ := wp_sound (wp_body h) hr
  rw [follow_recorder] at hserved
  exact ⟨outcome, houtcome, hserved.mono (List.filter_subset_self _)⟩

abbrev CacheThread (V X : Type) :=
  Thread (CacheTask V) (CacheOp V X) CacheOp.Answer (Failure X) (Settlement V)

/-- What the surroundings of the threads are taken to do: the tables of promises hold promises of
serving threads, and sources and reads settle as their deadlines let them. -/
structure Host (settings : Settings X) (threads : List (CacheThread V X)) : Prop where
  tables : ∀ thread ∈ threads, ∀ j, Handed thread.events j →
    ∀ other ∈ threads, other.id = j → Serves settings other.task
  sources : ∀ thread ∈ threads, ∀ invocation deadline source settled,
    did (.source (.start invocation (some deadline))) source ∈ thread.events →
    did (.source (.settled source)) settled ∈ thread.events →
    Bounded deadline.ms (.fallbackTimeout invocation.call.options.useCase deadline.ms) settled
  reads : ∀ thread ∈ threads, ∀ request useCase timeoutMs read reply,
    did (.read (.start request useCase timeoutMs)) read ∈ thread.events →
    did (.read (.settled read)) reply ∈ thread.events →
    Bounded timeoutMs (.redisReadTimeout useCase timeoutMs) reply

section Executions

variable {threads : List (CacheThread V X)}

variable {thread : CacheThread V X}

theorem Host.tail (h : Host settings (thread :: threads)) :
    Host settings threads where
  tables other ho j hj last hlast :=
    h.tables other (List.mem_cons_of_mem _ ho) j hj last (List.mem_cons_of_mem _ hlast)
  sources other ho := h.sources other (List.mem_cons_of_mem _ ho)
  reads other ho := h.reads other (List.mem_cons_of_mem _ ho)

theorem value?_map (outcome : Except (Failure X) V) :
    Settlement.value? (outcome.map Settlement.value) = outcome := by
  cases outcome <;> rfl

/-- In every execution of an instance a serving thread settles with a value that some thread read or
as a source of the instance settled, whoever it shared the work with. -/
theorem serving_thread_settles (h : Execution (body settings) threads)
    (host : Host settings threads) : ∀ thread ∈ threads, Serves settings thread.task →
      ∃ outcome, thread.outcome = outcome.map Settlement.value ∧
        ∃ other ∈ threads, Origin other.events outcome := by
  induction h with
  | nil => simp
  | @settle past thread h runs joins calls ih =>
    have hpast := ih host.tail
    intro other hother hserves
    rcases List.mem_cons.mp hother with rfl | hother
    · obtain ⟨outcome, houtcome, hserved⟩ := outcome_of_runs hserves runs
      refine ⟨outcome, houtcome, ?_⟩
      cases hserved with
      | own horigin => exact ⟨other, List.mem_cons_self, horigin⟩
      | @awaited j settlement hknown hjoined =>
        obtain ⟨last, hlast, hid, rfl⟩ := joins j settlement hjoined
        have hserving : Serves settings last.task := by
          rcases hknown with ⟨task, htask, hspawned⟩ | hhanded
          · rwa [calls task j hspawned last hlast hid]
          · exact host.tables other List.mem_cons_self j hhanded last (List.mem_cons_of_mem _ hlast) hid
        obtain ⟨outcome, hsettled, origin, hmem, horigin⟩ := hpast last hlast hserving
        rw [hsettled, value?_map]
        exact ⟨origin, List.mem_cons_of_mem _ hmem, horigin⟩
    · obtain ⟨outcome, houtcome, origin, hmem, horigin⟩ := hpast other hother hserves
      exact ⟨outcome, houtcome, origin, List.mem_cons_of_mem _ hmem, horigin⟩

/-- In every execution of an instance a call fails only as a source failed in time, with the timeout
of a source, or because a flight was joined before its promise was set. -/
theorem serving_thread_fails (h : Execution (body settings) threads) (host : Host settings threads)
    (hthread : thread ∈ threads) (hserves : Serves settings thread.task) {e : Failure X}
    (he : thread.outcome = .error e) :
    e = .error "DialCache process flight was joined before initialization" ∨
      ∃ other ∈ threads, ∃ source invocation budget,
        did (.source (.start invocation budget)) source ∈ other.events ∧
          did (.source (.settled source)) (.error e) ∈ other.events ∧
          ∀ deadline, budget = some deadline → InTime (α := V) deadline.ms (.error e) ∨
            e = .fallbackTimeout invocation.call.options.useCase deadline.ms := by
  obtain ⟨outcome, houtcome, other, hother, horigin⟩ :=
    serving_thread_settles h host thread hthread hserves
  rw [he] at houtcome
  cases outcome with
  | ok value => cases houtcome
  | error e' =>
    obtain rfl := Except.error.inj houtcome
    cases horigin with
    | uninitialized _ _ => exact .inl rfl
    | @source invocation budget source _ hstart hsettled =>
      refine .inr ⟨other, hother, source, invocation, budget, hstart, hsettled, ?_⟩
      rintro deadline rfl
      exact (host.sources other hother _ _ _ _ hstart hsettled).cases.imp_right Except.error.inj

/-- Every reply that a thread works on came before the deadline of its read. -/
theorem reply_in_time (host : Host settings threads) (hthread : thread ∈ threads)
    {request : RedisReadRequest} {useCase : JsString} {timeoutMs read : ℕ} {reply : Reply X}
    (hstart : did (.read (.start request useCase timeoutMs)) read ∈ thread.events)
    (hsettled : did (.read (.settled read)) (.ok reply) ∈ thread.events) :
    InTime (X := Failure X) timeoutMs (.ok reply) := by
  refine (host.reads thread hthread _ _ _ _ _ hstart hsettled).cases.resolve_right ?_
  exact fun h => by cases h

/-- In every execution of an instance only the run of a local flight stores a value, as its own
record allows. -/
theorem put_authorised (h : Execution (body settings) threads) (hthread : thread ∈ threads)
    (hserves : Serves settings thread.task) {before after : Log V X} {urn : JsString}
    {value : V} {ttlMs : ℕ} {stored : Except (Failure X) Unit}
    (hevents : thread.events = before ++ did (.store (.put urn value ttlMs)) stored :: after) :
    PutAuthority settings ⟨thread.task, record before⟩ urn value := by
  have hallows := wp_allows (wp_body hserves) (hevents ▸ h.runs thread hthread)
  rwa [follow_recorder] at hallows

end Executions

end DialCache.InstanceRuns
