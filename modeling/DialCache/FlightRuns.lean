import DialCache.AgeLaw

/-!
# What the run behind a flight returns and publishes

Whatever the dependencies of a run do, it settles as the store, Redis, the source or an
authorised recovery decides, and it publishes only what it read fresh or got from its source.
-/

namespace DialCache.FlightRuns

open AsyncPrograms ThreadPool CacheKeys CacheOperations CacheRecorder RedisCache RuntimeConfig
open RedisTraces RefillTraces ShadowValidation CacheTraversal CacheInstance ServingGuard
open ChainTraces RunTraces RefillFence AgeLaw

variable {V X : Type} {settings : Settings X} {plan : Plan} {task : CacheTask V}
  {events : Log V X} {r : Except (Failure X) (Settlement V)}

/-- `task` is a run that an instance starts for `plan`: without Redis, only a local one. -/
def Started (settings : Settings X) (plan : Plan) (task : CacheTask V) : Prop :=
  runPlan task = some plan ∧ (settings.redis = none → ∃ config, task = .localRun plan config)

theorem records_run (h : Started settings plan task) :
    Records (serving settings) ⟨task, []⟩ (body settings task) fun t r =>
      ∃ outcome : Except (Failure X) V, r = outcome.map Settlement.value ∧
        RunTrace settings plan t outcome := by
  obtain ⟨hplan, hredis⟩ := h
  cases task with
  | localRun p config =>
    cases hplan
    exact (records_getThroughActiveLocal plan config).wrap Settlement.value
  | remoteRun p localReason config enabled =>
    cases hplan
    cases hsome : settings.redis with
    | none =>
      obtain ⟨_, htask⟩ := hredis hsome
      cases htask
    | some redis =>
      rw [body_remoteRun hsome]
      exact (records_getThroughRemote hsome plan localReason config enabled).wrap Settlement.value
  | _ => cases hplan

/-- What a run does is authorised by what it has done before. -/
theorem authorised {before after : Log V X} {e : CacheEvent V X}
    (h : Started settings plan task) (hr : Runs (body settings task) (before ++ e :: after) r) :
    servingAllows settings ⟨task, record before⟩ e.op := by
  have hallows := wp_allows (records_run h) hr
  rw [follow_recorder] at hallows
  exact hallows

/-- A run whose source fulfilled settles with the value of the source. -/
theorem outcome_of_sourceValue {log : Log V X} {outcome : Except (Failure X) V}
    {value : V} (h : RunOutcome settings plan log outcome) (hvalue : SourceValue plan log value) :
    outcome = .ok value := by
  obtain ⟨labels, thread, -, hjoined⟩ := hvalue
  have hmem := mem_joins.mpr hjoined
  cases h with
  | stored _ hjoins | fresh _ hjoins =>
    rw [hjoins] at hmem
    cases hmem
  | source _ _ _ _ hjoins =>
    rw [hjoins] at hmem
    cases List.mem_singleton.mp hmem
    rfl
  | recovered _ _ _ _ hjoins hs _ =>
    rw [hjoins] at hmem
    cases List.mem_singleton.mp hmem
    cases hs

/-- Who may publish what in a run that settles with `r`. -/
structure PublicationLaw (settings : Settings X) (plan : Plan) (task : CacheTask V)
    (events : Log V X) (r : Except (Failure X) (Settlement V)) : Prop where
  put : ∀ before after urn value ttlMs stored,
    events = before ++ did (.store (.put urn value ttlMs)) stored :: after →
    PutAuthority settings ⟨task, record before⟩ urn value
  write : ∀ before after request, events = before ++ did (.write request) () :: after →
    request.valueKey = redisKey plan.key ∧ ∃ value, did (.dump plan.key value) () ∈ before ∧
      SourceValue plan (record before) value ∧ r = .ok (.value value)
  recovered : ∀ thread settlement reason value, joined thread settlement ∈ events →
    Settlement.value? settlement = .error reason → r = .ok (.value value) →
    (∀ urn value' ttlMs stored, did (.store (.put urn value' ttlMs)) stored ∉ events) ∧
      ∀ request, did (.write request) () ∉ events

/-- A run writes what it has serialized, which is the value of its source. -/
theorem publicationLaw_write (h : Started settings plan task)
    (hr : Runs (body settings task) events r) {before after : Log V X}
    {request : RedisWriteRequest} (hsplit : events = before ++ did (.write request) () :: after) :
    request.valueKey = redisKey plan.key ∧ ∃ value, did (.dump plan.key value) () ∈ before ∧
      SourceValue plan (record before) value ∧ r = .ok (.value value) := by
  obtain ⟨key, value, hdump, hkey⟩ := authorised h (hsplit ▸ hr)
  have hmem := (mem_record rfl).mp hdump
  obtain ⟨s, t, rfl⟩ := List.append_of_mem hmem
  rw [List.append_assoc] at hsplit
  obtain ⟨p, hp, rfl, hvalue⟩ := authorised h (hsplit ▸ hr)
  cases h.1.symm.trans hp
  have hgrown : ∀ u, SourceValue plan (record (s ++ u)) value := by
    intro u
    rw [record, List.filter_append]
    exact hvalue.append _
  obtain ⟨outcome, rfl, htrace⟩ := (records_run h).sound hr
  refine ⟨hkey, value, hmem, hgrown _, ?_⟩
  rw [outcome_of_sourceValue htrace.outcome (hsplit ▸ hgrown _)]
  rfl

def isPublication (e : CacheEvent V X) : Bool :=
  match e.op with
  | .act (.store (.put _ _ _)) | .act (.write _) => true
  | _ => false

theorem isPublication_of {p : CacheEvent V X → Bool}
    (hput : ∀ urn value ttlMs stored, p (did (.store (.put urn value ttlMs)) stored) = false)
    (hwrite : ∀ request answer, p (did (.write request) answer) = false) {e : CacheEvent V X}
    (h : p e = true) : isPublication e = false := by
  obtain ⟨op, answer⟩ := e
  unfold isPublication
  split
  · rename_i heq
    cases heq
    cases (hput _ _ _ answer).symm.trans h
  · rename_i heq
    cases heq
    cases (hwrite _ answer).symm.trans h
  · rfl

/-- A run that recovered read the store, Redis and the source, and published nothing. -/
theorem isPublication_of_recoveredRun {reason : Failure X} {value : V}
    (h : RecoveredRun settings plan reason (record events) value) :
    ∀ e ∈ record events, isPublication e = false := by
  obtain ⟨pre, labels, thread, settlement, t, hlog, -, redis, frame, config, seconds, u, -, hread, -,
    rfl, hrecovered⟩ := h
  obtain ⟨redis', config', timeoutMs, read, l, rt, -, -, hl, rfl, htrace⟩ := hread
  obtain ⟨settled, rest, rfl, hrest⟩ := htrace.split
  have hdecode : ∀ e : CacheEvent V X, isDecodeEvent e = true → isPublication e = false :=
    fun e => isPublication_of (fun _ _ _ _ => rfl) (fun _ _ => rfl)
  intro e he
  rw [hlog] at he
  simp only [readEvents, List.mem_append, List.mem_cons, List.not_mem_nil, or_false] at he
  rcases he with (he | (rfl | rfl) | he) | rfl | rfl | rfl | he
  · exact isPublication_of (fun _ _ _ _ => rfl) (fun _ _ => rfl) (hl e he)
  · rfl
  · rfl
  · exact hdecode e (hrest e he)
  · rfl
  · rfl
  · rfl
  · exact hdecode e (hrecovered.isDecodeEvent e he)

/-- A run that settles with a value although its source rejected publishes nothing. -/
theorem publicationLaw_recovered (h : Started settings plan task)
    (hr : Runs (body settings task) events r) {thread : ℕ}
    {settlement : Except (Failure X) (Settlement V)} {reason : Failure X} {value : V}
    (hjoined : joined thread settlement ∈ events)
    (hreason : Settlement.value? settlement = .error reason) (hvalue : r = .ok (.value value)) :
    (∀ urn value' ttlMs stored, did (.store (.put urn value' ttlMs)) stored ∉ events) ∧
      ∀ request, did (.write request) () ∉ events := by
  rcases recovers_or_rejects h.1 hr hjoined hreason with hrejects | ⟨v, -, hrecovered⟩
  · cases hvalue.symm.trans hrejects
  have hnone := isPublication_of_recoveredRun hrecovered
  constructor
  · intro urn value' ttlMs stored hmem
    cases hnone _ ((mem_record rfl).mpr hmem)
  · intro request hmem
    cases hnone _ ((mem_record rfl).mpr hmem)

/-- The law of publication of a run. -/
theorem publication_law (settings : Settings X) (plan : Plan) (task : CacheTask V)
    (events : List (CacheEvent V X)) (r : Except (Failure X) (Settlement V))
    (h : Started settings plan task) (hr : Runs (body settings task) events r) :
    PublicationLaw settings plan task events r where
  put := by
    rintro before after urn value ttlMs stored rfl
    exact authorised h hr
  write _ _ _ hsplit := publicationLaw_write h hr hsplit
  recovered _ _ _ _ hjoined hreason hvalue := publicationLaw_recovered h hr hjoined hreason hvalue

/-- However its dependencies behave, a run settles with a value of the store, a fresh frame,
the settlement of its one source call or an authorised recovery. -/
theorem fail_open_run (settings : Settings X) (plan : Plan) (task : CacheTask V)
    (events : List (CacheEvent V X)) (r : Except (Failure X) (Settlement V))
    (h : Started settings plan task) (hr : Runs (body settings task) events r) :
    ∃ outcome : Except (Failure X) V, r = outcome.map Settlement.value ∧
      RunOutcome settings plan (record events) outcome := by
  obtain ⟨outcome, houtcome, htrace⟩ := (records_run h).sound hr
  exact ⟨outcome, houtcome, htrace.outcome⟩

section Samples

/-- The store is empty, and the frame in Redis is ten seconds old. -/
def freshOracle : (op : PoolOp (CacheTask Unit) (CacheOp Unit Unit)) →
    PoolAns CacheOp.Answer (Failure Unit) (Settlement Unit) op
  | .act .dateNow => (20000 : ℤ)
  | .act (.store (.get _)) => .ok none
  | .act (.resolvePolicy _) => .ok ()
  | op => recoveryOracle op

def minuteRun : CacheTask Unit := .localRun recoverablePlan ⟨60, 100, minute_supported⟩

theorem minuteRun_started : Started recoverableSettings recoverablePlan minuteRun :=
  ⟨rfl, fun _ => ⟨_, rfl⟩⟩

def freshRun : List (CacheEvent Unit Unit) × Except (Failure Unit) (Settlement Unit) :=
  (body recoverableSettings minuteRun).runWith freshOracle

theorem publication_law_fresh_frame :
    PutAuthority recoverableSettings ⟨minuteRun, record (freshRun.1.take 28)⟩ profileKey.urn () :=
  (publication_law _ _ minuteRun _ _ minuteRun_started (runs_runWith freshOracle _)).put _
    (freshRun.1.drop 29) _ _ 59999 (.error (.error "")) (by with_unfolding_all rfl)

theorem fail_open_run_fresh_frame : freshRun.2 = .ok (.value ()) ∧ ∃ outcome,
    freshRun.2 = outcome.map Settlement.value ∧
      RunOutcome recoverableSettings recoverablePlan (record freshRun.1) outcome :=
  ⟨by with_unfolding_all rfl, fail_open_run _ _ minuteRun _ _ minuteRun_started (runs_runWith freshOracle _)⟩

end Samples

end DialCache.FlightRuns
