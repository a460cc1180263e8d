import DialCache.ServingGuard

/-!
# What the chain below a memo miss can do

The record and the outcome of every continuation of the chain, under the guard of serving
code: after a local read, after a remote read, after the source has settled.
-/

namespace DialCache.ChainTraces

open AsyncPrograms ThreadPool CacheKeys CacheOperations CacheRecorder RedisCache RuntimeConfig
open RedisTraces RefillTraces ShadowValidation CacheTraversal ServingGuard

variable {V X : Type} {settings : Settings X} {g : Ghost V X}

/-- An attempt to put `value` into the process-local store. -/
def Stores (key : DialCacheKey) (value : V) (e : CacheEvent V X) : Prop :=
  ∃ ttlMs stored, e = did (.store (.put key.urn value ttlMs)) stored

/-- A step of publishing `value` to Redis or to the process-local store. -/
def Publishes (key : DialCacheKey) (value : V) (e : CacheEvent V X) : Prop :=
  isRefillEvent e = true ∨ Stores key value e

/-- A step of the admission of shadow work. -/
def isAdmission (e : CacheEvent V X) : Bool :=
  match e.op with
  | .act (.shadow (.busy _)) | .act (.shadow (.enlist _ _ _)) => true
  | _ => false

/-- A step after a source rejection. -/
def isRecoveryEvent (e : CacheEvent V X) : Bool :=
  match e.op with
  | .act (.predicate _) => true
  | _ => isDecodeEvent e

/-- A read of the process-local store. -/
def isLocalGet (e : CacheEvent V X) : Bool :=
  match e.op with
  | .act (.store (.get _)) => true
  | _ => false

/-- A call of the source and what follows it. `recovers` says which record after a
rejection serves a value nevertheless. -/
inductive SourceTrace (plan : Plan)
    (recovers : Failure X → Log V X → V → Prop) :
    Log V X → Except (Failure X) V → Prop where
  | settled {labels : CacheMetricLabels} {thread : ℕ} {value : V} {t : Log V X}
      (admission : Log V X) (hadmission : ∀ e ∈ admission, isAdmission e = true)
      (ht : ∀ e ∈ t, Publishes plan.key value e) :
      SourceTrace plan recovers (spawned (.fallback plan.toInvocation labels) thread ::
        (admission ++ joined thread (.ok (.value value)) :: t)) (.ok value)
  | rejected {labels : CacheMetricLabels} {thread : ℕ}
      {settlement : Except (Failure X) (Settlement V)} {reason : Failure X}
      {t : Log V X} (admission : Log V X) (hadmission : ∀ e ∈ admission, isAdmission e = true)
      (hs : Settlement.value? settlement = .error reason)
      (ht : ∀ e ∈ t, isRecoveryEvent e = true) :
      SourceTrace plan recovers (spawned (.fallback plan.toInvocation labels) thread ::
        (admission ++ joined thread settlement :: t)) (.error reason)
  | recovered {labels : CacheMetricLabels} {thread : ℕ}
      {settlement : Except (Failure X) (Settlement V)} {reason : Failure X} {value : V}
      {t : Log V X} (hs : Settlement.value? settlement = .error reason)
      (ht : recovers reason t value) :
      SourceTrace plan recovers (spawned (.fallback plan.toInvocation labels) thread ::
        joined thread settlement :: t) (.ok value)

variable {value : V}

theorem value?_eq_ok {settlement : Except (Failure X) (Settlement V)}
    (h : Settlement.value? settlement = .ok value) : settlement = .ok (.value value) := by
  cases settlement with
  | error e => cases h
  | ok s =>
    cases s with
    | value v => exact congrArg _ (congrArg _ (Except.ok.inj h))
    | verdict outcome => cases h
    | done => cases h

/-! ### Publishing -/

variable {key : DialCacheKey}

theorem records_putLocalFailOpen (config : ResolvedLayerConfig)
    (hput : PutAuthority settings g key.urn value) :
    Records (serving settings) g (putLocalFailOpen key value config) (fun t r =>
      r = .ok () ∧ ∀ e ∈ t, Stores key value e) := by
  have hallows : (serving settings).allows g
      (.act (.store (.put key.urn value (cacheTtlSecToMs config.ttlSec - 1)))) := hput
  simp only [Records, putLocalFailOpen, wp_bind, wp_act, hallows, true_and, thenWp_ok]
  intro stored
  have hmem : ∀ e ∈ [did (.store (.put key.urn value (cacheTtlSecToMs config.ttlSec - 1))) stored],
      Stores key value e := fun e he => ⟨_, _, List.mem_singleton.mp he⟩
  cases stored with
  | ok _ => exact ⟨_, rfl, rfl, hmem⟩
  | error e =>
    rw [wp_bind, wp_observe, thenWp_ok, wp_recordError]
    exact ⟨_, rfl, rfl, hmem⟩

theorem records_putOnMiss {local_ : CacheGetResult V}
    (hput : ∀ config, local_ = .miss config → PutAuthority settings g key.urn value) :
    Records (serving settings) g (putOnMiss key value local_) (fun t r =>
      r = .ok () ∧ ∀ e ∈ t, Stores key value e) := by
  cases local_ with
  | hit _ | disabled _ => exact ⟨[], by simp, rfl, by simp⟩
  | miss config =>
    rw [Records, putOnMiss, wp_awaited]
    exact records_putLocalFailOpen config (hput config rfl)

variable (redis : RedisSettings X)

theorem records_putRemoteFailOpen (outcome : RemoteOutcome X)
    (hput : PutAllowed key value (serving settings) g) :
    Records (serving settings) g (putRemoteFailOpen redis key value outcome) (fun t r =>
      r = .ok () ∧ ∀ e ∈ t, isRefillEvent e = true) := by
  unfold Records putRemoteFailOpen
  cases outcome.writeConfig with
  | none => exact ⟨[], by simp, rfl, by simp⟩
  | some config =>
    simp only [wp_tryCatch, wp_awaited]
    refine wp_of_records (records_put config hput) ?_
    rintro t r ⟨written, htrace, rfl⟩
    have hrefill := htrace.isRefillEvent (by simp)
    cases written with
    | ok _ => exact ⟨t, rfl, rfl, hrefill⟩
    | error e =>
      simp only [Except.map, catchWp_error, wp_observe]
      exact ⟨t, rfl, trivial, hrefill⟩

/-! ### After a rejection -/

theorem records_shouldAttemptStaleRecovery (reason : Failure X) :
    Records (serving settings) g (shouldAttemptStaleRecovery reason : Async V X Bool) (fun t r =>
      ∃ answer attempt, t = [did (.predicate reason) answer] ∧ r = .ok attempt ∧
        (attempt = true → answer = .ok (.boolean true))) := by
  rw [Records, shouldAttemptStaleRecovery, wp_bind]
  refine (wp_act_recorded rfl _).mpr ⟨trivial, fun answer => ?_⟩
  rw [thenWp_ok]
  rcases answer with e | result | _
  · rw [wp_bind, wp_observe, thenWp_ok, wp_pure]
    exact ⟨_, rfl, _, false, rfl, rfl, by simp⟩
  · exact ⟨_, rfl, _, result, rfl, rfl, by simp⟩
  · rw [wp_bind, wp_observe, thenWp_ok, wp_pure]
    exact ⟨_, rfl, _, false, rfl, rfl, by simp⟩

theorem records_attemptRecovery (key : DialCacheKey) (frame : Option (ReplyObject X))
    (maxAgeSec : ℕ) :
    Records (serving settings) g (attemptRecovery redis key frame maxAgeSec : Async V X _)
      (fun t r => (∀ e ∈ t, isDecodeEvent e = true) ∧ ∃ result, r = .ok result ∧
        ∀ value, result = some value →
          ∃ retained, frame = some retained ∧ Recovered redis key retained maxAgeSec t value) := by
  simp only [Records, attemptRecovery, wp_tryCatch, wp_awaited]
  refine wp_of_records (records_recoverRetainedCandidate redis key frame maxAgeSec) ?_
  rintro t r ⟨hdecode, hrecovered⟩
  cases r with
  | error e =>
    simp only [catchWp_error, wp_bind, wp_observe, thenWp_ok, wp_pure]
    exact ⟨t, rfl, hdecode, none, rfl, by simp⟩
  | ok result =>
    refine ⟨t, rfl, hdecode, result, rfl, ?_⟩
    rintro value rfl
    exact hrecovered value rfl

/-- A record that serves `value` although the source has rejected. -/
def RecoversFrom (redis : RedisSettings X) (key : DialCacheKey) (maxAgeSec : Option ℕ)
    (frame : Option (ReplyObject X)) (reason : Failure X) (t : Log V X) (value : V) :
    Prop :=
  ∃ seconds retained u, maxAgeSec = some seconds ∧ frame = some retained ∧
    t = did (.predicate reason) (.ok (.boolean true)) :: u ∧
    Recovered redis key retained seconds u value

theorem isRecoveryEvent_cons (reason : Failure X) (answer : Except (Failure X) CallbackResult)
    {t : Log V X} (h : ∀ e ∈ t, isDecodeEvent e = true) :
    ∀ e ∈ did (.predicate reason) answer :: t, isRecoveryEvent e = true := by
  intro e he
  rcases List.mem_cons.mp he with rfl | he
  · rfl
  · have hdecode := h e he
    unfold isRecoveryEvent
    split
    · rfl
    · exact hdecode

theorem records_recoverOrRethrow (key : DialCacheKey) (maxAgeSec : Option ℕ)
    (frame : Option (ReplyObject X)) (reason : Failure X) :
    Records (serving settings) g (recoverOrRethrow redis key maxAgeSec frame reason : Async V X V)
      (fun t r => (∃ value, r = .ok value ∧ RecoversFrom redis key maxAgeSec frame reason t value) ∨
        (r = .error reason ∧ ∀ e ∈ t, isRecoveryEvent e = true)) := by
  cases maxAgeSec with
  | none => exact ⟨[], by simp, .inr ⟨rfl, by simp⟩⟩
  | some seconds =>
    simp only [Records, recoverOrRethrow, wp_bind]
    refine wp_of_records (records_shouldAttemptStaleRecovery reason) ?_
    rintro t r ⟨answer, attempt, rfl, rfl, hanswer⟩
    rw [thenWp_ok]
    cases attempt with
    | false =>
      rw [if_neg (by simp), wp_throw]
      exact ⟨_, rfl, .inr ⟨rfl, isRecoveryEvent_cons _ _ (by simp)⟩⟩
    | true =>
      rw [if_pos rfl, wp_bind, hanswer rfl]
      refine wp_of_records (records_attemptRecovery redis key frame seconds) ?_
      rintro t r ⟨hdecode, result, rfl, hrecovered⟩
      rw [Ghost.extend_extend]
      cases result with
      | none => exact ⟨_, rfl, .inr ⟨rfl, isRecoveryEvent_cons _ _ hdecode⟩⟩
      | some value =>
        obtain ⟨retained, rfl, hrec⟩ := hrecovered value rfl
        exact ⟨_, rfl, .inl ⟨value, rfl, seconds, retained, t, rfl, rfl, rfl, hrec⟩⟩

/-! ### The source -/

variable {plan : Plan}

theorem taskCall_of_taskPlan {task : CacheTask V} (h : taskPlan task = some plan) :
    taskCall task = some plan.call := by
  cases task with
  | requestRun p _ | sharedLayers p _ | localRun p _ | remoteRun p _ _ _ =>
    exact congrArg (Option.map (·.call)) h
  | _ => cases h

theorem taskPlan_of_runPlan {task : CacheTask V} (h : runPlan task = some plan) :
    taskPlan task = some plan := by
  cases task with
  | localRun p _ => exact h
  | remoteRun p _ _ _ => exact h
  | _ => cases h

theorem records_awaitFallback {invocation : Invocation} (labels : CacheMetricLabels)
    (hcall : taskCall g.task = some invocation.call) :
    Records (serving settings) g (awaitFallback invocation labels) (fun t r =>
      ∃ thread settlement, t = [spawned (.fallback invocation labels) thread,
        joined thread settlement] ∧ r = Settlement.value? settlement) := by
  rw [Records, awaitFallback, wp_bind, wp_spawn]
  refine ⟨hcall, fun thread => ?_⟩
  rw [thenWp_ok, wp_join]
  refine ⟨trivial, fun settlement => ?_⟩
  rw [Ghost.extend_extend]
  exact ⟨_, rfl, thread, settlement, rfl, rfl⟩

/-- Only the run below a local miss publishes to the process-local store. -/
def PublishesLocally (g : Ghost V X) (plan : Plan) (local_ : CacheGetResult V) : Prop :=
  ∀ config, local_ = .miss config → ∃ resolved, g.task = .localRun plan resolved

theorem isReadStart_of_isRefillEvent {e : CacheEvent V X} (h : isRefillEvent e = true) :
    isReadStart e = false := by
  unfold isReadStart
  split
  · rename_i hop
    simp [isRefillEvent, hop] at h
  · rfl

section Publish

variable {plan : Plan} {value : V}

theorem putAllowed_of_sourceValue (hrun : runPlan g.task = some plan)
    (hsource : SourceValue plan g.log value) :
    PutAllowed plan.key value (serving settings) g where
  dump := fun t _ => ⟨plan, hrun, rfl, hsource.append t⟩
  write := fun _ _ hdump hkey => ⟨plan.key, value, List.mem_append_right _ hdump, hkey⟩

theorem records_publish (local_ : CacheGetResult V) {outcome : RemoteOutcome X}
    (hrun : runPlan g.task = some plan) (hlocal : PublishesLocally g plan local_)
    (hsource : SourceValue plan g.log value)
    (hunread : plan.key.trackForInvalidation = true → suppressLocalWrite plan.key outcome =
      false → RemoteUnread settings plan ∧ ∀ e ∈ g.log, isReadStart e = false) :
    Records (serving settings) g (publish redis plan.key local_ outcome value) (fun t r =>
      r = .ok value ∧ ∀ e ∈ t, Publishes plan.key value e) := by
  rw [Records, publish, wp_bind]
  refine wp_of_records (records_putRemoteFailOpen redis outcome
    (putAllowed_of_sourceValue hrun hsource)) ?_
  rintro t r ⟨rfl, ht⟩
  have hpublishes : ∀ e ∈ t, Publishes plan.key value e := fun e he => .inl (ht e he)
  rw [thenWp_ok, wp_bind, putUnless]
  cases hsuppress : suppressLocalWrite plan.key outcome with
  | true =>
    rw [if_pos rfl, wp_pure, thenWp_ok, wp_pure]
    exact ⟨t, rfl, rfl, hpublishes⟩
  | false =>
    rw [if_neg (by simp)]
    refine wp_of_records (records_putOnMiss (fun config hmiss => ?_)) ?_
    · obtain ⟨resolved, htask⟩ := hlocal config hmiss
      refine ⟨plan, resolved, htask, rfl, .inr ⟨hsource.append t, fun tracked => ?_⟩⟩
      obtain ⟨hremote, hlog⟩ := hunread tracked hsuppress
      refine ⟨hremote, List.forall_mem_append.mpr ⟨hlog, fun e he => ?_⟩⟩
      exact isReadStart_of_isRefillEvent (ht e he)
    · rintro t' r ⟨rfl, ht'⟩
      rw [thenWp_ok, wp_pure, Ghost.extend_extend]
      exact ⟨_, rfl, rfl, List.forall_mem_append.mpr ⟨hpublishes, fun e he => .inr (ht' e he)⟩⟩

end Publish

/-! ### Continuations of the chain -/

/-- A source call whose value is published before it is returned. -/
theorem records_sourceThen (labels : CacheMetricLabels) {rest : V → Async V X Unit}
    {recovers : Failure X → Log V X → V → Prop} (hplan : taskPlan g.task = some plan)
    (hrest : ∀ thread value, Records (serving settings)
      (g.extend [spawned (.fallback plan.toInvocation labels) thread, joined thread (.ok (.value
      value))]) (rest value) (fun t r => r = .ok () ∧ ∀ e ∈ t, Publishes plan.key value e)) :
    Records (serving settings) g
      (do let value ← awaitFallback plan.toInvocation labels
          rest value
          return value)
      (SourceTrace plan recovers) := by
  rw [Records, wp_bind]
  refine wp_of_records (records_awaitFallback labels (taskCall_of_taskPlan hplan)) ?_
  rintro t r ⟨thread, settlement, rfl, rfl⟩
  cases hs : Settlement.value? settlement with
  | error reason =>
    exact ⟨_, rfl, .rejected (t := []) [] (by simp) hs (by simp)⟩
  | ok value =>
    obtain rfl := value?_eq_ok hs
    rw [thenWp_ok, wp_bind]
    refine wp_of_records (hrest thread value) ?_
    rintro t r ⟨rfl, ht⟩
    rw [thenWp_ok, wp_pure, Ghost.extend_extend]
    exact ⟨_, rfl, .settled [] (by simp) ht⟩

theorem sourceValue_joined (plan : Plan) (labels : CacheMetricLabels) (thread : ℕ) (value : V) :
    SourceValue (X := X) plan (g.extend [spawned (.fallback plan.toInvocation labels) thread,
      joined thread (.ok (.value value))]).log value :=
  ⟨labels, thread, by simp [Ghost.extend], by simp [Ghost.extend]⟩

section Continue

variable {plan : Plan} {local_ : CacheGetResult V}

/-- The chain may publish a tracked source value locally. -/
def Unread (settings : Settings X) (g : Ghost V X) (plan : Plan) : Prop :=
  RemoteUnread settings plan ∧ ∀ e ∈ g.log, isReadStart e = false

theorem Unread.joined (h : Unread settings g plan) (labels : CacheMetricLabels) (thread : ℕ)
    (settlement : Except (Failure X) (Settlement V)) {t : Log V X}
    (ht : ∀ e ∈ t, isAdmission e = true) :
    Unread settings (g.extend (spawned (.fallback plan.toInvocation labels) thread ::
      (t ++ [joined thread settlement]))) plan := by
  refine ⟨h.1, List.forall_mem_append.mpr ⟨h.2, ?_⟩⟩
  intro e he
  simp only [List.mem_cons, List.mem_append, List.not_mem_nil, or_false] at he
  rcases he with rfl | he | rfl
  · rfl
  · have hadmission := ht e he
    unfold isReadStart
    split
    · rename_i hop
      simp [isAdmission, hop] at hadmission
    · rfl
  · rfl

theorem putAuthority_source {config : ResolvedLayerConfig} (hlocal : PublishesLocally g plan local_)
    (hmiss : local_ = .miss config) (hsource : SourceValue plan g.log value)
    (hunread : plan.key.trackForInvalidation = true → Unread settings g plan) :
    PutAuthority settings g plan.key.urn value := by
  obtain ⟨resolved, htask⟩ := hlocal config hmiss
  exact ⟨plan, resolved, htask, rfl, .inr ⟨hsource, hunread⟩⟩

theorem records_finishLocalOnly (hplan : taskPlan g.task = some plan)
    (hlocal : PublishesLocally g plan local_) (hunread : Unread settings g plan) :
    Records (serving settings) g (finishLocalOnly plan local_)
      (SourceTrace plan fun _ _ _ => False) := by
  refine records_sourceThen (labelsFor plan.key .LOCAL) hplan fun thread value => ?_
  refine (records_putOnMiss fun config hmiss => ?_).mono ?_
  · exact putAuthority_source hlocal hmiss (sourceValue_joined plan _ thread value)
      fun _ => hunread.joined _ thread _ (t := []) (by simp)
  · rintro t r ⟨rfl, ht⟩
    exact ⟨rfl, fun e he => .inr (ht e he)⟩

theorem records_finishReadError (hplan : taskPlan g.task = some plan)
    (hlocal : PublishesLocally g plan local_) :
    Records (serving settings) g (finishReadError plan local_)
      (SourceTrace plan fun _ _ _ => False) := by
  refine records_sourceThen (labelsFor plan.key .REMOTE) hplan fun thread value => ?_
  rw [Records, putUnless]
  cases htracked : plan.key.trackForInvalidation with
  | true => exact ⟨[], by simp, rfl, by simp⟩
  | false =>
    rw [if_neg (by simp)]
    refine (records_putOnMiss fun config hmiss => ?_).mono ?_
    · refine putAuthority_source hlocal hmiss (sourceValue_joined plan _ thread value) ?_
      intro tracked
      rw [htracked] at tracked
      cases tracked
    · rintro t r ⟨rfl, ht⟩
      exact ⟨rfl, fun e he => .inr (ht e he)⟩

theorem records_finishWithSource {outcome : RemoteOutcome X} (hrun : runPlan g.task = some plan)
    (hlocal : PublishesLocally g plan local_)
    (hunread : plan.key.trackForInvalidation = true → suppressLocalWrite plan.key outcome =
      false → Unread settings g plan) :
    Records (serving settings) g (finishWithSource redis plan local_ outcome)
      (SourceTrace plan (RecoversFrom redis plan.key outcome.staleRecoveryMaxAgeSec
        outcome.retainedFrame)) := by
  rw [Records, finishWithSource, wp_bind, wp_attempt]
  refine wp_of_records (records_awaitFallback _
    (taskCall_of_taskPlan (taskPlan_of_runPlan hrun))) ?_
  rintro t r ⟨thread, settlement, rfl, rfl⟩
  rw [thenWp_ok]
  cases hs : Settlement.value? settlement with
  | ok value =>
    obtain rfl := value?_eq_ok hs
    refine wp_of_records (records_publish redis local_ hrun hlocal
      (sourceValue_joined plan _ thread value) fun tracked hsuppress =>
        (hunread tracked hsuppress).joined _ thread _ (t := []) (by simp)) ?_
    rintro t r ⟨rfl, ht⟩
    rw [Ghost.extend_extend]
    exact ⟨_, rfl, .settled [] (by simp) ht⟩
  | error reason =>
    refine wp_of_records (records_recoverOrRethrow redis plan.key _ _ reason) ?_
    rintro t r hrecover
    rw [Ghost.extend_extend]
    rcases hrecover with ⟨value, rfl, hrecovers⟩ | ⟨rfl, ht⟩
    · exact ⟨_, rfl, .recovered hs hrecovers⟩
    · exact ⟨_, rfl, .rejected [] (by simp) hs ht⟩

end Continue

/-! ### Admission of shadow work -/

theorem wp_recordDropped (key : DialCacheKey) (Q : Except (Failure X) Unit → Ghost V X → Prop) :
    wp (recorder (serving settings)) (recordShadowValidation key ⟨.dropped, none, none⟩) Q g ↔
      Q (.ok ()) g := by
  simp [recordShadowValidation, recordValueAge, warnDetails]

theorem wp_resolveShadowLogging (key : DialCacheKey) (shadow : ShadowConfig)
    {Q : Except (Failure X) (Option ShadowMismatchLogPlan) → Ghost V X → Prop}
    (hQ : ∀ logPlan, Q (.ok logPlan) g) :
    wp (recorder (serving settings)) (resolveShadowLogging key shadow) Q g := by
  rw [resolveShadowLogging]
  simp only [wp_ite, wp_bind, wp_recordError, thenWp_ok, wp_pure]
  exact ⟨fun _ => hQ _, fun _ => hQ _⟩

theorem wp_shadowStartedAt (start : ShadowValidationStart X)
    {Q : Except (Failure X) ℚ → Ghost V X → Prop} (hQ : ∀ startedAtMs, Q (.ok startedAtMs) g) :
    wp (recorder (serving settings)) (shadowStartedAt start : Async V X ℚ) Q g := by
  unfold shadowStartedAt
  split
  · exact hQ _
  · exact (wp_performanceNow Q g).mpr hQ

section Admission

variable {plan : Plan} (start : ShadowValidationStart X)
  (henlist : ∀ t work, (∀ e ∈ t, isAdmission e = true) → work.plan = plan → work.start = start.run →
    EnlistAuthority settings (g.extend t) plan.key.urn start.frame work)

include henlist

theorem records_admitShadowValidation (shadow : ShadowConfig) (readTimeoutMs : ℕ) :
    Records (serving settings) g (admitShadowValidation plan shadow start readTimeoutMs)
      (fun t r => r = .ok () ∧ ∀ e ∈ t, isAdmission e = true) := by
  rw [Records, admitShadowValidation, wp_bind]
  refine (wp_act_recorded rfl _).mpr ⟨trivial, fun busy => ?_⟩
  rw [thenWp_ok]
  have hbusy : ∀ e ∈ [did (.shadow (.busy plan.key.urn)) busy (V := V) (X := X)],
      isAdmission e = true := fun e he => by
    rw [List.mem_singleton.mp he]
    rfl
  cases busy with
  | true =>
    rw [if_pos rfl, wp_recordDropped]
    exact ⟨_, rfl, rfl, hbusy⟩
  | false =>
    rw [if_neg (by simp), wp_bind]
    refine wp_resolveShadowLogging plan.key shadow fun logPlan => ?_
    rw [thenWp_ok, wp_bind]
    refine wp_shadowStartedAt start fun startedAtMs => ?_
    rw [thenWp_ok, wp_bind]
    refine (wp_act_recorded rfl _).mpr ⟨henlist _ _ hbusy rfl rfl, fun job => ?_⟩
    rw [thenWp_ok, wp_pure, Ghost.extend_extend]
    refine ⟨_, rfl, rfl, List.forall_mem_append.mpr ⟨hbusy, fun e he => ?_⟩⟩
    rw [List.mem_singleton.mp he]
    rfl

theorem records_scheduleShadowValidation (readTimeoutMs : ℕ) :
    Records (serving settings) g (scheduleShadowValidation settings plan start readTimeoutMs)
      (fun t r => r = .ok () ∧ ∀ e ∈ t, isAdmission e = true) := by
  have hnone : Records (serving settings) g (return () : Async V X Unit)
      (fun t r => r = .ok () ∧ ∀ e ∈ t, isAdmission e = true) := ⟨[], by simp, rfl, by simp⟩
  unfold scheduleShadowValidation
  split
  · exact hnone
  · split
    · exact hnone
    · split
      · rw [Records, wp_recordError]
        exact ⟨[], by simp, rfl, by simp⟩
      · split
        · exact records_admitShadowValidation start henlist _ readTimeoutMs
        · exact hnone

end Admission

theorem wp_shadowStartedAtMs (plan : Plan)
    {Q : Except (Failure X) (Option ℚ) → Ghost V X → Prop}
    (hQ : ∀ startedAtMs, Q (.ok startedAtMs) g) :
    wp (recorder (serving settings)) (shadowStartedAtMs plan : Async V X (Option ℚ)) Q g := by
  unfold shadowStartedAtMs
  split
  · exact hQ none
  · split
    · exact hQ none
    · rw [wp_bind, wp_performanceNow]
      exact fun now => hQ (some now)

end DialCache.ChainTraces
