import DialCache.ChainTraces

/-!
# What the run of a key can do

The complete record of a run behind a process flight: a hit in the process-local store, a
fresh frame from Redis, or a call of the source, with what was read before it.
-/

namespace DialCache.RunTraces

open AsyncPrograms ThreadPool CacheKeys CacheOperations CacheRecorder RedisCache RuntimeConfig
open RedisTraces RefillTraces ShadowValidation CacheTraversal ServingGuard ChainTraces

variable {V X : Type} {settings : Settings X} {g : Ghost V X} {plan : Plan}

section Traces

variable (settings : Settings X) (plan : Plan)

/-- A run read Redis once, after at most a read of the process-local store. -/
def RemoteRead (pre : Log V X)
    (r : Except (Failure X) (RedisCacheGetResult V X)) : Prop :=
  ∃ redis config timeoutMs read l t, settings.redis = some redis ∧
    plan.remoteLayer.1 = .enabled config ∧ (∀ e ∈ l, isLocalGet e = true) ∧ pre = l ++ t ∧
    ReadTrace redis plan.key config timeoutMs read t r

/-- What a run did before it called the source. -/
def ReadBefore (pre : Log V X) : Prop :=
  (∀ e ∈ pre, isLocalGet e = true) ∨
    ∃ r, RemoteRead settings plan pre r ∧ ∀ value frame, r ≠ .ok (.hit value frame)

/-- A rejected source is covered by the frame that the run's own read retained. -/
def Recovers (pre : Log V X) (reason : Failure X) (t : Log V X)
    (value : V) : Prop :=
  ∃ redis frame config seconds u, settings.redis = some redis ∧
    RemoteRead settings plan pre (.ok (.retained (V := V) frame config)) ∧
    config.staleOnErrorMaxAgeSec = some seconds ∧
    t = did (.predicate reason) (.ok (.boolean true)) :: u ∧
    Recovered redis plan.key frame seconds u value

inductive RunTrace : Log V X → Except (Failure X) V → Prop where
  | stored {value : V} :
      RunTrace [did (.store (.get plan.key.urn)) (.ok (some value))] (.ok value)
  | fresh {pre post : Log V X} {value : V} {frame : ReplyObject X}
      (hread : RemoteRead settings plan pre (.ok (.hit value frame)))
      (hpost : ∀ e ∈ post, Stores plan.key value e ∨ isAdmission e = true) :
      RunTrace (pre ++ post) (.ok value)
  | source {pre t : Log V X} {r : Except (Failure X) V}
      (hpre : ReadBefore settings plan pre)
      (ht : SourceTrace plan (Recovers settings plan pre) t r) :
      RunTrace (pre ++ t) r

end Traces

variable {t : Log V X}

theorem SourceTrace.mono {recovers recovers' : Failure X → Log V X → V → Prop}
    {r : Except (Failure X) V} (h : SourceTrace plan recovers t r)
    (himp : ∀ reason u value, recovers reason u value → recovers' reason u value) :
    SourceTrace plan recovers' t r := by
  cases h with
  | settled admission hadmission ht => exact .settled admission hadmission ht
  | rejected admission hadmission hs ht => exact .rejected admission hadmission hs ht
  | recovered hs ht => exact .recovered hs (himp _ _ _ ht)

/-! ### The remote layer of a run -/

variable {G : Guard V X}

theorem wp_recordDisabled (key : DialCacheKey) (layer : CacheLayer) (reason : DisabledReason)
    (Q : Except (Failure X) Unit → Ghost V X → Prop) :
    wp (recorder G) (recordDisabled key layer reason) Q g ↔ Q (.ok ()) g := by
  unfold recordDisabled recordInvalidLeaf
  split <;> simp

theorem wp_recordPolicyFailure (key : DialCacheKey) (layer : CacheLayer) (level : LogLevel)
    (message : String) (reason : Failure X) (Q : Except (Failure X) Unit → Ghost V X → Prop) :
    wp (recorder G) (recordPolicyFailure key layer level message reason) Q g ↔ Q (.ok ()) g := by
  simp [recordPolicyFailure]

/-- Only a policy error lets a tracked key skip its local write. -/
def LayerLawful : RemoteLayer plan → Prop
  | .disabled reason skipCacheWrite _ =>
      reason = .configError → skipCacheWrite = plan.key.trackForInvalidation
  | _ => True

theorem wp_resolvedRemoteLayer {Q : Except (Failure X) (RemoteLayer plan) → Ghost V X → Prop}
    (hQ : ∀ layer, LayerLawful layer → Q (.ok layer) g) :
    wp (recorder G) (resolvedRemoteLayer plan) Q g := by
  unfold resolvedRemoteLayer
  split
  · exact hQ _ trivial
  · rw [wp_bind, wp_recordDisabled]
    exact hQ _ trivial
  · rename_i reason hremote
    rw [wp_bind, wp_recordDisabled]
    refine hQ _ fun hreason => absurd ?_
      (resolveRemoteLayerConfigResult_ne_configError plan.keyConfig plan.key.urn)
    rw [← hreason]
    exact hremote

theorem wp_resolveRemoteLayerConfig {Q : Except (Failure X) (RemoteLayer plan) → Ghost V X → Prop}
    (hQ : ∀ layer, LayerLawful layer → Q (.ok layer) g) :
    wp (recorder G) (resolveRemoteLayerConfig plan) Q g := by
  rw [resolveRemoteLayerConfig, wp_bind, wp_act]
  refine ⟨G.free _ _ rfl, fun resolved => ?_⟩
  rw [thenWp_ok]
  cases resolved with
  | error e =>
    rw [wp_bind, wp_recordPolicyFailure]
    exact hQ _ fun _ => rfl
  | ok _ =>
    rw [wp_bind, recordMalformedStalePolicy, wp_ite]
    simp only [wp_recordError, wp_pure, thenWp_ok]
    exact ⟨fun _ => wp_resolvedRemoteLayer hQ, fun _ => wp_resolvedRemoteLayer hQ⟩

/-- The outcome of a remote read as the chain sees it. -/
def remoteResult : Except (Failure X) (RedisCacheGetResult V X) → RemoteCacheGetResult V X
  | .ok result => .read result
  | .error _ => .error

theorem records_readRemoteWithResolvedConfig (redis : RedisSettings X) (key : DialCacheKey)
    (config : ResolvedRemoteLayerConfig) (timeoutMs : ℕ) :
    Records G g (readRemoteWithResolvedConfig redis key config timeoutMs : Async V X _)
      (fun t r => ∃ read result, ReadTrace redis key config timeoutMs read t result ∧
        r = .ok (remoteResult result)) := by
  rw [Records, readRemoteWithResolvedConfig, wp_tryCatch, wp_bind, wp_awaited]
  refine wp_of_records (records_getWithResolvedConfig redis key config timeoutMs) ?_
  rintro t r ⟨read, htrace⟩
  cases r with
  | ok result => exact ⟨t, rfl, read, _, htrace, rfl⟩
  | error e =>
    rw [thenWp_error, catchWp_error, wp_bind, wp_observe]
    exact ⟨t, rfl, read, _, htrace, rfl⟩

/-! ### Continuations with shadow work -/

theorem spawned_extend (labels : CacheMetricLabels) (thread : ℕ) (t : Log V X) :
    spawned (.fallback plan.toInvocation labels) thread ∈
      ((g.extend [spawned (.fallback plan.toInvocation labels) thread]).extend t).log := by
  simp [Ghost.extend]

variable {redis : RedisSettings X}

variable {config : ResolvedRemoteLayerConfig}

theorem records_finishRampedDownRemote {local_ : Option (CacheGetResult V)}
    (labels : CacheMetricLabels) (hplan : taskPlan g.task = some plan)
    (hredis : settings.redis = some redis) (hremote : plan.remoteLayer.1 = .rampedDown config)
    (hlocal : ∀ result, local_ = some result → PublishesLocally g plan result)
    (hlog : ∀ e ∈ g.log, isReadStart e = false) :
    Records (serving settings) g (finishRampedDownRemote settings redis plan local_ config labels)
      (SourceTrace plan fun _ _ _ => False) := by
  have hunread : Unread settings g plan := ⟨.inr (.inr ⟨config, hremote⟩), hlog⟩
  rw [Records, finishRampedDownRemote, wp_bind]
  refine wp_shadowStartedAtMs plan fun startedAtMs => ?_
  rw [thenWp_ok, wp_bind, wp_spawn]
  refine ⟨taskCall_of_taskPlan hplan, fun thread => ?_⟩
  rw [thenWp_ok, wp_bind]
  refine wp_of_records (records_scheduleShadowValidation
    (.redis thread config startedAtMs) (fun t work ht hwork hstart => ?_) _) ?_
  · subst hwork
    refine ⟨hplan, rfl, by rw [hredis]; rfl, ?_⟩
    rw [hstart]
    exact ⟨rfl, hremote, labels, spawned_extend labels thread t⟩
  rintro admission r ⟨rfl, hadmission⟩
  rw [thenWp_ok, wp_bind, wp_join]
  refine ⟨trivial, fun settlement => ?_⟩
  simp only [Ghost.extend_extend, List.cons_append]
  cases hs : Settlement.value? settlement with
  | error reason =>
    exact ⟨_, rfl, .rejected (t := []) admission hadmission hs (by simp)⟩
  | ok value =>
    obtain rfl := value?_eq_ok hs
    rw [thenWp_ok, wp_bind]
    have hput : Records (serving settings) (g.extend (spawned (.fallback plan.toInvocation labels)
        thread :: (admission ++ [joined thread (.ok (.value value))])))
        (putOptional plan.key value local_) (fun t r => r = .ok () ∧ ∀ e ∈ t, Stores plan.key value e)
        := by
      cases local_ with
      | none => exact ⟨[], by simp, rfl, by simp⟩
      | some result =>
        refine records_putOnMiss fun config hmiss => ?_
        refine putAuthority_source (hlocal result rfl) hmiss ?_
          fun _ => hunread.joined labels thread _ hadmission
        exact ⟨labels, thread, by simp [Ghost.extend], by simp [Ghost.extend]⟩
    refine wp_of_records hput ?_
    rintro t r ⟨rfl, ht⟩
    rw [thenWp_ok, wp_pure, Ghost.extend_extend]
    refine ⟨_, rfl, ?_⟩
    rw [List.cons_append, List.append_assoc, List.singleton_append]
    exact .settled admission hadmission fun e he => .inr (ht e he)

variable {pre : Log V X}

variable {value : V} {frame : ReplyObject X}

theorem RemoteRead.freshDecode (h : RemoteRead settings plan pre (.ok (.hit value frame))) :
    FreshDecode settings plan pre value := by
  obtain ⟨redis, config, timeoutMs, read, l, t, hredis, hremote, -, rfl, htrace⟩ := h
  exact ⟨redis, config, timeoutMs, read, t, frame, hredis, hremote, htrace,
    (List.suffix_append l t).isInfix⟩

variable {local_ : CacheGetResult V}

theorem records_finishHit (hplan : taskPlan g.task = some plan)
    (hredis : settings.redis = some redis) (hlocal : PublishesLocally g plan local_)
    (hread : RemoteRead settings plan g.log (.ok (.hit value frame))) :
    Records (serving settings) g (finishHit settings redis plan local_ value frame)
      (fun t r => RunTrace settings plan (g.log ++ t) r) := by
  rw [Records, finishHit, wp_bind]
  refine wp_of_records (records_putOnMiss fun config hmiss => ?_) ?_
  · obtain ⟨resolved, htask⟩ := hlocal config hmiss
    exact ⟨plan, resolved, htask, rfl, .inl hread.freshDecode⟩
  rintro t r ⟨rfl, ht⟩
  rw [thenWp_ok, wp_bind]
  refine wp_of_records (records_scheduleShadowValidation (.retained frame)
    (fun u work _ hwork hstart => ?_) _) ?_
  · subst hwork
    refine ⟨hplan, rfl, by rw [hredis]; rfl, ?_⟩
    rw [hstart]
    exact rfl
  rintro u r ⟨rfl, hu⟩
  rw [thenWp_ok, wp_pure, Ghost.extend_extend]
  exact ⟨_, rfl, .fresh hread (List.forall_mem_append.mpr
    ⟨fun e he => .inl (ht e he), fun e he => .inr (hu e he)⟩)⟩

/-! ### The chain of a run -/

theorem RemoteRead.readBefore
    (h : RemoteRead settings plan pre (.ok (.retained (V := V) frame config))) :
    ReadBefore settings plan pre :=
  .inr ⟨_, h, by simp⟩

theorem records_finishAfterRead {result : Except (Failure X) (RedisCacheGetResult V X)}
    (hrun : runPlan g.task = some plan) (hredis : settings.redis = some redis)
    (hlocal : PublishesLocally g plan local_) (hread : RemoteRead settings plan g.log result) :
    Records (serving settings) g (finishRedisChain settings redis plan local_ (remoteResult result))
      (fun t r => RunTrace settings plan (g.log ++ t) r) := by
  have hplan := taskPlan_of_runPlan hrun
  rcases result with e | ⟨value, frame⟩ | ⟨frame, config⟩ | ⟨config, reason, watermark⟩
  · refine (records_finishReadError hplan hlocal).mono fun t r ht => ?_
    exact .source (.inr ⟨_, hread, by simp⟩) (SourceTrace.mono ht fun _ _ _ h => h.elim)
  · exact records_finishHit hplan hredis hlocal hread
  · refine (records_finishWithSource redis hrun hlocal fun tracked hsuppress => ?_).mono
      fun t r ht => ?_
    · simp [suppressLocalWrite, retainedOutcome, tracked] at hsuppress
    · refine .source hread.readBefore (SourceTrace.mono ht ?_)
      rintro _ _ _ ⟨seconds, retained, u, hseconds, hretained, rfl, hrecovered⟩
      cases hretained
      exact ⟨redis, frame, config, seconds, u, hredis, hread, hseconds, rfl, hrecovered⟩
  · refine (records_finishWithSource redis hrun hlocal fun tracked hsuppress => ?_).mono
      fun t r ht => ?_
    · simp [suppressLocalWrite, missOutcome, tracked] at hsuppress
    · refine .source (.inr ⟨_, hread, by simp⟩) (SourceTrace.mono ht ?_)
      rintro _ _ _ ⟨seconds, retained, u, -, hretained, -, -⟩
      cases hretained

theorem records_finishDisabled (redis : RedisSettings X) {reason : DisabledReason}
    {skipCacheWrite : Bool} (hrun : runPlan g.task = some plan)
    (hlocal : PublishesLocally g plan local_) (hlog : ∀ e ∈ g.log, isReadStart e = false)
    (hlayer : reason ≠ .configError → plan.remoteLayer.1 = .disabled reason)
    (hlawful : reason = .configError → skipCacheWrite = plan.key.trackForInvalidation) :
    Records (serving settings) g
      (finishRedisChain settings redis plan local_ (.disabled reason skipCacheWrite))
      (SourceTrace plan fun _ _ _ => False) := by
  refine (records_finishWithSource redis hrun hlocal fun tracked hsuppress => ?_).mono
    fun t r ht => SourceTrace.mono ht ?_
  · have hskip : skipCacheWrite = false := by
      simpa [suppressLocalWrite, disabledOutcome] using hsuppress
    have hne : reason ≠ .configError := by
      intro hreason
      have htracked := hlawful hreason
      rw [hskip, tracked] at htracked
      cases htracked
    exact ⟨.inr (.inl ⟨reason, hne, hlayer hne⟩), hlog⟩
  · rintro _ _ _ ⟨seconds, retained, u, -, hretained, -, -⟩
    cases hretained

variable {e : CacheEvent V X}

theorem isReadStart_of_isLocalGet (h : isLocalGet e = true) : isReadStart e = false := by
  unfold isReadStart
  split
  · rename_i hop
    simp [isLocalGet, hop] at h
  · rfl

theorem records_continueRemote (hrun : runPlan g.task = some plan)
    (hlocal : PublishesLocally g plan local_) (hlog : ∀ e ∈ g.log, isLocalGet e = true) :
    Records (serving settings) g (continueRemote settings plan local_)
      (fun t r => RunTrace settings plan (g.log ++ t) r) := by
  have hplan := taskPlan_of_runPlan hrun
  have hunread : ∀ e ∈ g.log, isReadStart e = false := fun e he =>
    isReadStart_of_isLocalGet (hlog e he)
  have hsource : ∀ t r, SourceTrace plan (fun _ _ _ => False) t r →
      RunTrace settings plan (g.log ++ t) r := fun t r ht =>
    .source (.inl hlog) (SourceTrace.mono ht fun _ _ _ h => h.elim)
  unfold continueRemote
  cases hredis : settings.redis with
  | none =>
    rw [Records, wp_awaited]
    exact (records_finishLocalOnly hplan hlocal ⟨.inl hredis, hunread⟩).mono hsource
  | some redis =>
    rw [Records, wp_bind, wp_awaited]
    refine wp_resolveRemoteLayerConfig fun layer hlayer => ?_
    rw [thenWp_ok]
    cases layer with
    | rampedDown config hremote =>
      rw [wp_awaited]
      refine (records_finishRampedDownRemote _ hplan hredis hremote ?_ hunread).mono hsource
      rintro result hresult
      cases hresult
      exact hlocal
    | disabled reason skipCacheWrite hremote =>
      rw [wp_awaited]
      exact (records_finishDisabled redis hrun hlocal hunread hremote hlayer).mono hsource
    | enabled config hremote =>
      rw [wp_bind, wp_awaited]
      refine wp_of_records (records_readRemoteWithResolvedConfig redis plan.key config _) ?_
      rintro t r ⟨read, result, htrace, rfl⟩
      rw [thenWp_ok, wp_awaited]
      refine wp_of_records (records_finishAfterRead (g := g.extend t) hrun hredis hlocal
        ⟨redis, config, _, read, g.log, t, hredis, hremote, hlog, rfl, htrace⟩) ?_
      intro u r hu
      rw [Ghost.extend_extend]
      refine ⟨_, rfl, ?_⟩
      rw [← List.append_assoc]
      exact hu

theorem records_readLocal (key : DialCacheKey) (config : ResolvedLayerConfig) :
    Records G g (readLocalWithResolvedConfig key config : Async V X _) (fun t r =>
      ∃ answer, t = [did (.store (.get key.urn)) answer] ∧
        ((∃ value, answer = .ok (some value) ∧ r = .ok (.hit value)) ∨
          ∃ result, r = .ok result ∧ ∀ value, result ≠ .hit value)) := by
  rw [Records, readLocalWithResolvedConfig, wp_bind, wp_performanceNow]
  intro start
  rw [thenWp_ok, wp_bind]
  refine (wp_act_recorded rfl _).mpr ⟨G.free _ _ rfl, fun answer => ?_⟩
  rw [thenWp_ok]
  rcases answer with e | _ | value
  · simp only [wp_bind, wp_observe, wp_recordError, thenWp_ok, wp_pure]
    exact ⟨_, rfl, _, rfl, .inr ⟨_, rfl, by simp⟩⟩
  · simp only [recordLocalRead, wp_bind, wp_observe, wp_elapsedSeconds, thenWp_ok, wp_pure]
    exact fun _ => ⟨_, rfl, _, rfl, .inr ⟨_, rfl, by simp⟩⟩
  · simp only [recordLocalRead, wp_bind, wp_observe, wp_elapsedSeconds, thenWp_ok, wp_pure]
    exact fun _ => ⟨_, rfl, _, rfl, .inl ⟨value, rfl, rfl⟩⟩

/-- The run of a flight with an active local layer. -/
theorem records_getThroughActiveLocal (plan : Plan) (config : ResolvedLayerConfig) :
    Records (serving settings) ⟨.localRun plan config, []⟩
      (getThroughActiveLocal settings plan config : Async V X V) (RunTrace settings plan) := by
  rw [Records, getThroughActiveLocal, wp_bind]
  refine wp_of_records (records_readLocal plan.key config) ?_
  rintro t r ⟨answer, rfl, ⟨value, rfl, rfl⟩ | ⟨result, rfl, hmiss⟩⟩
  · exact ⟨_, rfl, .stored⟩
  · rw [thenWp_ok]
    have hcontinue : Records (serving settings)
        (Ghost.extend ⟨.localRun plan config, []⟩ [did (.store (.get plan.key.urn)) answer])
        (continueRemote settings plan result) (fun t r =>
          RunTrace settings plan (did (.store (.get plan.key.urn)) answer :: t) r) := by
      refine records_continueRemote rfl (fun _ _ => ⟨config, rfl⟩) fun e he => ?_
      rw [List.mem_singleton.mp he]
      rfl
    cases result with
    | hit value => exact absurd rfl (hmiss value)
    | miss _ | disabled _ =>
      exact wp_of_records hcontinue fun t r ht => ⟨_, Ghost.extend_extend _ _ _, ht⟩

/-- The run of a remote-only flight. -/
theorem records_getThroughRemote (hredis : settings.redis = some redis) (plan : Plan)
    (localReason : DisabledReason) (config : ResolvedRemoteLayerConfig)
    (enabled : plan.remoteLayer.1 = .enabled config) :
    Records (serving settings) ⟨.remoteRun plan localReason config enabled, []⟩
      (getThroughRemote settings redis plan localReason config : Async V X V)
      (RunTrace settings plan) := by
  rw [Records, getThroughRemote, wp_bind, wp_awaited]
  refine wp_of_records (records_readRemoteWithResolvedConfig redis plan.key config _) ?_
  rintro t r ⟨read, result, htrace, rfl⟩
  rw [thenWp_ok, wp_awaited]
  refine wp_of_records (records_finishAfterRead
    (g := Ghost.extend ⟨.remoteRun plan localReason config enabled, []⟩ t) rfl hredis
    (fun _ hmiss => by cases hmiss)
    ⟨redis, config, _, read, [], t, hredis, enabled, by simp, rfl, htrace⟩) ?_
  intro u r hu
  exact ⟨_, Ghost.extend_extend _ _ _, hu⟩

/-! ### What a run joins -/

def join? : CacheEvent V X → Option (ℕ × Except (Failure X) (Settlement V))
  | ⟨.join thread, settlement⟩ => some (thread, settlement)
  | _ => none

/-- The threads that were awaited, with their settlements. -/
def joins (log : Log V X) : List (ℕ × Except (Failure X) (Settlement V)) :=
  log.filterMap join?

@[simp] theorem joins_append (s t : Log V X) : joins (s ++ t) = joins s ++ joins t :=
  List.filterMap_append

@[simp] theorem joins_joined (thread : ℕ) (settlement : Except (Failure X) (Settlement V))
    (t : Log V X) :
    joins (joined thread settlement :: t) = (thread, settlement) :: joins t := rfl

@[simp] theorem joins_spawned (task : CacheTask V) (thread : ℕ) (t : Log V X) :
    joins (spawned task thread :: t) = joins t := rfl

@[simp] theorem joins_did (op : CacheOp V X) (answer : op.Answer) (t : Log V X) :
    joins (did op answer :: t) = joins t := rfl

theorem mem_joins {thread : ℕ} {settlement : Except (Failure X) (Settlement V)}
    {log : Log V X} :
    (thread, settlement) ∈ joins log ↔ joined thread settlement ∈ log := by
  rw [joins, List.mem_filterMap]
  constructor
  · rintro ⟨⟨op, answer⟩, he, hjoin⟩
    cases op with
    | join _ =>
      cases hjoin
      exact he
    | act _ => cases hjoin
    | spawn _ => cases hjoin
  · exact fun h => ⟨_, h, rfl⟩

/-- An operation of the instance. -/
def isAct (e : CacheEvent V X) : Bool :=
  match e.op with
  | .act _ => true
  | _ => false

theorem isAct_of {p : CacheEvent V X → Bool}
    (hspawned : ∀ task thread, p (spawned task thread) = false)
    (hjoined : ∀ thread settlement, p (joined thread settlement) = false) (h : p e = true) :
    isAct e = true := by
  obtain ⟨op, answer⟩ := e
  cases op with
  | act op => rfl
  | spawn task => cases (hspawned task answer).symm.trans h
  | join thread => cases (hjoined thread answer).symm.trans h

theorem joins_of_isAct (h : ∀ e ∈ t, isAct e = true) : joins t = [] := by
  refine List.filterMap_eq_nil_iff.mpr ?_
  rintro ⟨op, answer⟩ he
  cases op with
  | act op => rfl
  | spawn task => rfl
  | join thread => cases h _ he

theorem joins_localGet (h : ∀ e ∈ t, isLocalGet e = true) : joins t = [] :=
  joins_of_isAct fun e he => isAct_of (fun _ _ => rfl) (fun _ _ => rfl) (h e he)

theorem joins_admission (h : ∀ e ∈ t, isAdmission e = true) : joins t = [] :=
  joins_of_isAct fun e he => isAct_of (fun _ _ => rfl) (fun _ _ => rfl) (h e he)

theorem joins_recovery (h : ∀ e ∈ t, isRecoveryEvent e = true) : joins t = [] :=
  joins_of_isAct fun e he => isAct_of (fun _ _ => rfl) (fun _ _ => rfl) (h e he)

variable {key : DialCacheKey}

theorem isAct_of_stores (h : Stores key value e) : isAct e = true := by
  obtain ⟨ttlMs, stored, rfl⟩ := h
  rfl

theorem joins_publishes (h : ∀ e ∈ t, Publishes key value e) : joins t = [] := by
  refine joins_of_isAct fun e he => ?_
  rcases h e he with hrefill | hstores
  · exact isAct_of (fun _ _ => rfl) (fun _ _ => rfl) hrefill
  · exact isAct_of_stores hstores

theorem ReadTrace.joins_eq {timeoutMs read : ℕ} {r : Except (Failure X) (RedisCacheGetResult V X)}
    (h : ReadTrace redis key config timeoutMs read t r) : joins t = [] := by
  obtain ⟨settled, rest, rfl, hrest⟩ := h.split
  rw [joins_append]
  exact joins_of_isAct fun e he => isAct_of (fun _ _ => rfl) (fun _ _ => rfl) (hrest e he)

theorem RemoteRead.joins_eq {r : Except (Failure X) (RedisCacheGetResult V X)}
    (h : RemoteRead settings plan pre r) : joins pre = [] := by
  obtain ⟨redis, config, timeoutMs, read, l, t, -, -, hl, rfl, htrace⟩ := h
  rw [joins_append, joins_localGet hl, ReadTrace.joins_eq htrace]
  rfl

theorem ReadBefore.joins_eq (h : ReadBefore settings plan pre) : joins pre = [] := by
  rcases h with hlocal | ⟨r, hread, -⟩
  · exact joins_localGet hlocal
  · exact hread.joins_eq

/-- A run whose source rejected served the frame that its own read had retained. -/
def RecoveredRun (settings : Settings X) (plan : Plan) (reason : Failure X)
    (log : Log V X) (value : V) : Prop :=
  ∃ pre labels thread settlement t, log = pre ++ (spawned (.fallback plan.toInvocation labels) thread
      :: joined thread settlement :: t) ∧
    Settlement.value? settlement = .error reason ∧ Recovers settings plan pre reason t value

/-- Where the settlement of a run comes from. -/
inductive RunOutcome (settings : Settings X) (plan : Plan) (log : Log V X) :
    Except (Failure X) V → Prop where
  | stored {value : V} (hget : did (.store (.get plan.key.urn)) (.ok (some value)) ∈ log)
      (hjoins : joins log = []) : RunOutcome settings plan log (.ok value)
  | fresh {value : V} (hfresh : FreshDecode settings plan log value) (hjoins : joins log = []) :
      RunOutcome settings plan log (.ok value)
  | source (labels : CacheMetricLabels) (thread : ℕ)
      (settlement : Except (Failure X) (Settlement V))
      (hspawned : spawned (.fallback plan.toInvocation labels) thread ∈ log)
      (hjoins : joins log = [(thread, settlement)]) :
      RunOutcome settings plan log (Settlement.value? settlement)
  | recovered (labels : CacheMetricLabels) (thread : ℕ)
      (settlement : Except (Failure X) (Settlement V)) {reason : Failure X} {value : V}
      (hspawned : spawned (.fallback plan.toInvocation labels) thread ∈ log)
      (hjoins : joins log = [(thread, settlement)])
      (hs : Settlement.value? settlement = .error reason)
      (hrecovered : RecoveredRun settings plan reason log value) :
      RunOutcome settings plan log (.ok value)

theorem RunTrace.outcome {log : Log V X} {r : Except (Failure X) V}
    (h : RunTrace settings plan log r) : RunOutcome settings plan log r := by
  cases h with
  | stored => exact .stored (List.mem_singleton_self _) rfl
  | fresh hread hpost =>
    refine .fresh (hread.freshDecode.append _) ?_
    rw [joins_append, hread.joins_eq, List.nil_append]
    refine joins_of_isAct fun e he => ?_
    rcases hpost e he with hstores | hadmission
    · exact isAct_of_stores hstores
    · exact isAct_of (fun _ _ => rfl) (fun _ _ => rfl) hadmission
  | source hpre ht =>
    have hpre' := hpre.joins_eq
    cases ht with
    | @settled labels thread value t admission hadmission hpublishes =>
      refine .source labels thread (.ok (.value value)) (by simp) ?_
      simp [hpre', joins_admission hadmission, joins_publishes hpublishes]
    | @rejected labels thread settlement reason t admission hadmission hs hrecovery =>
      rw [← hs]
      refine .source labels thread settlement (by simp) ?_
      simp [hpre', joins_admission hadmission, joins_recovery hrecovery]
    | @recovered labels thread settlement reason value t hs hrecovers =>
      refine .recovered labels thread settlement (by simp) ?_ hs
        ⟨_, labels, thread, settlement, t, rfl, hs, hrecovers⟩
      obtain ⟨redis, frame, config, seconds, u, -, -, -, rfl, hrecovered⟩ := hrecovers
      have hu := joins_recovery (isRecoveryEvent_cons reason (.ok (.boolean true))
        hrecovered.isDecodeEvent)
      simpa [hpre'] using hu

end DialCache.RunTraces
