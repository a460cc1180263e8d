import DialCache.CacheInstance
import DialCache.RefillFence
import DialCache.RunTraces

/-!
# The ages at which a frame may serve

A frame serves fresh below its lifetime, is retained for recovery below its maximum age,
and covers a rejected source only if two further samples around its decoding still find it
below that age. The wall clock may jump in either direction between any two samples.
-/

namespace DialCache.AgeLaw

open AsyncPrograms ThreadPool CacheKeys CacheOperations CacheRecorder RedisCache RuntimeConfig
open JsValues RedisTraces ShadowValidation CacheTraversal CacheInstance ServingGuard ChainTraces
open RunTraces RefillFence

variable {V X : Type}

/-- Every read of `createdAtMs` gives one and the same stamp. -/
def ReadsAsOne (frame : ReplyObject X) : Prop := ∃ stamp, ∀ n, frame.createdAtMs n = .ok stamp

/-- The stamps of all objects that the reads of a run were answered with read as one. -/
def StampsReadAsOne (events : Log V X) : Prop :=
  ∀ read frame, did (.read (.settled read)) (.ok (.object frame)) ∈ events → ReadsAsOne frame

/-- The stamp of the frame is a timestamp whose age at `now` is in `[low, high)`. -/
def Aged (frame : ReplyObject X) (now : ℤ) (low high : ℕ) : Prop :=
  ∃ (stamp : Stamp X) (createdAtMs : ℕ), (∀ n, frame.createdAtMs n = .ok stamp) ∧
    stamp.value = .number (.ofInt createdAtMs) ∧ createdAtMs ≤ JsNumber.maxSafeInteger ∧
    (low : ℤ) ≤ now - createdAtMs ∧ now - createdAtMs < high

variable {events : Log V X}

section Stamps

variable {frame : ReplyObject X}

theorem eq_of_reads {stamp stamp' : Stamp X} (h : ∀ n, frame.createdAtMs n = .ok stamp)
    (h' : Reads frame stamp') : stamp' = stamp := by
  obtain ⟨n, hn⟩ := h'
  exact Except.ok.inj (hn.symm.trans (h n))

theorem ReadsAsOne.not_throws (hone : ReadsAsOne frame) {x : X} : ¬ ReadThrows frame x := by
  obtain ⟨stamp, hstamp⟩ := hone
  rintro (⟨n, hn⟩ | ⟨⟨s, c, hs, hc⟩, s', hs', hx⟩)
  · cases hn.symm.trans (hstamp n)
  · rw [eq_of_reads hstamp hs] at hc
    rw [eq_of_reads hstamp hs', stamp.numeric_natural c hc] at hx
    cases hx

theorem isAtLeast_subtractFrom (now : ℤ) (c low : ℕ) :
    (JsNumber.subtractFrom now (.ofInt c)).isAtLeast low = true ↔ (low : ℤ) ≤ now - c := by
  simp only [JsNumber.subtractFrom, JsNumber.ofInt, JsNumber.isAtLeast, decide_eq_true_eq]
  exact_mod_cast Iff.rfl

/-- The age that `frameAge` finds in a frame with one stamp. -/
theorem ReadsAsOne.aged (hone : ReadsAsOne frame) {t : Log V X} {ageMs : JsNumber}
    (h : AgeTrace frame t (.ok (.valid ageMs))) {high : ℕ} (hhigh : ¬ ageMs.isAtLeast high = true) :
    ∃ now, t = [did .dateNow now] ∧ Aged frame now 0 high ∧
      ∀ low : ℕ, ageMs.isAtLeast low = true → Aged frame now low high := by
  obtain ⟨stamp, hstamp⟩ := hone
  cases h with
  | @valid x y now timestamp hx passed hy =>
    obtain ⟨s, c, hs, hc⟩ := timestamp
    rw [eq_of_reads hstamp hs] at hc
    obtain ⟨hvalue, hle⟩ := JsValue.eq_of_natural? hc
    have hnumber : ∀ z, ReadsNumber frame z → z = .ofInt c := by
      rintro z ⟨s', hs', hz⟩
      rw [eq_of_reads hstamp hs', stamp.numeric_natural c hc] at hz
      exact (Except.ok.inj hz).symm
    rw [hnumber y hy, isAtLeast_subtractFrom, not_le] at hhigh
    have hpassed : (c : ℤ) ≤ now := by
      rw [hnumber x hx] at passed
      simp only [JsNumber.isAbove, JsNumber.ofInt, decide_eq_true_eq, not_lt] at passed
      exact_mod_cast passed
    refine ⟨now, rfl, ⟨stamp, c, hstamp, hvalue, hle, by simpa using hpassed, hhigh⟩, ?_⟩
    intro low hlow
    rw [hnumber y hy, isAtLeast_subtractFrom] at hlow
    exact ⟨stamp, c, hstamp, hvalue, hle, hlow, hhigh⟩

theorem reply_of_validate {key : DialCacheKey} {reply : Reply X}
    (h : validateReadResult key reply = .frame frame) : reply = .object frame := by
  cases reply with
  | nonObject => cases h
  | object members =>
    simp only [validateReadResult] at h
    split at h
    · cases h
    · split at h
      · split at h <;> cases h
      · cases h
        rfl

theorem StampsReadAsOne.mono {s t : Log V X} (h : StampsReadAsOne t) (hst : s ⊆ t) :
    StampsReadAsOne s :=
  fun read frame hmem => h read frame (hst hmem)

theorem StampsReadAsOne.record (h : StampsReadAsOne events) : StampsReadAsOne (record events) :=
  fun read frame hmem => h read frame ((mem_record rfl).mp hmem)

theorem StampsReadAsOne.reply {key : DialCacheKey} {timeoutMs read : ℕ} {reply : Reply X}
    {rest : Log V X}
    (h : StampsReadAsOne (readEvents key timeoutMs read (.ok reply) ++ rest))
    (hframe : validateReadResult key reply = .frame frame) : ReadsAsOne frame := by
  rw [reply_of_validate hframe] at h
  exact h read frame (by simp [readEvents])

end Stamps

section Read

variable (redis : RedisSettings X) (key : DialCacheKey) (config : ResolvedRemoteLayerConfig)
  (timeoutMs : ℕ)

/-- What the outcome of a serving read says about the one sample taken after it settled. -/
structure ReadLaw (events : Log V X)
    (r : Except (Failure X) (RedisCacheGetResult V X)) : Prop where
  hit : ∀ value frame, r = .ok (.hit value frame) → ∃ read reply now payload,
    record events = readEvents key timeoutMs read (.ok reply) ++
      [did .dateNow now, loadEvent redis key payload (.ok value)] ∧
    validateReadResult key reply = .frame frame ∧ frame.payload = .ok payload ∧
    Aged frame now 0 (cacheTtlSecToMs config.ttlSec)
  retained : ∀ frame retainedConfig, r = .ok (.retained frame retainedConfig) →
    retainedConfig = config ∧ ∃ maxAge read reply now, config.staleOnErrorMaxAgeSec = some maxAge ∧
      record events = readEvents key timeoutMs read (.ok reply) ++ [did .dateNow now] ∧
      validateReadResult key reply = .frame frame ∧
      Aged frame now (cacheTtlSecToMs config.ttlSec) (cacheTtlSecToMs maxAge)
  otherwise : ∀ read reply frame, did (.read (.settled read)) (.ok reply) ∈ events →
    validateReadResult key reply = .frame frame →
    (∃ value, r = .ok (.hit value frame)) ∨ r = .ok (.retained frame config) ∨
      ∃ reason, r = .ok (.miss config reason none)

end Read

section ReadProof

variable {redis : RedisSettings X} {key : DialCacheKey} {config : ResolvedRemoteLayerConfig}
  {timeoutMs read : ℕ} {t : Log V X}

theorem maxAge_of_retained {ageMs : JsNumber}
    (stale : ageMs.isAtLeast (cacheTtlSecToMs config.ttlSec) = true)
    (below : ¬ ageMs.isAtLeast (maximumAgeMs config) = true) :
    ∃ maxAge, config.staleOnErrorMaxAgeSec = some maxAge ∧
      maximumAgeMs config = cacheTtlSecToMs maxAge := by
  unfold maximumAgeMs at below ⊢
  cases hmax : config.staleOnErrorMaxAgeSec with
  | none =>
    rw [hmax, Option.getD_none] at below
    exact absurd stale below
  | some maxAge => exact ⟨maxAge, rfl, rfl⟩

variable {frame : ReplyObject X}

theorem hit_of_readTrace (hone : StampsReadAsOne t) {value : V}
    (h : ReadTrace redis key config timeoutMs read t (.ok (.hit value frame))) :
    ∃ reply now payload, t = readEvents key timeoutMs read (.ok reply) ++
        [did .dateNow now, loadEvent redis key payload (.ok value)] ∧
      validateReadResult key reply = .frame frame ∧ frame.payload = .ok payload ∧
      Aged frame now 0 (cacheTtlSecToMs config.ttlSec) := by
  cases h with
  | @fresh reply _ _ _ _ _ hreply age below decode =>
    cases decode with
    | @decoded payload _ hpayload =>
      obtain ⟨now, rfl, haged, -⟩ := (hone.reply hreply).aged age below
      exact ⟨reply, now, payload, rfl, hreply, hpayload, haged⟩

theorem retained_of_readTrace (hone : StampsReadAsOne t)
    {retainedConfig : ResolvedRemoteLayerConfig}
    (h : ReadTrace redis key config timeoutMs read t (.ok (.retained (V := V) frame retainedConfig))) :
    retainedConfig = config ∧ ∃ maxAge reply now, config.staleOnErrorMaxAgeSec = some maxAge ∧
      t = readEvents key timeoutMs read (.ok reply) ++ [did .dateNow now] ∧
      validateReadResult key reply = .frame frame ∧
      Aged frame now (cacheTtlSecToMs config.ttlSec) (cacheTtlSecToMs maxAge) := by
  cases h with
  | @retained reply _ _ _ hreply age stale below =>
    obtain ⟨maxAge, hmax, hmaximum⟩ := maxAge_of_retained stale below
    rw [hmaximum] at below
    obtain ⟨now, rfl, -, haged⟩ := (hone.reply hreply).aged age below
    exact ⟨rfl, maxAge, reply, now, hmax, rfl, hreply, haged _ stale⟩
  | fresh _ _ _ decode => cases decode

theorem settled_of_mem {settled : Except (Failure X) (Reply X)} {read' : ℕ} {reply : Reply X}
    {rest : Log V X} (hrest : ∀ e ∈ rest, isDecodeEvent e = true)
    (hmem : did (.read (.settled read')) (.ok reply) ∈ readEvents key timeoutMs read settled ++ rest) :
    settled = .ok reply := by
  simp only [readEvents, List.mem_append, List.mem_cons, List.not_mem_nil, or_false] at hmem
  rcases hmem with (h | h) | h
  · cases h
  · cases h
    rfl
  · cases hrest _ h

/-- What a read returns for a frame with one stamp that it was answered with. -/
theorem outcome_of_readTrace {r : Except (Failure X) (RedisCacheGetResult V X)}
    (hone : StampsReadAsOne t) (h : ReadTrace redis key config timeoutMs read t r) {read' : ℕ}
    {reply : Reply X} (hmem : did (.read (.settled read')) (.ok reply) ∈ t)
    (hframe : validateReadResult key reply = .frame frame) :
    (∃ value, r = .ok (.hit value frame)) ∨ r = .ok (.retained frame config) ∨
      ∃ reason, r = .ok (.miss config reason none) := by
  have hnone : ∀ {settled : Except (Failure X) (Reply X)},
      did (.read (.settled read')) (.ok reply) ∈ readEvents (V := V) key timeoutMs read settled →
      settled = .ok reply :=
    fun hmem => settled_of_mem (List.forall_mem_nil _) (List.mem_append_left [] hmem)
  have hsame : ∀ {reply' : Reply X} {frame' : ReplyObject X}, Except.ok reply' =
      (Except.ok reply : Except (Failure X) _) →
      validateReadResult key reply' = .frame frame' → frame' = frame := by
    rintro reply' frame' ⟨⟩ h'
    rw [hframe] at h'
    cases h'
    rfl
  cases h with
  | failed => cases hnone hmem
  | missed hmiss =>
    cases hnone hmem
    rw [hframe] at hmiss
    cases hmiss
  | unreadable hreply age =>
    cases age with
    | threw hthrows _ => exact absurd hthrows (hone.reply hreply).not_throws
  | rejected _ _ _ => exact .inr (.inr ⟨_, rfl⟩)
  | retained hreply age _ _ =>
    obtain rfl := hsame (settled_of_mem age.isDecodeEvent hmem) hreply
    exact .inr (.inl rfl)
  | fresh hreply age _ decode =>
    obtain rfl := hsame (settled_of_mem
      (List.forall_mem_append.mpr ⟨age.isDecodeEvent, decode.isDecodeEvent⟩) hmem) hreply
    cases decode with
    | unreadable _ | undecodable _ => exact .inr (.inr ⟨_, rfl⟩)
    | decoded _ => exact .inl ⟨_, rfl⟩

theorem readLaw_of_runs {r : Except (Failure X) (RedisCacheGetResult V X)}
    (hr : Runs (getWithResolvedConfig redis key config timeoutMs) events r)
    (hone : StampsReadAsOne events) : ReadLaw redis key config timeoutMs events r := by
  obtain ⟨read, htrace⟩ :=
    record_of_runs (fun _ => records_getWithResolvedConfig redis key config timeoutMs) hr
  refine ⟨?_, ?_, fun read' reply frame hmem hframe => ?_⟩
  · rintro value frame rfl
    exact ⟨read, hit_of_readTrace hone.record htrace⟩
  · rintro frame retainedConfig rfl
    obtain ⟨hconfig, maxAge, reply, now, hmax, hrest⟩ := retained_of_readTrace hone.record htrace
    exact ⟨hconfig, maxAge, read, reply, now, hmax, hrest⟩
  · exact outcome_of_readTrace hone.record htrace ((mem_record rfl).mpr hmem) hframe

end ReadProof

/-- A rejected source covered by a retained frame: recovery was configured, the run's own
read had retained the frame, the predicate returned `true`, and the age was checked before
and after decoding. -/
def RecoveryLaw (settings : Settings X) (plan : Plan) (reason : Failure X)
    (events : Log V X) (value : V) : Prop :=
  ∃ redis config maxAge timeoutMs read reply frame payload before labels thread settlement,
    ∃ (sample decoding decoded : ℤ),
    settings.redis = some redis ∧ plan.remoteLayer.1 = .enabled config ∧
    config.staleOnErrorMaxAgeSec = some maxAge ∧ (∀ e ∈ before, isLocalGet e = true) ∧
    record events = before ++ readEvents plan.key timeoutMs read (.ok reply) ++
      [did .dateNow sample, spawned (.fallback plan.toInvocation labels) thread,
        joined thread settlement, did (.predicate reason) (.ok (.boolean true)),
        did .dateNow decoding, loadEvent redis plan.key payload (.ok value),
        did .dateNow decoded] ∧
    Settlement.value? settlement = .error reason ∧
    validateReadResult plan.key reply = .frame frame ∧ frame.payload = .ok payload ∧
    Aged frame sample (cacheTtlSecToMs config.ttlSec) (cacheTtlSecToMs maxAge) ∧
    Aged frame decoding 0 (cacheTtlSecToMs maxAge) ∧ Aged frame decoded 0 (cacheTtlSecToMs maxAge)

variable {settings : Settings X} {plan : Plan}

theorem recoveryLaw_of_recoveredRun {reason : Failure X} {value : V} (hone : StampsReadAsOne events)
    (h : RecoveredRun settings plan reason (record events) value) :
    RecoveryLaw settings plan reason events value := by
  obtain ⟨pre, labels, thread, settlement, t, hlog, hs, redis, frame, config, seconds, u, hredis,
    hread, hseconds, rfl, payload, before, after, t₁, t₂, hpayload, rfl, hbefore, hafter, h₁, h₂⟩ := h
  obtain ⟨redis', config', timeoutMs, read, l, rt, hredis', hremote, hl, rfl, htrace⟩ := hread
  cases hredis.symm.trans hredis'
  have hrt : StampsReadAsOne rt := hone.record.mono (by simp [hlog])
  obtain ⟨rfl, maxAge, reply, sample, hmax, rfl, hframe, haged⟩ := retained_of_readTrace hrt htrace
  cases hseconds.symm.trans hmax
  obtain ⟨decoding, rfl, hdecoding, -⟩ := (hrt.reply hframe).aged hbefore h₁
  obtain ⟨decoded, rfl, hdecoded, -⟩ := (hrt.reply hframe).aged hafter h₂
  refine ⟨redis, config, seconds, timeoutMs, read, reply, frame, payload, l, labels, thread,
    settlement, sample, decoding, decoded, hredis, hremote, hseconds, hl, ?_, hs, hframe, hpayload,
    haged, hdecoding, hdecoded⟩
  rw [hlog]
  simp

theorem body_remoteRun {redis : RedisSettings X} (hredis : settings.redis = some redis)
    (plan : Plan) (localReason : DisabledReason) (config : ResolvedRemoteLayerConfig)
    (enabled : plan.remoteLayer.1 = .enabled config) :
    body (V := V) settings (.remoteRun plan localReason config enabled) =
      (do return .value (← getThroughRemote settings redis plan localReason config)) := by
  simp only [body, hredis]

/-- The run of a flight settles with what its trace says. -/
theorem runTrace_of_runs {task : CacheTask V} (hplan : runPlan task = some plan)
    {r : Except (Failure X) (Settlement V)} (hr : Runs (body settings task) events r) :
    (events = [] ∧ r = .ok .done) ∨
      ∃ outcome : Except (Failure X) V, r = outcome.map Settlement.value ∧
        RunTrace settings plan (record events) outcome := by
  cases task with
  | localRun p config =>
    cases hplan
    have hrecords : Records (serving settings) ⟨.localRun plan config, []⟩
        (body settings (.localRun plan config)) (fun t r => ∃ outcome : Except (Failure X) V,
          r = outcome.map Settlement.value ∧ RunTrace settings plan t outcome) :=
      (records_getThroughActiveLocal plan config).wrap Settlement.value
    exact .inr (hrecords.sound hr)
  | remoteRun p localReason config enabled =>
    cases hplan
    cases hredis : settings.redis with
    | none =>
      simp only [body, hredis] at hr
      cases hr
      exact .inl ⟨rfl, rfl⟩
    | some redis =>
      rw [body_remoteRun hredis] at hr
      exact .inr (((records_getThroughRemote hredis plan localReason config enabled).wrap
        Settlement.value).sound hr)
  | _ => cases hplan

/-- What the run behind a flight settles with when its source has rejected. -/
theorem recovers_or_rejects {task : CacheTask V} (hplan : runPlan task = some plan)
    {r : Except (Failure X) (Settlement V)} (hr : Runs (body settings task) events r) {thread : ℕ}
    {settlement : Except (Failure X) (Settlement V)} {reason : Failure X}
    (hjoined : joined thread settlement ∈ events)
    (hreason : Settlement.value? settlement = .error reason) :
    r = .error reason ∨
      ∃ value, r = .ok (.value value) ∧ RecoveredRun settings plan reason (record events) value := by
  rcases runTrace_of_runs hplan hr with ⟨rfl, -⟩ | ⟨outcome, rfl, htrace⟩
  · cases hjoined
  have hmem := mem_joins.mpr ((mem_record rfl).mpr hjoined)
  cases htrace.outcome with
  | stored _ hjoins | fresh _ hjoins =>
    rw [hjoins] at hmem
    cases hmem
  | source labels thread' settlement' _ hjoins =>
    rw [hjoins] at hmem
    cases List.mem_singleton.mp hmem
    rw [hreason]
    exact .inl rfl
  | recovered labels thread' settlement' _ hjoins hs hrecovered =>
    rw [hjoins] at hmem
    cases List.mem_singleton.mp hmem
    rw [hreason] at hs
    cases hs
    exact .inr ⟨_, rfl, hrecovered⟩

section Samples

def recoverableConfig : DialCacheKeyConfig where
  ttlSec := ⟨.undefined, .number (.ofInt 60)⟩
  ramp := ⟨.undefined, .undefined⟩
  shadow := none
  requestLocal := none
  coalesce := none
  staleOnErrorMaxAgeSec := .number (.ofInt 120)
  remoteReadTimeoutMs := none

def recoverablePlan : Plan where
  call := ⟨⟨true, none⟩, ⟨text "user", text "profile", some recoverableConfig, true⟩, none⟩
  id := 0
  key := profileKey
  keyConfig := some recoverableConfig

theorem minute_supported : 0 < 60 ∧ 60 ≤ maxCacheTtlSec := by decide

def recoverableRemote : ResolvedRemoteLayerConfig where
  ttlSec := 60
  ramp := 100
  supported := minute_supported
  staleOnErrorMaxAgeSec := some 120
  maxAge_supported := by
    rintro maxAge hmax
    cases hmax
    decide

theorem recoverablePlan_enabled : recoverablePlan.remoteLayer.1 = .enabled recoverableRemote := rfl

def recoverableSettings : Settings Unit where
  cacheNamespace := text "urn"
  redis := some plainRedis
  shadowHook := false
  shadowMaxInFlight := 1
  shadowMaxInFlight_pos := by decide

def staleFrame : ReplyObject Unit where
  kind := .ok .undefined
  reason := .ok .undefined
  observedWatermarkMs := .ok .undefined
  createdAtMs := fun _ => .ok (.ofNumber (.ofInt 10000))
  payload := .ok (.typed (.text (text "cached")))

/-- Redis holds a frame stamped 10000, the wall clock stands at 100000, the source rejects and
the predicate allows recovery. -/
def recoveryOracle : (op : PoolOp (CacheTask Unit) (CacheOp Unit Unit)) →
    PoolAns CacheOp.Answer (Failure Unit) (Settlement Unit) op
  | .act .dateNow => (100000 : ℤ)
  | .act (.read (.settled _)) => .ok (.object staleFrame)
  | .act (.load _ _) => .ok ()
  | .act (.predicate _) => .ok (.boolean true)
  | .act op => op.anyAnswer
  | .spawn _ => (0 : ℕ)
  | .join _ => .error (.thrown ())

def recoveryRun : List (CacheEvent Unit Unit) × Except (Failure Unit) (Settlement Unit) :=
  (body recoverableSettings
    (.remoteRun recoverablePlan .policyDisabled recoverableRemote recoverablePlan_enabled)).runWith
    recoveryOracle

/-- The client answers with an object whose stamp cannot be read. -/
def throwingOracle : (op : PoolOp (CacheTask Unit) (CacheOp Unit Unit)) →
    PoolAns CacheOp.Answer (Failure Unit) (Settlement Unit) op
  | .act (.read (.settled _)) => .ok (.object { staleFrame with createdAtMs := fun _ => .error () })
  | op => recoveryOracle op

def throwingRun : List (CacheEvent Unit Unit) ×
    Except (Failure Unit) (RedisCacheGetResult Unit Unit) :=
  (getWithResolvedConfig plainRedis profileKey recoverableRemote 50).runWith throwingOracle

end Samples

end DialCache.AgeLaw
