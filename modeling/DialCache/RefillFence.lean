import DialCache.RefillTraces

/-!
# Refills under the fence of a miss

A tracked miss hands the watermark it observed to the write that refills it. Whatever the
clock does meanwhile, that write carries a stamp above the fence, so the frame is visible
as long as the watermark stays; a stamp at or below the fence is never dispatched.
-/

namespace DialCache.RefillFence

open AsyncPrograms ThreadPool CacheKeys CacheOperations CacheRecorder RedisCache RedisFrames
open RedisTraces RefillTraces RuntimeConfig JsValues ShadowValidation DecimalText UnicodeText
open InvalidationScript (maxTrackedRedisValueTtlMs maxTrackedRedisValueTtlMs_eq)

variable {V X : Type}

theorem mem_dumpEvents (key : DialCacheKey) (value : V) (output : Except (Failure X) Payload) :
    did .dumped output ∈ dumpEvents key value output := by
  simp [dumpEvents]

/-- A buffer, or a string without unpaired surrogates. -/
def isWellFormedPayload : RedisCachePayload → Bool
  | .text units => isWellFormed units
  | .binary _ => true

theorem storedPayload_of_wellFormed {payload : RedisCachePayload}
    (h : isWellFormedPayload payload = true) : storedPayload payload = payload := by
  cases payload with
  | text units => exact congrArg _ (eq_of_beq h)
  | binary bytes => rfl

/-- The frame of a dispatched value is visible under the fence it was stamped against, with
every unpaired surrogate of a string replaced. -/
def VisibleAbove (watermark createdAtMs : ℕ) (stored : Payload) : Prop :=
  ∀ payload, stored = .typed payload →
    (∃ frame, encodeRedisFrame payload (.ofInt createdAtMs) = .ok frame ∧
      decodeTrackedRedisReadResult (.buffer frame) (.buffer (decimalBytes watermark)) =
        .ok (.frame ⟨storedPayload payload, createdAtMs⟩)) ∧
    (isWellFormedPayload payload = true → storedPayload payload = payload)

/-- What a refill of a tracked key does under the fence `watermark`. -/
structure RefillLaw (key : DialCacheKey) (ttlMs watermark : ℕ) (events : Log V X) :
    Prop where
  dispatch : writes events = [] ∨ ∃ (first : ℤ) (createdAtMs : ℕ) (stored : Payload),
    samples events = [first, (createdAtMs : ℤ)] ∧
    writes events = [⟨redisKey key, ttlMs, stored, some createdAtMs⟩] ∧
    createdAtMs ≤ JsNumber.maxSafeInteger ∧ watermark < createdAtMs ∧
    VisibleAbove watermark createdAtMs stored
  fenced : ∀ sample ∈ samples events, sample ≤ watermark → writes events = []

variable {watermark : ℕ}

theorem visibleAbove {createdAtMs : ℕ} (lt : watermark < createdAtMs)
    (safe : createdAtMs ≤ JsNumber.maxSafeInteger) (stored : Payload) :
    VisibleAbove watermark createdAtMs stored := by
  intro payload _
  have hwatermark : watermark ≤ JsNumber.maxSafeInteger := lt.le.trans safe
  have hne : createdAtMs ≠ 0 := by omega
  refine ⟨⟨frameBytes payload createdAtMs, ?_, ?_⟩, storedPayload_of_wellFormed⟩
  · rw [encodeRedisFrame, JsValue.natural?_ofInt safe]
  · rw [(decodeTrackedRedisReadResult_frameBytes payload createdAtMs).2,
      parseRedisWatermark_decimalBytes hwatermark]
    simp only [decodeTrackedFrame_frameBytes payload safe, if_neg hne, Option.any_some]
    rw [if_neg (by simpa using lt)]

variable {events : Log V X}

variable {key : DialCacheKey} {ttlMs : ℕ}

theorem refillLaw_of_unwritten (h : writes events = []) : RefillLaw key ttlMs watermark events :=
  ⟨.inl h, fun _ _ _ => h⟩

/-- What a refill without a fence does; `declined` is the refusal of its caller. -/
structure UnfencedLaw (redis : RedisSettings X) (key : DialCacheKey) (ttlMs : ℕ) (declined : Prop)
    (events : Log V X) : Prop where
  unsampled : samples events = []
  dispatch : writes events = [] ∨ ∃ stored, writes events = [⟨redisKey key, ttlMs, stored, none⟩]
  unsuppressed : ∃ output, did .dumped output ∈ events ∧ ∀ stored,
    output.bind (storedOutput redis) = .ok stored → ¬ declined →
    writes events = [⟨redisKey key, ttlMs, stored, none⟩]

/-- How a caller's `shouldWrite` behaves: it writes and samples nothing, and answers `true`
exactly when none of its events `declines`. -/
structure Answers (declines : CacheEvent V X → Prop)
    (asked : Log V X → Except (Failure X) Bool → Prop) : Prop where
  writes : ∀ u r, asked u r → writes u = []
  samples : ∀ u r, asked u r → samples u = []
  accepts : ∀ u, asked u (.ok true) → ∀ e ∈ u, ¬ declines e
  refuses : ∀ u r, asked u r → r ≠ .ok true → ∃ e ∈ u, declines e
  refill : ∀ e, isRefillEvent e = true → ¬ declines e

theorem RefillLaw.of_record (h : RefillLaw key ttlMs watermark (record events)) :
    RefillLaw key ttlMs watermark events := by
  obtain ⟨hdispatch, hfenced⟩ := h
  simp only [writes_record, samples_record] at hdispatch hfenced
  exact ⟨hdispatch, hfenced⟩

theorem UnfencedLaw.of_record {redis : RedisSettings X} {declined : Prop}
    (h : UnfencedLaw redis key ttlMs declined (record events)) :
    UnfencedLaw redis key ttlMs declined events := by
  obtain ⟨hsamples, hdispatch, output, hmem, hwrite⟩ := h
  simp only [writes_record, samples_record] at hsamples hdispatch hwrite
  exact ⟨hsamples, hdispatch, output, (mem_record rfl).mp hmem, hwrite⟩

variable {r : Except (Failure X) Bool}

section Asked

variable {redis : RedisSettings X} {key : DialCacheKey} {value : V} {ttlSec : ℕ}
  {asked : Log V X → Except (Failure X) Bool → Prop}
  {declines : CacheEvent V X → Prop} (hasked : Answers declines asked)

include hasked

variable {t : Log V X}

theorem refillLaw_of_putTrace (h : PutTrace redis key value ttlSec (some watermark) asked t r) :
    RefillLaw key (cacheTtlMs key ttlSec) watermark t := by
  cases h with
  | unstamped h | fenced h => exact refillLaw_of_unwritten (StampTrace.writes_eq h)
  | unserialized h _ => exact refillLaw_of_unwritten (by simp [StampTrace.writes_eq h])
  | declined h hu _ =>
    exact refillLaw_of_unwritten (by simp [StampTrace.writes_eq h, hasked.writes _ _ hu])
  | unrestamped h hu h' | refenced h hu h' =>
    exact refillLaw_of_unwritten
      (by simp [StampTrace.writes_eq h, StampTrace.writes_eq h', hasked.writes _ _ hu])
  | @written _ _ _ _ _ _ stored _ h _ hu h' _ =>
    have huw := hasked.writes _ _ hu
    have hus := hasked.samples _ _ hu
    cases h with
    | @above _ first hfirst _ =>
      cases h' with
      | @above _ second hsecond safe =>
        refine ⟨.inr ⟨first, second, stored, ?_, ?_, safe, hsecond, visibleAbove hsecond safe _⟩, ?_⟩
        · simp only [samples_append, samples_sample, samples_dumpEvents, samples_write, hus]
          rfl
        · simp only [writes_append, writes_sample, writes_dumpEvents, writes_write, huw]
          rfl
        · intro sample hsample hle
          simp only [samples_append, samples_sample, samples_dumpEvents, samples_write, hus,
            List.nil_append, List.append_nil, List.mem_append, List.mem_singleton] at hsample
          omega

theorem unfencedLaw_of_putTrace (h : PutTrace redis key value ttlSec none asked t r) :
    UnfencedLaw redis key (cacheTtlMs key ttlSec) (∃ e ∈ t, declines e) t := by
  cases h with
  | unstamped h => cases h
  | fenced h => cases h
  | @unserialized _ _ output _ h hs =>
    cases h
    refine ⟨rfl, .inl rfl, output, mem_dumpEvents key value output, fun stored hstored => ?_⟩
    rw [hs] at hstored
    cases hstored
  | @declined _ u _ output _ h hu hr =>
    cases h
    obtain ⟨e, he, hdeclines⟩ := hasked.refuses _ _ hu hr
    refine ⟨by simp [hasked.samples _ _ hu], .inl (by simp [hasked.writes _ _ hu]), output,
      List.mem_append_left u (mem_dumpEvents key value output), fun _ _ hlive => ?_⟩
    exact absurd ⟨e, by simp [he], hdeclines⟩ hlive
  | unrestamped _ _ h' => cases h'
  | refenced _ _ h' => cases h'
  | @written _ _ _ _ _ output stored _ h hs hu h' _ =>
    cases h
    cases h'
    refine ⟨by simp [hasked.samples _ _ hu], .inr ⟨stored, ?_⟩, output,
      by simp [mem_dumpEvents key value output], ?_⟩
    · simp [hasked.writes _ _ hu]
    · intro stored' hstored' _
      rw [hs] at hstored'
      cases hstored'
      simp [hasked.writes _ _ hu]

/-- Nothing is dispatched once the caller has declined. -/
theorem unwritten_of_declined {fence : Option ℕ}
    (h : PutTrace redis key value ttlSec fence asked t r) {e : CacheEvent V X} (he : e ∈ t)
    (hdeclines : declines e) : writes t = [] := by
  cases h with
  | unstamped h | fenced h => exact StampTrace.writes_eq h
  | unserialized h _ => simp [StampTrace.writes_eq h]
  | declined h hu _ => simp [StampTrace.writes_eq h, hasked.writes _ _ hu]
  | unrestamped h hu h' =>
    simp [StampTrace.writes_eq h, StampTrace.writes_eq h', hasked.writes _ _ hu]
  | refenced h hu h' => simp [StampTrace.writes_eq h, StampTrace.writes_eq h', hasked.writes _ _ hu]
  | written h _ hu h' _ =>
    refine absurd hdeclines ?_
    simp only [List.mem_append, List.mem_singleton] at he
    rcases he with he | he | he | he | rfl
    · exact hasked.refill e (h.isRefillEvent e he)
    · exact hasked.refill e (isRefillEvent_of_mem_dumpEvents he)
    · exact hasked.accepts _ hu e he
    · exact hasked.refill e (h'.isRefillEvent e he)
    · exact hasked.refill _ rfl

end Asked

theorem answers_always : Answers (V := V) (X := X) (fun _ => False)
    (fun u r => u = [] ∧ r = .ok true) where
  writes := by
    rintro u r ⟨rfl, rfl⟩
    rfl
  samples := by
    rintro u r ⟨rfl, rfl⟩
    rfl
  accepts := fun _ _ _ _ h => h
  refuses := by
    rintro u r ⟨rfl, rfl⟩ h
    exact absurd rfl h
  refill := fun _ _ h => h

/-- An expiry check of the job found it abandoned or over its budget. -/
def Expires (job : ℕ) (e : CacheEvent V X) : Prop :=
  e = did (.shadow (.abandoned job)) true ∨ e = did (.shadow (.abandon job)) ()

theorem answers_unexpired (job : ℕ) : Answers (V := V) (X := X) (Expires job)
    (fun u r => ∃ expired, r = .ok (!expired) ∧ ExpiryTrace job u expired) where
  writes := by
    rintro u r ⟨_, -, h⟩
    cases h <;> rfl
  samples := by
    rintro u r ⟨_, -, h⟩
    cases h <;> rfl
  accepts := by
    rintro u ⟨expired, hr, h⟩ e he
    cases h with
    | abandoned => cases hr
    | expired => cases hr
    | live =>
      rw [List.mem_singleton.mp he]
      simp [Expires, did]
  refuses := by
    rintro u r ⟨expired, rfl, h⟩ hr
    cases h with
    | abandoned => exact ⟨_, List.mem_singleton_self _, .inl rfl⟩
    | expired => exact ⟨did (.shadow (.abandon job)) (), by simp, .inr rfl⟩
    | live => exact absurd rfl hr
  refill := by
    rintro e he (rfl | rfl) <;> cases he

theorem mem_record_of_expires {job : ℕ} :
    (∃ e ∈ record events, Expires job e) ↔ ∃ e ∈ events, Expires job e := by
  constructor
  · rintro ⟨e, he, hx⟩
    exact ⟨e, List.mem_of_mem_filter he, hx⟩
  · rintro ⟨e, he, hx⟩
    refine ⟨e, (mem_record ?_).mpr he, hx⟩
    rcases hx with rfl | rfl <;> rfl

/-- An expiry check finds a job expired that is abandoned already or whose budget is spent. -/
theorem runs_abandonIfExpired {job : ℕ} {work : ShadowWork} {deadlineStartedAtMs : ℚ}
    (hr : Runs (abandonIfExpired job work deadlineStartedAtMs) events r) :
    ∃ expired, r = .ok expired ∧ (expired = true ↔ ∃ e ∈ events, Expires job e) ∧
      (expired = true ↔ did (.shadow (.abandoned job)) true ∈ events ∨
        ∃ now, did .performanceNow now ∈ events ∧
          (work.plan.call.shadowTimeoutMs : ℚ) ≤ now - deadlineStartedAtMs) := by
  have hwp : wp tracker (abandonIfExpired job work deadlineStartedAtMs : Async V X Bool)
      (fun r events => ∃ expired, r = .ok expired ∧
        (expired = true ↔ ∃ e ∈ events, Expires job e) ∧
        (expired = true ↔ did (.shadow (.abandoned job)) true ∈ events ∨
          ∃ now, did .performanceNow now ∈ events ∧
            (work.plan.call.shadowTimeoutMs : ℚ) ≤ now - deadlineStartedAtMs)) [] := by
    refine ⟨trivial, fun abandoned => ?_⟩
    cases abandoned with
    | true =>
      exact ⟨true, rfl, by simp [Expires, tracker, did], by simp [tracker, did]⟩
    | false =>
      refine ⟨trivial, fun now => ?_⟩
      refine (wp_ite (_ ≥ _) _ _ _ _).mpr ⟨fun hspent => ?_, fun hspent => ?_⟩
      · refine ⟨trivial, fun _ => ⟨true, rfl, ?_, ?_⟩⟩
        · simp [Expires, tracker, did]
        · simpa [tracker, did] using hspent
      · refine ⟨false, rfl, ?_, ?_⟩
        · simp [Expires, tracker, did]
        · simpa [tracker, did] using hspent
  simpa [follow_tracker] using wp_sound hwp hr

section Law

variable (redis : RedisSettings X) (value : V) (config : ResolvedRemoteLayerConfig)

/-- The lifetime that keeps a value for recovery if that is configured. -/
def retentionMs : ℕ := 1000 * config.staleOnErrorMaxAgeSec.getD config.ttlSec

theorem cacheTtlMs_tracked (h : key.trackForInvalidation = true) :
    cacheTtlMs key (retentionTtlSecFor config) = min (retentionMs config) 3600000 := by
  rw [cacheTtlMs, if_pos h, maxTrackedRedisValueTtlMs_eq, cacheTtlSecToMs, retentionTtlSecFor,
    retentionMs, Nat.mul_comm]

theorem cacheTtlMs_untracked (h : key.trackForInvalidation = false) :
    cacheTtlMs key (retentionTtlSecFor config) = retentionMs config := by
  rw [cacheTtlMs, if_neg (by simp [h]), cacheTtlSecToMs, retentionTtlSecFor, retentionMs,
    Nat.mul_comm]

section Put

variable {redis value config} {key : DialCacheKey} {events : Log V X}

theorem refillLaw_put (tracked : key.trackForInvalidation = true) {r : Except (Failure X) Unit}
    (hr : Runs (put redis key value config (some watermark)) events r) :
    RefillLaw key (min (retentionMs config) 3600000) watermark events := by
  obtain ⟨written, htrace, -⟩ := record_of_runs (fun _ => records_put config putAllowed_noGuard) hr
  rw [if_pos tracked] at htrace
  rw [← cacheTtlMs_tracked config tracked]
  exact (refillLaw_of_putTrace answers_always htrace).of_record

theorem unfencedLaw_put (untracked : key.trackForInvalidation = false) {fence : Option ℕ}
    {r : Except (Failure X) Unit} (hr : Runs (put redis key value config fence) events r) :
    UnfencedLaw redis key (retentionMs config) False events := by
  obtain ⟨written, htrace, -⟩ := record_of_runs (fun _ => records_put config putAllowed_noGuard) hr
  rw [if_neg (by simp [untracked])] at htrace
  rw [← cacheTtlMs_untracked config untracked]
  obtain ⟨hsamples, hdispatch, hwrite⟩ := (unfencedLaw_of_putTrace answers_always htrace).of_record
  exact ⟨hsamples, hdispatch, by simpa using hwrite⟩

variable {job : ℕ} {work : ShadowWork} {deadlineStartedAtMs : ℚ} {fence : Option ℕ}
  {r : Except (Failure X) Bool}
  (hr : Runs (putForShadow redis key value config
    (do return !(← abandonIfExpired job work deadlineStartedAtMs)) fence) events r)

include hr

theorem putTrace_putForShadow :
    PutTrace redis key value (retentionTtlSecFor config)
      (if key.trackForInvalidation then fence else none)
      (fun u r => ∃ expired, r = .ok (!expired) ∧ ExpiryTrace job u expired) (record events) r :=
  record_of_runs
    (fun _ => records_putForShadow config job work deadlineStartedAtMs putAllowed_noGuard) hr

/-- A shadow fill dispatches nothing once its job has expired. -/
theorem unwritten_putForShadow (hexpired : ∃ e ∈ events, Expires job e) : writes events = [] := by
  obtain ⟨e, he, hx⟩ := mem_record_of_expires.mpr hexpired
  rw [← writes_record]
  exact unwritten_of_declined (answers_unexpired job) (putTrace_putForShadow hr) he hx

theorem refillLaw_putForShadow (tracked : key.trackForInvalidation = true)
    (hfence : fence = some watermark) :
    RefillLaw key (min (retentionMs config) 3600000) watermark events := by
  have htrace := putTrace_putForShadow hr
  rw [if_pos tracked, hfence] at htrace
  rw [← cacheTtlMs_tracked config tracked]
  exact (refillLaw_of_putTrace (answers_unexpired job) htrace).of_record

theorem unfencedLaw_putForShadow (untracked : key.trackForInvalidation = false) :
    UnfencedLaw redis key (retentionMs config) (∃ e ∈ events, Expires job e) events := by
  have htrace := putTrace_putForShadow hr
  rw [if_neg (by simp [untracked])] at htrace
  have hlaw := (unfencedLaw_of_putTrace (answers_unexpired job) htrace).of_record
  rwa [mem_record_of_expires, cacheTtlMs_untracked config untracked] at hlaw

end Put

/-- The refill of a miss and the fence it observed agree, for every output of the serializer
and every pair of clock samples. -/
theorem refill_agrees_with_fence :
    (∀ (key : DialCacheKey) (reply : Reply X) (miss : RedisReadMiss) (watermark : ℕ),
      key.trackForInvalidation = true → validateReadResult key reply = .miss miss →
      miss.observedWatermarkMs = some watermark →
      (∀ events r, Runs (put redis key value config miss.observedWatermarkMs) events r →
        RefillLaw key (min (retentionMs config) 3600000) watermark events) ∧
      (∀ job work deadlineStartedAtMs events r,
        Runs (putForShadow redis key value config
          (do return !(← abandonIfExpired job work deadlineStartedAtMs))
          miss.observedWatermarkMs) events r →
        RefillLaw key (min (retentionMs config) 3600000) watermark events ∧
          ((∃ e ∈ events, Expires job e) → writes events = []))) ∧
    (∀ (key : DialCacheKey) (fence : Option ℕ), key.trackForInvalidation = false →
      (∀ events r, Runs (put redis key value config fence) events r →
        UnfencedLaw redis key (retentionMs config) False events) ∧
      (∀ job work deadlineStartedAtMs events r,
        Runs (putForShadow redis key value config
          (do return !(← abandonIfExpired job work deadlineStartedAtMs)) fence) events r →
        UnfencedLaw redis key (retentionMs config) (∃ e ∈ events, Expires job e) events ∧
          ((∃ e ∈ events, Expires job e) → writes events = []))) ∧
    (∀ (job : ℕ) (work : ShadowWork) (deadlineStartedAtMs : ℚ) (events : List (CacheEvent V X))
      (r : Except (Failure X) Bool),
      Runs (abandonIfExpired job work deadlineStartedAtMs) events r →
      ∃ expired, r = .ok expired ∧ (expired = true ↔ ∃ e ∈ events, Expires job e) ∧
        (expired = true ↔ did (.shadow (.abandoned job)) true ∈ events ∨
          ∃ now, did .performanceNow now ∈ events ∧
            (work.plan.call.shadowTimeoutMs : ℚ) ≤ now - deadlineStartedAtMs)) := by
  refine ⟨fun key reply miss watermark tracked _ hfence => ⟨fun events r hr => ?_,
    fun job work _ events r hr => ?_⟩, fun key fence untracked => ⟨fun events r hr => ?_,
    fun job work _ events r hr => ?_⟩, fun _ _ _ _ _ hr => runs_abandonIfExpired hr⟩
  · rw [hfence] at hr
    exact refillLaw_put tracked hr
  · exact ⟨refillLaw_putForShadow hr tracked hfence, unwritten_putForShadow hr⟩
  · exact unfencedLaw_put untracked hr
  · exact ⟨unfencedLaw_putForShadow hr untracked, unwritten_putForShadow hr⟩

end Law

section Samples

def profileKey : DialCacheKey where
  keyType := text "user"
  id := text "1"
  useCase := text "profile"
  cacheNamespace := text "urn"
  keyPrefix := text "\x7burn:user:1\x7d"
  urn := text "\x7burn:user:1\x7d#profile"
  defaultConfig := none
  trackForInvalidation := true
  tracked_keyPrefix := fun _ => rfl

def plainRedis : RedisSettings Unit where
  compression := none
  zstd := ⟨fun _ bytes => .ok bytes, fun bytes _ => .ok bytes⟩
  readTimeoutMs := ⟨50, by decide, by decide⟩

def minuteConfig : ResolvedRemoteLayerConfig where
  ttlSec := 60
  ramp := 100
  supported := by decide
  staleOnErrorMaxAgeSec := none
  maxAge_supported := by simp

/-- A miss that observed the watermark 5. -/
def fencedReply : Reply Unit := .object {
  kind := .ok (.string (text "miss"))
  reason := .ok (.string (text "value_absent"))
  observedWatermarkMs := .ok (.number (.ofInt 5))
  createdAtMs := fun _ => .ok .undefined
  payload := .ok (.typed (.text [])) }

/-- The serializer returns `output`, and the wall clock stands at 10. -/
def refillOracle (output : Payload) : (op : PoolOp (CacheTask Unit) (CacheOp Unit Unit)) →
    PoolAns CacheOp.Answer (Failure Unit) (Settlement Unit) op
  | .act .dateNow => (10 : ℤ)
  | .act .dumped => .ok output
  | .act .written => .ok ()
  | .act op => op.anyAnswer
  | .spawn _ => (0 : ℕ)
  | .join _ => .ok .done

theorem refill_agrees_with_fence_stamped_above : ∃ events r,
    Runs (put plainRedis profileKey () minuteConfig (some 5)) events r ∧
    writes events =
      [⟨redisKey profileKey, 60000, .typed (.text (text "cached")), some 10⟩] ∧
    RefillLaw profileKey (min (retentionMs minuteConfig) 3600000) 5 events := by
  refine ⟨_, _, runs_runWith (refillOracle (.typed (.text (text "cached")))) _, by decide +kernel, ?_⟩
  exact ((refill_agrees_with_fence plainRedis () minuteConfig).1 profileKey fencedReply
    ⟨.valueAbsent, some 5⟩ 5 rfl rfl rfl).1 _ _ (runs_runWith _ _)

/-- An unpaired surrogate does not survive the frame of its refill. -/
theorem refill_repairs_unpaired_surrogate : ∃ events r,
    Runs (put plainRedis profileKey () minuteConfig (some 5)) events r ∧
    writes events = [⟨redisKey profileKey, 60000, .typed (.text [0xD800]), some 10⟩] ∧
    ∃ frame, encodeRedisFrame (.text [0xD800]) (.ofInt 10) = .ok frame ∧
      decodeTrackedRedisReadResult (.buffer frame) (.buffer (decimalBytes 5)) =
        .ok (.frame ⟨.text [0xFFFD], 10⟩) := by
  refine ⟨_, _, runs_runWith (refillOracle (.typed (.text [0xD800]))) _, by decide +kernel, ?_⟩
  exact ⟨frameBytes (.text [0xD800]) 10, by decide, by decide⟩

end Samples

end DialCache.RefillFence
