import DialCache.RedisTraces
import DialCache.ShadowValidation

/-!
# What a refill can do

A value is written back after a miss: the clock is checked against the observed watermark,
the value is serialized, and the clock is checked again before one write is dispatched.
-/

namespace DialCache.RefillTraces

open AsyncPrograms ThreadPool CacheKeys CacheOperations CacheRecorder RedisCache RedisFrames
open RedisTraces RuntimeConfig JsValues ShadowValidation
open InvalidationScript (maxTrackedRedisValueTtlMs)

variable {V X : Type} {G : Guard V X} {g : Ghost V X}

/-- A clock sample or a step of a write. -/
def isRefillEvent (e : CacheEvent V X) : Bool :=
  match e.op with
  | .act .dateNow | .act (.dump _ _) | .act .dumped | .act (.write _) => true
  | _ => false

/-- What is stored for an output of the serializer. -/
def storedOutput (redis : RedisSettings X) (serialized : Payload) : Except (Failure X) Payload :=
  match redis.compression with
  | none => .ok (escapeRaw serialized)
  | some config => (compress redis config serialized).map (·.payload)

variable (key : DialCacheKey)

def dumpEvents (value : V) (output : Except (Failure X) Payload) : Log V X :=
  [did (.dump key value) (), did .dumped output]

def writeRequest? (e : CacheEvent V X) : Option RedisWriteRequest :=
  match e.op with
  | .act (.write request) => some request
  | _ => none

def sample? : CacheEvent V X → Option ℤ
  | ⟨.act .dateNow, now⟩ => some now
  | _ => none

/-- The write requests among some events. -/
def writes (events : Log V X) : List RedisWriteRequest :=
  events.filterMap writeRequest?

/-- The samples of the wall clock among some events. -/
def samples (events : Log V X) : List ℤ := events.filterMap sample?

theorem writes_record (events : Log V X) : writes (record events) = writes events := by
  refine filterMap_record ?_ events
  rintro ⟨op, answer⟩ hop
  cases op with
  | spawn task => rfl
  | join thread => rfl
  | act op => cases op <;> first | rfl | cases hop

theorem samples_record (events : Log V X) :
    samples (record events) = samples events := by
  refine filterMap_record ?_ events
  rintro ⟨op, answer⟩ hop
  cases op with
  | spawn task => rfl
  | join thread => rfl
  | act op => cases op <;> first | rfl | cases hop

@[simp] theorem writes_append (s t : Log V X) :
    writes (s ++ t) = writes s ++ writes t :=
  List.filterMap_append

@[simp] theorem samples_append (s t : Log V X) :
    samples (s ++ t) = samples s ++ samples t :=
  List.filterMap_append

@[simp] theorem writes_dumpEvents (value : V) (output : Except (Failure X) Payload) :
    writes (dumpEvents key value output) = [] := rfl

@[simp] theorem samples_dumpEvents (value : V) (output : Except (Failure X) Payload) :
    samples (dumpEvents key value output) = [] := rfl

@[simp] theorem writes_sample (now : ℤ) : writes [did .dateNow now (V := V) (X := X)] = [] := rfl

@[simp] theorem samples_sample (now : ℤ) :
    samples [did .dateNow now (V := V) (X := X)] = [now] := rfl

@[simp] theorem writes_write (request : RedisWriteRequest) :
    writes [did (.write request) () (V := V) (X := X)] = [request] := rfl

@[simp] theorem samples_write (request : RedisWriteRequest) :
    samples [did (.write request) () (V := V) (X := X)] = [] := rfl

theorem wp_recordSize (observation : ℕ → Observation X) (payload : Payload)
    (Q : Except (Failure X) Unit → Ghost V X → Prop) :
    wp (recorder G) (recordSize observation payload) Q g ↔ Q (.ok ()) g := by
  unfold recordSize
  cases payloadSize payload <;> simp

theorem wp_recordCompression (layer : MetricLayer) (startMs : ℚ) (result : Compressed)
    (Q : Except (Failure X) Unit → Ghost V X → Prop) :
    wp (recorder G) (recordCompression key layer startMs result) Q g ↔ Q (.ok ()) g := by
  unfold recordCompression
  cases result.outcome <;> simp

theorem wp_recordClamp (layer : MetricLayer) (ttlSec : ℕ)
    (Q : Except (Failure X) Unit → Ghost V X → Prop) :
    wp (recorder G) (recordClamp key layer ttlSec) Q g ↔ Q (.ok ()) g := by
  unfold recordClamp
  split <;> simp

theorem records_dumpValue (value : V) (layer : MetricLayer)
    (hdump : G.allows g (.act (.dump key value))) :
    Records G g (dumpValue key value layer) (fun t r => t = dumpEvents key value r) := by
  simp only [Records, dumpValue, wp_bind, wp_performanceNow, thenWp_ok]
  intro start
  refine records_andFinally ?_ (silent_observeSince _ start)
  simp only [Records, wp_tryCatch, wp_bind, wp_act, hdump, true_and, thenWp_ok, wp_ofExcept]
  simp
  intro _ output
  cases output with
  | ok payload => simp [dumpEvents]
  | error e => simp [dumpEvents]

theorem records_storedForm (redis : RedisSettings X) (key : DialCacheKey) (layer : MetricLayer)
    (serialized : Payload) :
    Records G g (storedForm redis key layer serialized : Async V X Payload) (fun t r =>
      t = [] ∧ r = storedOutput redis serialized) := by
  unfold Records storedForm storedOutput
  cases redis.compression with
  | none => exact ⟨[], by simp, rfl, rfl⟩
  | some config =>
    simp only [wp_bind, wp_performanceNow, thenWp_ok]
    intro start
    cases compress redis config serialized with
    | error e =>
      simp only [wp_bind, wp_recordError, thenWp_ok, wp_throw]
      exact ⟨[], by simp, rfl, rfl⟩
    | ok result =>
      simp only [wp_bind, wp_observe, wp_recordCompression, thenWp_ok, wp_pure]
      exact ⟨[], by simp, rfl, rfl⟩

theorem records_serialize (redis : RedisSettings X) (key : DialCacheKey) (value : V)
    (layer : MetricLayer) (hdump : G.allows g (.act (.dump key value))) :
    Records G g (serialize redis key value layer) (fun t r => ∃ output,
      t = dumpEvents key value output ∧ r = output.bind (storedOutput redis)) := by
  simp only [Records, serialize, wp_bind]
  refine wp_of_records (records_dumpValue key value layer hdump) ?_
  rintro t r rfl
  cases r with
  | error e => exact ⟨_, rfl, .error e, rfl, rfl⟩
  | ok serialized =>
    simp only [thenWp_ok, wp_bind, wp_recordSize]
    refine wp_of_records (records_storedForm redis key layer serialized) ?_
    rintro t r ⟨rfl, rfl⟩
    rw [Ghost.extend_nil]
    cases hstored : storedOutput redis serialized with
    | error e => exact ⟨_, rfl, .ok serialized, rfl, hstored.symm⟩
    | ok stored =>
      simp only [thenWp_ok, wp_bind, wp_recordSize, wp_pure]
      exact ⟨_, rfl, .ok serialized, rfl, hstored.symm⟩

/-- The samples of the fence check; an unfenced write takes none. -/
inductive StampTrace : Option ℕ → Log V X →
    Except (Failure X) (Option (Option ℕ)) → Prop where
  | unfenced : StampTrace none [] (.ok (some none))
  | invalid {watermark : ℕ} {now : ℤ} {e : Failure X}
      (h : (JsValue.number (.ofInt now)).natural? = none) :
      StampTrace (some watermark) [did .dateNow now] (.error e)
  | fenced {watermark stamp : ℕ} (le : stamp ≤ watermark) :
      StampTrace (some watermark) [did .dateNow (stamp : ℤ)] (.ok none)
  | above {watermark stamp : ℕ} (lt : watermark < stamp) (safe : stamp ≤ JsNumber.maxSafeInteger) :
      StampTrace (some watermark) [did .dateNow (stamp : ℤ)] (.ok (some (some stamp)))

theorem eq_of_natural?_ofInt {now : ℤ} {stamp : ℕ}
    (h : (JsValue.number (.ofInt now)).natural? = some stamp) :
    now = stamp ∧ stamp ≤ JsNumber.maxSafeInteger := by
  obtain ⟨heq, hle⟩ := JsValue.eq_of_natural? h
  simp only [JsValue.number.injEq, JsNumber.ofInt, JsNumber.finite.injEq] at heq
  exact ⟨by exact_mod_cast heq, hle⟩

theorem records_stampAbove (layer : MetricLayer) (fence : Option ℕ) :
    Records G g (stampAbove key layer fence : Async V X _) (StampTrace fence) := by
  cases fence with
  | none => exact ⟨[], by simp, .unfenced⟩
  | some watermark =>
    simp only [Records, stampAbove, sampleWriteTimestamp, wp_bind, wp_dateNow, thenWp_ok]
    intro now
    cases hnow : (JsValue.number (.ofInt now)).natural? with
    | none =>
      simp only [wp_bind, wp_recordError, thenWp_ok, wp_throw, thenWp_error]
      exact ⟨_, rfl, .invalid hnow⟩
    | some stamp =>
      obtain ⟨rfl, safe⟩ := eq_of_natural?_ofInt hnow
      simp only [wp_pure, thenWp_ok]
      split
      · rename_i le
        exact ⟨_, rfl, .fenced le⟩
      · rename_i lt
        exact ⟨_, rfl, .above (not_le.mp lt) safe⟩

variable {t : Log V X}

theorem StampTrace.isRefillEvent {fence : Option ℕ} {r : Except (Failure X) (Option (Option ℕ))}
    (h : StampTrace fence t r) : ∀ e ∈ t, isRefillEvent e = true := by
  cases h <;> simp [RefillTraces.isRefillEvent, did]

theorem StampTrace.writes_eq {fence : Option ℕ} {r : Except (Failure X) (Option (Option ℕ))}
    (h : StampTrace fence t r) : writes t = [] := by
  cases h <;> rfl

section Put

variable (redis : RedisSettings X) (key : DialCacheKey) (value : V) (ttlSec : ℕ)
  (fence : Option ℕ) (asked : Log V X → Except (Failure X) Bool → Prop)

/-- Everything a write-back can do; `asked` is the record of `shouldWrite`. -/
inductive PutTrace : Log V X → Except (Failure X) Bool → Prop where
  | unstamped {t : Log V X} {e : Failure X} (h : StampTrace fence t (.error e)) :
      PutTrace t (.error e)
  | fenced {t : Log V X} (h : StampTrace fence t (.ok none)) :
      PutTrace t (.ok false)
  | unserialized {t : Log V X} {stamp : Option ℕ}
      {output : Except (Failure X) Payload} {e : Failure X}
      (h : StampTrace fence t (.ok (some stamp)))
      (hs : output.bind (storedOutput redis) = .error e) :
      PutTrace (t ++ dumpEvents key value output) (.error e)
  | declined {t u : Log V X} {stamp : Option ℕ}
      {output : Except (Failure X) Payload} {r : Except (Failure X) Bool}
      (h : StampTrace fence t (.ok (some stamp))) (hu : asked u r) (hr : r ≠ .ok true) :
      PutTrace (t ++ (dumpEvents key value output ++ u)) r
  | unrestamped {t u t' : Log V X} {stamp : Option ℕ}
      {output : Except (Failure X) Payload} {e : Failure X}
      (h : StampTrace fence t (.ok (some stamp))) (hu : asked u (.ok true))
      (h' : StampTrace fence t' (.error e)) :
      PutTrace (t ++ (dumpEvents key value output ++ (u ++ t'))) (.error e)
  | refenced {t u t' : Log V X} {stamp : Option ℕ}
      {output : Except (Failure X) Payload}
      (h : StampTrace fence t (.ok (some stamp))) (hu : asked u (.ok true))
      (h' : StampTrace fence t' (.ok none)) :
      PutTrace (t ++ (dumpEvents key value output ++ (u ++ t'))) (.ok false)
  | written {t u t' : Log V X} {stamp createdAtMs : Option ℕ}
      {output : Except (Failure X) Payload} {stored : Payload} {r : Except (Failure X) Bool}
      (h : StampTrace fence t (.ok (some stamp))) (hs : output.bind (storedOutput redis) = .ok stored)
      (hu : asked u (.ok true)) (h' : StampTrace fence t' (.ok (some createdAtMs)))
      (hr : r ≠ .ok false) :
      PutTrace (t ++ (dumpEvents key value output ++ (u ++ (t' ++
        [did (.write ⟨redisKey key, cacheTtlMs key ttlSec, stored, createdAtMs⟩) ()])))) r

/-- What a guard has to allow for a write-back. -/
structure PutAllowed (G : Guard V X) (g : Ghost V X) : Prop where
  dump : ∀ t : Log V X, (∀ e ∈ t, isRefillEvent e = true) →
    G.allows (g.extend t) (.act (.dump key value))
  write : ∀ (t : Log V X) (request : RedisWriteRequest),
    did (.dump key value) () ∈ t → request.valueKey = redisKey key →
    G.allows (g.extend t) (.act (.write request))

end Put

theorem records_clientWrite (key : DialCacheKey) (layer : MetricLayer) (request : RedisWriteRequest)
    (hwrite : G.allows g (.act (.write request))) :
    Records G g (clientWrite key layer request : Async V X Unit) (fun t _ =>
      t = [did (.write request) ()]) := by
  simp only [Records, clientWrite, wp_tryCatch, wp_bind, wp_act, hwrite, true_and, thenWp_ok,
    wp_ofExcept]
  simp
  intro _ written
  cases written <;> simp

variable {redis : RedisSettings X} {key : DialCacheKey} {value : V} {ttlSec : ℕ}
  {fence : Option ℕ} {asked : Log V X → Except (Failure X) Bool → Prop}

theorem records_dispatch (layer : MetricLayer) {u : Log V X} {stamp : Option ℕ}
    {output : Except (Failure X) Payload} {stored : Payload} (hput : PutAllowed key value G g)
    (h : StampTrace fence t (.ok (some stamp))) (hs : output.bind (storedOutput redis) = .ok stored)
    (hu : asked u (.ok true)) :
    wp (recorder G) (dispatch key ttlSec layer fence stored)
      (fun r g' => ∃ t, g' = g.extend t ∧ PutTrace redis key value ttlSec fence asked t r)
      (g.extend (t ++ (dumpEvents key value output ++ u))) := by
  simp only [dispatch, wp_bind]
  refine wp_of_records (records_stampAbove key layer fence) ?_
  intro t' r h'
  rw [Ghost.extend_extend]
  rcases r with e | _ | createdAtMs
  · exact ⟨_, rfl, by simpa using PutTrace.unrestamped h hu h'⟩
  · exact ⟨_, rfl, by simpa using PutTrace.refenced h hu h'⟩
  · simp only [thenWp_ok, wp_bind, wp_recordClamp]
    refine wp_of_records (records_clientWrite key layer _ ?_) ?_
    · exact hput.write _ _ (by simp [dumpEvents]) rfl
    · rintro t'' r rfl
      rw [Ghost.extend_extend]
      cases r with
      | error e =>
        exact ⟨_, rfl, by simpa using PutTrace.written h hs hu h' (r := .error e) (by simp)⟩
      | ok _ =>
        exact ⟨_, rfl, by simpa using PutTrace.written h hs hu h' (r := .ok true) (by simp)⟩

theorem records_putWithLayer (layer : MetricLayer) {shouldWrite : Async V X Bool}
    (hput : PutAllowed key value G g)
    (asked : Log V X → Except (Failure X) Bool → Prop)
    (hasked : ∀ g, Records G g shouldWrite asked) :
    Records G g (putWithLayer redis key value ttlSec layer shouldWrite fence)
      (PutTrace redis key value ttlSec (if key.trackForInvalidation then fence else none) asked) := by
  simp only [Records, putWithLayer, wp_bind]
  refine wp_of_records (records_stampAbove key layer _) ?_
  intro t r h
  rcases r with e | _ | stamp
  · exact ⟨t, rfl, .unstamped h⟩
  · exact ⟨t, rfl, .fenced h⟩
  · simp only [thenWp_ok, wp_bind]
    refine wp_of_records (records_serialize redis key value layer (hput.dump t h.isRefillEvent)) ?_
    rintro t' r ⟨output, rfl, rfl⟩
    rw [Ghost.extend_extend]
    cases hs : output.bind (storedOutput redis) with
    | error e => exact ⟨_, rfl, .unserialized h hs⟩
    | ok stored =>
      rw [thenWp_ok, wp_bind]
      refine wp_of_records (hasked _) ?_
      intro u r hu
      rw [Ghost.extend_extend, List.append_assoc]
      rcases r with e | _ | _
      · exact ⟨_, rfl, .declined h hu (by simp)⟩
      · exact ⟨_, rfl, .declined h hu (by simp)⟩
      · exact records_dispatch layer hput h hs hu

theorem isRefillEvent_of_mem_dumpEvents {output : Except (Failure X) Payload} {e : CacheEvent V X}
    (he : e ∈ dumpEvents key value output) : isRefillEvent e = true := by
  simp only [dumpEvents, List.mem_cons, List.not_mem_nil, or_false] at he
  rcases he with rfl | rfl <;> rfl

/-- A write-back that asks nobody consists of its own steps only. -/
theorem PutTrace.isRefillEvent {r : Except (Failure X) Bool}
    (h : PutTrace redis key value ttlSec fence asked t r)
    (hasked : ∀ u r, asked u r → ∀ e ∈ u, isRefillEvent e = true) :
    ∀ e ∈ t, isRefillEvent e = true := by
  have hdump : ∀ (output : Except (Failure X) Payload), ∀ e ∈ dumpEvents key value output,
      RefillTraces.isRefillEvent e = true := fun output e he => isRefillEvent_of_mem_dumpEvents he
  cases h with
  | unstamped h | fenced h => exact h.isRefillEvent
  | unserialized h _ => exact List.forall_mem_append.mpr ⟨h.isRefillEvent, hdump _⟩
  | declined h hu _ =>
    exact List.forall_mem_append.mpr ⟨h.isRefillEvent,
      List.forall_mem_append.mpr ⟨hdump _, hasked _ _ hu⟩⟩
  | unrestamped h hu h' | refenced h hu h' =>
    exact List.forall_mem_append.mpr ⟨h.isRefillEvent, List.forall_mem_append.mpr ⟨hdump _,
      List.forall_mem_append.mpr ⟨hasked _ _ hu, h'.isRefillEvent⟩⟩⟩
  | written h _ hu h' _ =>
    refine List.forall_mem_append.mpr ⟨h.isRefillEvent, List.forall_mem_append.mpr ⟨hdump _,
      List.forall_mem_append.mpr ⟨hasked _ _ hu, List.forall_mem_append.mpr
        ⟨h'.isRefillEvent, ?_⟩⟩⟩⟩
    intro e he
    rw [List.mem_singleton.mp he]
    rfl

theorem putAllowed_noGuard : PutAllowed key value noGuard g :=
  ⟨fun _ _ => trivial, fun _ _ _ _ => trivial⟩

theorem records_put (config : ResolvedRemoteLayerConfig) (hput : PutAllowed key value G g) :
    Records G g (put redis key value config fence) (fun t r => ∃ written,
      PutTrace redis key value (retentionTtlSecFor config)
        (if key.trackForInvalidation then fence else none) (fun u r => u = [] ∧ r = .ok true)
        t written ∧ r = written.map fun _ => ()) := by
  simp only [Records, put, wp_bind, wp_awaited]
  refine wp_of_records (records_putWithLayer .REMOTE hput (fun u r => u = [] ∧ r = .ok true)
    fun g => ⟨[], by simp, rfl, rfl⟩) ?_
  intro t r h
  cases r with
  | error e | ok written => exact ⟨t, rfl, _, h, rfl⟩

/-- The record of an expiry check. -/
inductive ExpiryTrace (job : ℕ) : Log V X → Bool → Prop where
  | abandoned : ExpiryTrace job [did (.shadow (.abandoned job)) true] true
  | expired :
      ExpiryTrace job [did (.shadow (.abandoned job)) false, did (.shadow (.abandon job)) ()] true
  | live : ExpiryTrace job [did (.shadow (.abandoned job)) false] false

theorem records_abandonIfExpired (job : ℕ) (work : ShadowWork) (deadlineStartedAtMs : ℚ) :
    Records G g (abandonIfExpired job work deadlineStartedAtMs : Async V X Bool) (fun t r =>
      ∃ expired, r = .ok expired ∧ ExpiryTrace job t expired) := by
  simp only [Records, abandonIfExpired, wp_bind]
  simp
  refine ⟨fun now => ⟨fun _ _ => ?_, fun _ => ?_⟩, ?_⟩
  · exact ⟨_, rfl, .expired⟩
  · exact ⟨_, rfl, .live⟩
  · exact ⟨_, rfl, .abandoned⟩

theorem records_putForShadow (config : ResolvedRemoteLayerConfig) (job : ℕ) (work : ShadowWork)
    (deadlineStartedAtMs : ℚ) (hput : PutAllowed key value G g) :
    Records G g (putForShadow redis key value config
        (do return !(← abandonIfExpired job work deadlineStartedAtMs)) fence)
      (PutTrace redis key value (retentionTtlSecFor config)
        (if key.trackForInvalidation then fence else none)
        (fun u r => ∃ expired, r = .ok (!expired) ∧ ExpiryTrace job u expired)) := by
  simp only [Records, putForShadow, wp_awaited]
  refine records_putWithLayer .remoteShadow hput _ fun g => ?_
  rw [Records, wp_bind]
  refine wp_of_records (records_abandonIfExpired job work deadlineStartedAtMs) ?_
  rintro t r ⟨expired, rfl, h⟩
  exact ⟨t, rfl, expired, rfl, h⟩

end DialCache.RefillTraces
