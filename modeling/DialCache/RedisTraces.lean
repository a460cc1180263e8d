import DialCache.CacheRecorder

/-!
# What the Redis layer can do

The record and the outcome of each function of the Redis layer, for every behaviour of the
client, the serializer and the clocks.
-/

namespace DialCache.RedisTraces

open AsyncPrograms ThreadPool CacheKeys CacheOperations CacheRecorder RedisCache RedisFrames
open RuntimeConfig JsValues

variable {V X : Type} {G : Guard V X} {g : Ghost V X}

variable (frame : ReplyObject X)

/-- A stamp that some read of the frame gives. -/
def Reads (stamp : Stamp X) : Prop := ∃ n, frame.createdAtMs n = .ok stamp

def ReadsTimestamp : Prop :=
  ∃ stamp c, Reads frame stamp ∧ stamp.value.natural? = some c

/-- A number that some read of the frame gives to an operator. -/
def ReadsNumber (x : JsNumber) : Prop :=
  ∃ stamp, Reads frame stamp ∧ stamp.numeric = .ok x

/-- A read of the frame throws, or behind the check the conversion of what it gives. -/
def ReadThrows (x : X) : Prop :=
  (∃ n, frame.createdAtMs n = .error x) ∨
    ReadsTimestamp frame ∧ ∃ stamp, Reads frame stamp ∧ stamp.numeric = .error x

/-- What `frameAge` can do. The reads of the stamp need not agree. -/
inductive AgeTrace (frame : ReplyObject X) :
    Log V X → Except (Failure X) FrameAgeResult → Prop where
  | threw {t : Log V X} {x : X} (h : ReadThrows frame x)
      (sampled : t = [] ∨ ∃ now, t = [did .dateNow now]) : AgeTrace frame t (.error (.thrown x))
  | invalid {stamp : Stamp X} (h : Reads frame stamp) (hnone : stamp.value.natural? = none) :
      AgeTrace frame [] (.ok .invalid)
  | future {x : JsNumber} {now : ℤ} (timestamp : ReadsTimestamp frame) (h : ReadsNumber frame x)
      (early : x.isAbove now = true) : AgeTrace frame [did .dateNow now] (.ok .future)
  | valid {x y : JsNumber} {now : ℤ} (timestamp : ReadsTimestamp frame) (h : ReadsNumber frame x)
      (passed : ¬ x.isAbove now = true) (age : ReadsNumber frame y) :
      AgeTrace frame [did .dateNow now] (.ok (.valid (y.subtractFrom now)))

variable {frame : ReplyObject X}

theorem wp_readStamp {Q : Except (Failure X) (Stamp X) → Ghost V X → Prop}
    (herror : ∀ x, ReadThrows frame x → Q (.error (.thrown x)) g)
    (hok : ∀ stamp, Reads frame stamp → Q (.ok stamp) g) :
    wp (recorder G) (readStamp frame) Q g := by
  refine (wp_bind _ _ _ _).mpr ⟨G.free _ _ rfl, fun n : ℕ => ?_⟩
  change wp _ (getMember (frame.createdAtMs n)) Q g
  rw [getMember, wp_ofExcept]
  cases h : frame.createdAtMs n with
  | error x => exact herror x (.inl ⟨n, h⟩)
  | ok stamp => exact hok stamp ⟨n, h⟩

theorem wp_readNumber (timestamp : ReadsTimestamp frame)
    {Q : Except (Failure X) JsNumber → Ghost V X → Prop}
    (herror : ∀ x, ReadThrows frame x → Q (.error (.thrown x)) g)
    (hok : ∀ x, ReadsNumber frame x → Q (.ok x) g) : wp (recorder G) (readNumber frame) Q g := by
  rw [readNumber, wp_bind]
  refine wp_readStamp herror fun stamp hreads => ?_
  rw [thenWp_ok, getMember, wp_ofExcept]
  cases h : stamp.numeric with
  | error x => exact herror x (.inr ⟨timestamp, stamp, hreads, h⟩)
  | ok x => exact hok x ⟨stamp, hreads, h⟩

theorem wp_recordOffset (key : DialCacheKey) (layer : MetricLayer) (now : ℤ) (x : JsNumber)
    (Q : Except (Failure X) Unit → Ghost V X → Prop) :
    wp (recorder G) (recordOffset key layer now x) Q g ↔ Q (.ok ()) g := by
  cases x <;> simp [recordOffset]

theorem records_frameAge (key : DialCacheKey) (frame : ReplyObject X) (layer : MetricLayer) :
    Records G g (frameAge key frame layer) (AgeTrace frame) := by
  rw [Records, frameAge, wp_bind]
  refine wp_readStamp (fun x h => ⟨[], by simp, .threw h (.inl rfl)⟩) fun stamp hreads => ?_
  rw [thenWp_ok]
  cases hv : stamp.value.natural? with
  | none => exact ⟨[], by simp, .invalid hreads hv⟩
  | some c =>
    have htimestamp : ReadsTimestamp frame := ⟨stamp, c, hreads, hv⟩
    simp only [wp_bind, wp_dateNow, thenWp_ok]
    intro now
    have hthrew : ∀ x, ReadThrows frame x → ∃ t, g.extend [did .dateNow now] = g.extend t ∧
        AgeTrace frame t (.error (.thrown x)) :=
      fun x h => ⟨_, rfl, .threw h (.inr ⟨now, rfl⟩)⟩
    refine wp_readNumber htimestamp hthrew fun x hx => ?_
    simp only [thenWp_ok, wp_ite, wp_bind]
    refine ⟨fun early => wp_readNumber htimestamp hthrew fun y _ => ?_,
      fun passed => wp_readNumber htimestamp hthrew fun y hy => ?_⟩
    · simp only [thenWp_ok, wp_bind, wp_recordOffset, wp_pure]
      exact ⟨_, rfl, .future htimestamp hx early⟩
    · exact ⟨_, rfl, .valid htimestamp hx passed hy⟩

theorem wp_recordDecompression (key : DialCacheKey) (layer : MetricLayer) (startMs : ℚ)
    (outcome : PayloadEnvelope.CompressionReadOutcome)
    (Q : Except (Failure X) Unit → Ghost V X → Prop) :
    wp (recorder G) (recordDecompression key layer startMs outcome) Q g ↔ Q (.ok ()) g := by
  unfold recordDecompression
  split <;> simp

theorem records_deserializePayload (redis : RedisSettings X) (key : DialCacheKey)
    (payload : Payload) (layer : MetricLayer) :
    Records G g (deserializePayload redis key payload layer : Async V X V)
      (fun t r => t = [did (.load key (decompress redis payload).1) r]) := by
  simp only [Records, deserializePayload, loadPayload, wp_bind, wp_performanceNow, thenWp_ok,
    wp_recordDecompression, wp_andFinally, wp_tryCatch]
  intro _ _
  simp
  intro r
  cases r with
  | ok value => simp
  | error e => simp

/-- The events of one raw read. -/
def readEvents (key : DialCacheKey) (timeoutMs read : ℕ) (reply : Except (Failure X) (Reply X)) :
    Log V X :=
  [did (.read (.start (readRequest key) key.useCase timeoutMs)) read,
    did (.read (.settled read)) reply]

theorem records_readSnapshot (key : DialCacheKey) (timeoutMs : ℕ) :
    Records G g (readSnapshot key timeoutMs) (fun t r => ∃ read reply,
      t = readEvents key timeoutMs read reply ∧ r = reply.map (validateReadResult key)) := by
  simp only [Records, readSnapshot, startRawPayloadRead, rawReadResult, wp_tryCatch, wp_bind]
  simp
  intro read reply
  cases reply with
  | ok reply => simpa using ⟨read, .ok reply, rfl, rfl⟩
  | error e => simpa using ⟨read, .error e, rfl, rfl⟩

section Reads

variable (redis : RedisSettings X) (key : DialCacheKey) (config : ResolvedRemoteLayerConfig)

/-- The load event of a payload. -/
def loadEvent (payload : Payload) (loaded : Except (Failure X) V) : CacheEvent V X :=
  did (.load key (decompress redis payload).1) loaded

inductive FreshTrace (frame : ReplyObject X) : Log V X → RedisCacheGetResult V X → Prop where
  | unreadable {x : X} (h : frame.payload = .error x) :
      FreshTrace frame [] (.miss config .deserializationError none)
  | undecodable {payload : Payload} {e : Failure X} (h : frame.payload = .ok payload) :
      FreshTrace frame [loadEvent redis key payload (.error e)]
        (.miss config .deserializationError none)
  | decoded {payload : Payload} {value : V} (h : frame.payload = .ok payload) :
      FreshTrace frame [loadEvent redis key payload (.ok value)] (.hit value frame)

theorem records_decodeFresh (frame : ReplyObject X) :
    Records G g (decodeFresh redis key config frame : Async V X _) (fun t r =>
      ∃ result, r = .ok result ∧ FreshTrace redis key config frame t result) := by
  simp only [Records, decodeFresh, getMember, wp_tryCatch, wp_bind, recordMiss]
  cases hp : frame.payload with
  | error x =>
    simp only [Except.mapError, wp_ofExcept, thenWp_error, catchWp_error, wp_bind, wp_observe,
      thenWp_ok, wp_pure]
    exact ⟨[], by simp, _, rfl, .unreadable hp⟩
  | ok payload =>
    simp only [Except.mapError, wp_ofExcept, thenWp_ok, wp_bind, wp_awaited]
    refine wp_of_records (records_deserializePayload redis key payload .REMOTE) ?_
    rintro t r rfl
    cases r with
    | ok value => exact ⟨_, rfl, _, rfl, .decoded hp⟩
    | error e =>
      simp only [thenWp_error, catchWp_error, wp_bind, wp_observe, thenWp_ok, wp_pure]
      exact ⟨_, rfl, _, rfl, .undecodable hp⟩

/-- The age below which a frame may still be used after a source failure. -/
def maximumAgeMs : ℕ :=
  cacheTtlSecToMs (config.staleOnErrorMaxAgeSec.getD config.ttlSec)

/-- The age makes the frame a miss. -/
def Rejects : FrameAgeResult → Prop
  | .valid ageMs => ageMs.isAtLeast (maximumAgeMs config) = true
  | _ => True

/-- Everything a serving read can do: the raw read, at most one clock sample, and the load of
a fresh frame. -/
inductive ReadTrace (timeoutMs read : ℕ) :
    Log V X → Except (Failure X) (RedisCacheGetResult V X) → Prop where
  | failed {e : Failure X} :
      ReadTrace timeoutMs read (readEvents key timeoutMs read (.error e)) (.error e)
  | missed {reply : Reply X} {miss : RedisReadMiss} (h : validateReadResult key reply = .miss miss) :
      ReadTrace timeoutMs read (readEvents key timeoutMs read (.ok reply))
        (.ok (.miss config .cacheMiss miss.observedWatermarkMs))
  | unreadable {reply : Reply X} {frame : ReplyObject X} {t : Log V X} {e : Failure X}
      (h : validateReadResult key reply = .frame frame) (age : AgeTrace frame t (.error e)) :
      ReadTrace timeoutMs read (readEvents key timeoutMs read (.ok reply) ++ t) (.error e)
  | rejected {reply : Reply X} {frame : ReplyObject X} {t : Log V X}
      {result : FrameAgeResult} (h : validateReadResult key reply = .frame frame)
      (age : AgeTrace frame t (.ok result)) (rejects : Rejects config result) :
      ReadTrace timeoutMs read (readEvents key timeoutMs read (.ok reply) ++ t)
        (.ok (.miss config .cacheMiss none))
  | retained {reply : Reply X} {frame : ReplyObject X} {t : Log V X} {ageMs : JsNumber}
      (h : validateReadResult key reply = .frame frame) (age : AgeTrace frame t (.ok (.valid ageMs)))
      (stale : ageMs.isAtLeast (cacheTtlSecToMs config.ttlSec) = true)
      (below : ¬ ageMs.isAtLeast (maximumAgeMs config) = true) :
      ReadTrace timeoutMs read (readEvents key timeoutMs read (.ok reply) ++ t)
        (.ok (.retained frame config))
  | fresh {reply : Reply X} {frame : ReplyObject X} {t u : Log V X} {ageMs : JsNumber}
      {result : RedisCacheGetResult V X} (h : validateReadResult key reply = .frame frame)
      (age : AgeTrace frame t (.ok (.valid ageMs)))
      (below : ¬ ageMs.isAtLeast (cacheTtlSecToMs config.ttlSec) = true)
      (decode : FreshTrace redis key config frame u result) :
      ReadTrace timeoutMs read (readEvents key timeoutMs read (.ok reply) ++ (t ++ u)) (.ok result)

theorem records_classifyFrame (timeoutMs read : ℕ) {reply : Reply X}
    (h : validateReadResult key reply = .frame frame) :
    Records G g (classifyFrame redis key config frame : Async V X _) (fun t r =>
      ReadTrace redis key config timeoutMs read (readEvents key timeoutMs read (.ok reply) ++ t) r)
    := by
  simp only [Records, classifyFrame, wp_bind, recordMiss]
  refine wp_of_records (records_frameAge key frame .REMOTE) ?_
  rintro t r hage
  cases r with
  | error e => exact ⟨t, rfl, .unreadable h hage⟩
  | ok age =>
    cases age with
    | valid ageMs =>
      simp only [thenWp_ok, wp_ite, wp_bind, wp_observe, wp_pure]
      refine ⟨fun old => ⟨t, rfl, .rejected h hage old⟩, fun below => ⟨fun stale => ?_, fun new => ?_⟩⟩
      · exact ⟨t, rfl, .retained h hage stale below⟩
      · refine wp_of_records (records_decodeFresh redis key config frame) ?_
        rintro u r ⟨result, rfl, hfresh⟩
        exact ⟨t ++ u, by simp, .fresh h hage new hfresh⟩
    | _ =>
      simp only [thenWp_ok, wp_bind, wp_observe, wp_pure]
      exact ⟨t, rfl, .rejected h hage trivial⟩

theorem records_getWithResolvedConfig (timeoutMs : ℕ) :
    Records G g (getWithResolvedConfig redis key config timeoutMs : Async V X _) (fun t r =>
      ∃ read, ReadTrace redis key config timeoutMs read t r) := by
  simp only [Records, getWithResolvedConfig, wp_bind, wp_performanceNow, wp_observe, thenWp_ok]
  intro start
  refine records_andFinally ?_ (silent_observeSince _ start)
  rw [Records, wp_bind]
  refine wp_of_records (records_readSnapshot key timeoutMs) ?_
  rintro t r ⟨read, reply, rfl, rfl⟩
  cases reply with
  | error e => exact ⟨_, rfl, read, .failed⟩
  | ok reply =>
    cases h : validateReadResult key reply with
    | miss miss =>
      simp only [Except.map, h, thenWp_ok, classifyRead, recordMiss, wp_bind, wp_observe, wp_pure]
      exact ⟨_, rfl, read, .missed h⟩
    | frame frame =>
      simp only [Except.map, h, thenWp_ok, classifyRead]
      refine wp_of_records (records_classifyFrame redis key config timeoutMs read h) ?_
      intro t r hr
      exact ⟨_, by simp, read, hr⟩

end Reads

/-- A clock sample or a load. -/
def isDecodeEvent (e : CacheEvent V X) : Bool :=
  match e.op with
  | .act .dateNow | .act (.load _ _) => true
  | _ => false

/-- The record of a recovery that served `value`: the age was below the ceiling before and
after the load. -/
def Recovered (redis : RedisSettings X) (key : DialCacheKey) (frame : ReplyObject X)
    (maxAgeSec : ℕ) (t : Log V X) (value : V) : Prop :=
  ∃ payload before after t₁ t₂, frame.payload = .ok payload ∧
    t = t₁ ++ loadEvent redis key payload (.ok value) :: t₂ ∧
    AgeTrace frame t₁ (.ok (.valid before)) ∧ AgeTrace frame t₂ (.ok (.valid after)) ∧
    ¬ before.isAtLeast (cacheTtlSecToMs maxAgeSec) = true ∧
    ¬ after.isAtLeast (cacheTtlSecToMs maxAgeSec) = true

variable {t : Log V X}

theorem AgeTrace.isDecodeEvent {r : Except (Failure X) FrameAgeResult} (h : AgeTrace frame t r) :
    ∀ e ∈ t, isDecodeEvent e = true := by
  cases h with
  | threw _ sampled => rcases sampled with rfl | ⟨now, rfl⟩ <;> simp [RedisTraces.isDecodeEvent, did]
  | _ => simp [RedisTraces.isDecodeEvent, did]

variable {redis : RedisSettings X}

variable {key : DialCacheKey}

theorem FreshTrace.isDecodeEvent {config : ResolvedRemoteLayerConfig}
    {result : RedisCacheGetResult V X} (h : FreshTrace redis key config frame t result) :
    ∀ e ∈ t, isDecodeEvent e = true := by
  cases h <;> simp [RedisTraces.isDecodeEvent, did, loadEvent]

/-- A serving read is one raw read, and behind it samples and loads only. -/
theorem ReadTrace.split {config : ResolvedRemoteLayerConfig} {timeoutMs read : ℕ}
    {r : Except (Failure X) (RedisCacheGetResult V X)}
    (h : ReadTrace redis key config timeoutMs read t r) :
    ∃ settled rest, t = readEvents key timeoutMs read settled ++ rest ∧
      ∀ e ∈ rest, RedisTraces.isDecodeEvent e = true := by
  cases h with
  | failed | missed _ => exact ⟨_, [], (List.append_nil _).symm, by simp⟩
  | unreadable _ age | rejected _ age _ | retained _ age _ _ => exact ⟨_, _, rfl, age.isDecodeEvent⟩
  | fresh _ age _ decode =>
    exact ⟨_, _, rfl, List.forall_mem_append.mpr ⟨age.isDecodeEvent, decode.isDecodeEvent⟩⟩

theorem Recovered.isDecodeEvent {maxAgeSec : ℕ} {value : V}
    (h : Recovered redis key frame maxAgeSec t value) : ∀ e ∈ t, isDecodeEvent e = true := by
  obtain ⟨payload, before, after, t₁, t₂, -, rfl, hbefore, hafter, -⟩ := h
  intro e he
  rcases List.mem_append.mp he with he | he
  · exact hbefore.isDecodeEvent e he
  · rcases List.mem_cons.mp he with rfl | he
    · rfl
    · exact hafter.isDecodeEvent e he

theorem AgeTrace.of_below {age : FrameAgeResult} {maximum : ℕ} {ageMs : JsNumber}
    (h : AgeTrace frame t (.ok age)) (hbelow : age.below maximum = some ageMs) :
    AgeTrace frame t (.ok (.valid ageMs)) ∧ ¬ ageMs.isAtLeast maximum = true := by
  cases age with
  | valid _ =>
    simp only [FrameAgeResult.below] at hbelow
    split at hbelow
    · cases hbelow
    · rename_i hmax
      cases hbelow
      exact ⟨h, hmax⟩
  | _ => cases hbelow

theorem records_loadRetained (redis : RedisSettings X) (key : DialCacheKey)
    (frame : ReplyObject X) :
    Records G g (loadRetained redis key frame : Async V X _) (fun t r =>
      (∀ e ∈ t, isDecodeEvent e = true) ∧ ∃ result, r = .ok result ∧ ∀ value, result = some value →
        ∃ payload, frame.payload = .ok payload ∧ t = [loadEvent redis key payload (.ok value)]) := by
  simp only [Records, loadRetained, getMember, recordStaleRecovery, wp_tryCatch, wp_bind]
  cases hp : frame.payload with
  | error x =>
    simp only [Except.mapError, wp_ofExcept, thenWp_error, catchWp_error, wp_bind, wp_observe,
      thenWp_ok, wp_pure]
    exact ⟨[], by simp, by simp, none, rfl, by simp⟩
  | ok payload =>
    simp only [Except.mapError, wp_ofExcept, thenWp_ok, wp_bind, wp_awaited]
    refine wp_of_records (records_deserializePayload redis key payload .REMOTE) ?_
    rintro t r rfl
    cases r with
    | ok value =>
      refine ⟨_, rfl, by simp [isDecodeEvent, did], _, rfl, ?_⟩
      intro v hv
      cases hv
      exact ⟨payload, rfl, rfl⟩
    | error e =>
      simp only [thenWp_error, catchWp_error, wp_bind, wp_observe, thenWp_ok, wp_pure]
      exact ⟨_, rfl, by simp [isDecodeEvent, did], none, rfl, by simp⟩

theorem records_serveRecovered (key : DialCacheKey) (frame : ReplyObject X) (maxAgeSec : ℕ)
    (value : V) :
    Records G g (serveRecovered key frame maxAgeSec value) (fun t r =>
      (∀ e ∈ t, isDecodeEvent e = true) ∧ ∀ v, r = .ok (some v) → v = value ∧
        ∃ ageMs, AgeTrace frame t (.ok (.valid ageMs)) ∧
          ¬ ageMs.isAtLeast (cacheTtlSecToMs maxAgeSec) = true) := by
  simp only [Records, serveRecovered, recordStaleRecovery, wp_bind]
  refine wp_of_records (records_frameAge key frame .REMOTE) ?_
  intro t r hage
  cases r with
  | error e => exact ⟨t, rfl, hage.isDecodeEvent, by simp⟩
  | ok age =>
    rw [thenWp_ok]
    cases hbelow : age.below (cacheTtlSecToMs maxAgeSec) with
    | none =>
      simp only [wp_bind, wp_observe, thenWp_ok, wp_pure]
      exact ⟨t, rfl, hage.isDecodeEvent, by simp⟩
    | some ageMs =>
      simp only [wp_bind, wp_observe, thenWp_ok, wp_pure]
      refine ⟨t, rfl, hage.isDecodeEvent, ?_⟩
      rintro v hv
      cases hv
      exact ⟨rfl, ageMs, hage.of_below hbelow⟩

/-- A recovery uses the retained frame only, twice below the ceiling. -/
theorem records_recoverRetainedCandidate (redis : RedisSettings X) (key : DialCacheKey)
    (frame : Option (ReplyObject X)) (maxAgeSec : ℕ) :
    Records G g (recoverRetainedCandidate redis key frame maxAgeSec : Async V X _) (fun t r =>
      (∀ e ∈ t, isDecodeEvent e = true) ∧ ∀ value, r = .ok (some value) →
        ∃ retained, frame = some retained ∧ Recovered redis key retained maxAgeSec t value) := by
  cases frame with
  | none =>
    simp only [Records, recoverRetainedCandidate, recordStaleRecovery, wp_bind, wp_observe,
      thenWp_ok, wp_pure]
    exact ⟨[], by simp, by simp, by simp⟩
  | some frame =>
    simp only [Records, recoverRetainedCandidate, recordStaleRecovery, wp_bind]
    refine wp_of_records (records_frameAge key frame .REMOTE) ?_
    intro t r hage
    cases r with
    | error e => exact ⟨t, rfl, hage.isDecodeEvent, by simp⟩
    | ok age =>
      rw [thenWp_ok]
      cases hbelow : age.below (cacheTtlSecToMs maxAgeSec) with
      | none =>
        simp only [wp_bind, wp_observe, thenWp_ok, wp_pure]
        exact ⟨t, rfl, hage.isDecodeEvent, by simp⟩
      | some ageMs =>
        obtain ⟨hvalid, hbefore⟩ := hage.of_below hbelow
        simp only [wp_bind]
        refine wp_of_records (records_loadRetained redis key frame) ?_
        rintro u r ⟨hdecode, result, rfl, hload⟩
        cases result with
        | none =>
          refine ⟨_, g.extend_extend _ _, ?_, by simp⟩
          exact List.forall_mem_append.mpr ⟨hage.isDecodeEvent, hdecode⟩
        | some value =>
          obtain ⟨payload, hpayload, rfl⟩ := hload value rfl
          refine wp_of_records (records_serveRecovered key frame maxAgeSec value) ?_
          rintro v r ⟨hdecode', hserve⟩
          refine ⟨t ++ loadEvent redis key payload (.ok value) :: v, by simp, ?_, ?_⟩
          · exact List.forall_mem_append.mpr ⟨hage.isDecodeEvent,
              List.forall_mem_cons.mpr ⟨rfl, hdecode'⟩⟩
          · rintro v' hv
            obtain ⟨rfl, after, hvalid', hafter⟩ := hserve v' hv
            exact ⟨frame, rfl, payload, _, after, t, v, hpayload, rfl, hvalid, hvalid', hbefore,
              hafter⟩

end DialCache.RedisTraces
