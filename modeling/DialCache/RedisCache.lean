import DialCache.CacheOperations
import DialCache.InvalidationScript

/-!
# The Redis layer

Reading, recovering and writing one key through the Redis client. Replies of the client
pass one trust boundary, `validateReadResult`; stamps are judged against samples of the
application clock, which may jump in either direction between two samples.
-/

namespace DialCache.RedisCache

open AsyncPrograms CacheKeys CacheOperations JsValues RedisFrames RuntimeConfig PayloadEnvelope
open InvalidationScript (maxTrackedRedisValueTtlMs)

variable {V X : Type}

/-- The configured Redis layer of an instance. -/
structure RedisSettings (X : Type) where
  compression : Option CompressionConfig
  zstd : Zstd (Failure X)
  readTimeoutMs : DeadlineMs

/-- An adapter result behind the trust boundary. -/
inductive ReadResult (X : Type) where
  | miss (miss : RedisReadMiss)
  | frame (frame : ReplyObject X)

inductive FrameAgeResult where
  | valid (ageMs : JsNumber)
  | future
  | invalid
deriving DecidableEq

inductive FutureFramePolicy where
  | reject
  | retain
deriving DecidableEq

inductive RedisCacheMissReason where
  | cacheMiss
  | deserializationError
deriving DecidableEq

inductive RedisCacheGetResult (V X : Type) where
  | hit (value : V) (frame : ReplyObject X)
  | retained (frame : ReplyObject X) (config : ResolvedRemoteLayerConfig)
  | miss (config : ResolvedRemoteLayerConfig) (reason : RedisCacheMissReason)
      (observedWatermarkMs : Option ℕ)

def isMissKind : JsValue → Bool
  | .string kind => kind == text "miss"
  | _ => false

def isCacheMissReason : JsValue → Option CacheMissReason
  | .string reason =>
    if reason = text "value_absent" then some .valueAbsent
    else if reason = text "expired" then some .expired
    else if reason = text "watermark_fenced" then some .watermarkFenced
    else if reason = text "unclassified" then some .unclassified
    else none
  | _ => none

variable (redis : RedisSettings X) (key : DialCacheKey)

/-- The fence of a miss: it survives only as a valid timestamp on a tracked key. -/
def validatedFence (members : ReplyObject X) : Except X (Option ℕ) :=
  if key.trackForInvalidation then do return (← members.observedWatermarkMs).natural?
  else .ok none

def validatedMiss (members : ReplyObject X) : Except X RedisReadMiss := do
  let reason := (isCacheMissReason (← members.reason)).getD .unclassified
  let observedWatermarkMs ← validatedFence key members
  return ⟨if reason = .watermarkFenced ∧ observedWatermarkMs = none then .unclassified else reason,
    observedWatermarkMs⟩

def unclassified : ReadResult X := .miss ⟨.unclassified, none⟩

def validateReadResult : Reply X → ReadResult X
  | .nonObject => unclassified
  | .object members =>
    match members.kind with
    | .error _ => unclassified
    | .ok kind =>
      if isMissKind kind then
        match validatedMiss key members with
        | .ok miss => .miss miss
        | .error _ => unclassified
      else .frame members

/-- Read a member of a reply. -/
def getMember {α : Type} (member : Except X α) : Async V X α :=
  Program.ofExcept (member.mapError .thrown)

/-- Read `frame.createdAtMs`; which read of the frame it is, is not known. -/
def readStamp (frame : ReplyObject X) : Async V X (Stamp X) := do
  getMember (frame.createdAtMs (← act .reading))

/-- Read `frame.createdAtMs` as the operand of an operator. -/
def readNumber (frame : ReplyObject X) : Async V X JsNumber := do
  getMember (← readStamp frame).numeric

/-- The offset is recorded if it is finite. -/
def recordOffset (layer : MetricLayer) (readerNowMs : ℤ) : JsNumber → Async V X Unit
  | .finite createdAtMs => observe
      (.observeFutureTimestampOffset (labelsFor key layer) ((createdAtMs - readerNowMs) / 1000))
  | _ => return ()

/-- The stamp is read for its check, for the comparison and for the difference. -/
def frameAge (frame : ReplyObject X) (layer : MetricLayer) : Async V X FrameAgeResult := do
  match (← readStamp frame).value.natural? with
  | none => return .invalid
  | some _ =>
    let readerNowMs ← dateNow
    if (← readNumber frame).isAbove readerNowMs then
      recordOffset key layer readerNowMs (← readNumber frame)
      return .future
    else return .valid ((← readNumber frame).subtractFrom readerNowMs)

def validateFrameAge (result : ReadResult X) (maxAgeMs : Option ℕ) (layer : MetricLayer)
    (futureFramePolicy : FutureFramePolicy) : Async V X (ReadResult X) :=
  match result with
  | .miss miss => return .miss miss
  | .frame frame => do
    match ← frameAge key frame layer with
    | .future =>
      return if futureFramePolicy = .reject then unclassified else .frame frame
    | .invalid => return unclassified
    | .valid ageMs =>
      return if maxAgeMs.all (ageMs.isBelow ·) then .frame frame else .miss ⟨.expired, none⟩

/-- The marked form of a payload, or the payload as it came. -/
def decompress : Payload → Payload × CompressionReadOutcome
  | .typed payload =>
    let result := decompressPayload redis.zstd payload
    (.typed result.payload, result.outcome)
  | .foreign bytes => (.foreign bytes, .passthrough)

def recordDecompression (layer : MetricLayer) (startMs : ℚ) (outcome : CompressionReadOutcome) :
    Async V X Unit :=
  if outcome = .passthrough then return ()
  else do
    observe (.compressionRead (labelsFor key layer) outcome)
    observe (.observeCompression (labelsFor key layer) .decompress (← elapsedSeconds startMs))

def loadPayload (payload : Payload) : Async V X V := do
  Program.ofExcept (← act (.load key payload))

def deserializePayload (payload : Payload) (layer : MetricLayer) : Async V X V := do
  let decompressStart ← performanceNow
  recordDecompression key layer decompressStart (decompress redis payload).2
  let start ← performanceNow
  Program.andFinally
    (tryCatch (loadPayload key (decompress redis payload).1) fun e => do
      recordError key layer .serializationLoad
      throw e)
    (do observe (.observeSerialization (labelsFor key layer) .load (← elapsedSeconds start)))

def readRequest : RedisReadRequest :=
  ⟨redisKey key, if key.trackForInvalidation then some (redisWatermarkKeyFromKey key) else none⟩

def startRawPayloadRead (readTimeoutMs : ℕ) : Async V X ℕ := do
  let read : ℕ ← act (.read (.start (readRequest key) key.useCase readTimeoutMs))
  act (.read (.arm read))
  return read

/-- The promise `result` of a started raw read. -/
def rawReadResult (read : ℕ) : Async V X (ReadResult X) := do
  let reply ← Program.ofExcept (← act (.read (.settled read)))
  return validateReadResult key reply

def readErrorKind : Failure X → MetricErrorKind
  | .redisReadTimeout _ _ => .cacheReadTimeout
  | _ => .cacheRead

/-- The awaited raw read of a serving call. -/
def readSnapshot (readTimeoutMs : ℕ) : Async V X (ReadResult X) :=
  tryCatch
    (do
      let read ← startRawPayloadRead key readTimeoutMs
      awaited (rawReadResult key read))
    fun e => do
      recordError key .REMOTE (readErrorKind e)
      throw e

def recordMiss (layer : MetricLayer) (reason : CacheMissReason) : Async V X Unit :=
  observe (.miss (labelsFor key layer) reason)

variable (config : ResolvedRemoteLayerConfig)

/-- Load the payload of a fresh frame. -/
def decodeFresh (frame : ReplyObject X) : Async V X (RedisCacheGetResult V X) :=
  tryCatch
    (do
      let payload ← getMember frame.payload
      let value ← awaited (deserializePayload redis key payload .REMOTE)
      return .hit value frame)
    fun _ => do
      recordMiss key .REMOTE .unclassified
      return .miss config .deserializationError none

/-- Classify the snapshot of a read by one clock sample. -/
def classifyFrame (frame : ReplyObject X) : Async V X (RedisCacheGetResult V X) := do
  match ← frameAge key frame .REMOTE with
  | .valid ageMs =>
    if ageMs.isAtLeast (cacheTtlSecToMs (config.staleOnErrorMaxAgeSec.getD config.ttlSec)) then
      recordMiss key .REMOTE .expired
      return .miss config .cacheMiss none
    else if ageMs.isAtLeast (cacheTtlSecToMs config.ttlSec) then
      recordMiss key .REMOTE .expired
      return .retained frame config
    else decodeFresh redis key config frame
  | _ =>
    recordMiss key .REMOTE .unclassified
    return .miss config .cacheMiss none

def classifyRead : ReadResult X → Async V X (RedisCacheGetResult V X)
  | .miss miss => do
    recordMiss key .REMOTE miss.reason
    return .miss config .cacheMiss miss.observedWatermarkMs
  | .frame frame => classifyFrame redis key config frame

def getWithResolvedConfig (readTimeoutMs : ℕ) : Async V X (RedisCacheGetResult V X) := do
  let start ← performanceNow
  observe (.request (labelsFor key .REMOTE))
  Program.andFinally
    (do classifyRead redis key config (← readSnapshot key readTimeoutMs))
    (do observe (.observeGet (labelsFor key .REMOTE) (← elapsedSeconds start)))

def recordStaleRecovery (outcome : StaleRecoveryOutcome) : Async V X Unit :=
  observe (.staleRecovery (keyLabels key) outcome)

/-- `age.status !== "valid" || age.ageMs >= maximumAgeMs`, negated. -/
def FrameAgeResult.below (maximumAgeMs : ℕ) : FrameAgeResult → Option JsNumber
  | .valid ageMs => if ageMs.isAtLeast maximumAgeMs then none else some ageMs
  | _ => none

/-- The last step of a recovery: the age is checked again before the value serves. -/
def serveRecovered (frame : ReplyObject X) (maxAgeSec : ℕ) (value : V) : Async V X (Option V) := do
  match (← frameAge key frame .REMOTE).below (cacheTtlSecToMs maxAgeSec) with
  | none =>
    recordStaleRecovery key .miss
    return none
  | some ageMs =>
    recordStaleRecovery key .served
    observe (.observeStaleRecoveryValueAge (keyLabels key) .served ageMs.seconds)
    return some value

def loadRetained (frame : ReplyObject X) : Async V X (Option V) :=
  tryCatch
    (do
      let payload ← getMember frame.payload
      let value ← awaited (deserializePayload redis key payload .REMOTE)
      return some value)
    fun _ => do
      recordStaleRecovery key .deserializationError
      return none

/-- Recover from the frame that the initial read retained; `none` is a miss. -/
def recoverRetainedCandidate (frame : Option (ReplyObject X)) (maxAgeSec : ℕ) :
    Async V X (Option V) :=
  match frame with
  | none => do
    recordStaleRecovery key .miss
    return none
  | some frame => do
    match (← frameAge key frame .REMOTE).below (cacheTtlSecToMs maxAgeSec) with
    | none =>
      recordStaleRecovery key .miss
      return none
    | some _ =>
      match ← loadRetained redis key frame with
      | none => return none
      | some value => serveRecovered key frame maxAgeSec value

def deserializeForShadow (payload : Payload) : Async V X V :=
  awaited (deserializePayload redis key payload .remoteShadow)

/-- A started shadow read: its number and when it was started. -/
structure StartedRedisRead where
  read : ℕ
  startedAtMs : ℚ

def startPayloadReadForShadow (readTimeoutMs : ℕ) : Async V X StartedRedisRead := do
  let start ← performanceNow
  observe (.request (labelsFor key .remoteShadow))
  let read ← startRawPayloadRead key readTimeoutMs
  return ⟨read, start⟩

def recordReadMiss (layer : MetricLayer) : ReadResult X → Async V X (ReadResult X)
  | .miss miss => do
    recordMiss key layer miss.reason
    return .miss miss
  | .frame frame => return .frame frame

/-- The promise `result` of a started shadow read. -/
def shadowReadResult (started : StartedRedisRead) (maxAgeSec : Option ℕ)
    (futureFramePolicy : FutureFramePolicy) : Async V X (ReadResult X) :=
  awaited (Program.andFinally
    (tryCatch
      (do
        let result ← awaited (rawReadResult key started.read)
        let result ← awaited (validateFrameAge key result (maxAgeSec.map cacheTtlSecToMs)
          .remoteShadow futureFramePolicy)
        recordReadMiss key .remoteShadow result)
      fun e => do
        recordError key .remoteShadow (readErrorKind e)
        throw e)
    (do observe (.observeGet (labelsFor key .remoteShadow) (← elapsedSeconds started.startedAtMs))))

def sampleWriteTimestamp (layer : MetricLayer) : Async V X ℕ := do
  let createdAtMs ← dateNow
  match (JsValue.number (.ofInt createdAtMs)).natural? with
  | some stamp => return stamp
  | none =>
    recordError key layer .cacheWrite
    throw (.error "DialCache Redis timestamp must be a nonnegative safe integer")

/-- A stamp for a write fenced by `observedWatermarkMs`; `none` if the clock has not passed
the fence. An unfenced write is stamped by the adapter. -/
def stampAbove (layer : MetricLayer) (observedWatermarkMs : Option ℕ) :
    Async V X (Option (Option ℕ)) :=
  match observedWatermarkMs with
  | none => return some none
  | some watermark => do
    let stamp ← sampleWriteTimestamp key layer
    return if stamp ≤ watermark then none else some (some stamp)

def dumpValue (value : V) (layer : MetricLayer) : Async V X Payload := do
  let start ← performanceNow
  Program.andFinally
    (tryCatch
      (do
        act (.dump key value)
        Program.ofExcept (← act .dumped))
      fun e => do
        recordError key layer .serializationDump
        throw e)
    (do observe (.observeSerialization (labelsFor key layer) .dump (← elapsedSeconds start)))

def payloadSize : Payload → Option ℕ
  | .typed payload => some (payloadBytes payload).length
  | .foreign bytes => bytes.map List.length

/-- Record a size, unless computing it throws. -/
def recordSize (observation : ℕ → Observation X) (payload : Payload) : Async V X Unit :=
  match payloadSize payload with
  | some bytes => observe (observation bytes)
  | none => return ()

structure Compressed where
  payload : Payload
  outcome : CompressionWriteOutcome
  originalBytes : ℕ
  storedBytes : ℕ

def escapeRaw : Payload → Payload
  | .typed payload => .typed (escapeRawPayload payload)
  | .foreign bytes => .foreign bytes

/-- `compressPayload` on any serializer output: what is not a buffer is measured and
compressed as a string is. -/
def compress (config : CompressionConfig) : Payload → Except (Failure X) Compressed
  | .typed payload => do
    let result ← compressPayload redis.zstd payload config
    return ⟨.typed result.payload, result.outcome, result.originalBytes, result.storedBytes⟩
  | .foreign none => .error (.error
      "The \"string\" argument must be of type string or an instance of Buffer or ArrayBuffer.")
  | .foreign (some bytes) => do
    let raw := fun outcome => Compressed.mk (.foreign (some bytes)) outcome bytes.length bytes.length
    if bytes.length < config.thresholdBytes then return raw .belowThreshold
    else if bytes.length > maxDecompressedBytes then return raw .writeOverLimit
    else
      let compressed ← redis.zstd.compress config.level bytes
      if 1 + compressed.length ≥ bytes.length then return raw .notSmaller
      else return ⟨.typed (.binary (markerZstdUtf8 :: compressed)), .compressed, bytes.length,
        1 + compressed.length⟩

def recordCompression (layer : MetricLayer) (startMs : ℚ) (result : Compressed) : Async V X Unit :=
  match result.outcome with
  | .compressed => do
    observe (.observeCompression (labelsFor key layer) .compress (← elapsedSeconds startMs))
    observe (.observeCompressionRatio (labelsFor key layer)
      (result.storedBytes / result.originalBytes))
  | .notSmaller => do
    observe (.observeCompression (labelsFor key layer) .compress (← elapsedSeconds startMs))
  | _ => return ()

/-- What is stored for a serialized value. -/
def storedForm (layer : MetricLayer) (serialized : Payload) : Async V X Payload :=
  match redis.compression with
  | none => return escapeRaw serialized
  | some config => do
    let start ← performanceNow
    match compress redis config serialized with
    | .error e =>
      recordError key layer .compression
      throw e
    | .ok result =>
      observe (.compressionWrite (labelsFor key layer) result.outcome)
      recordCompression key layer start result
      return result.payload

def serialize (value : V) (layer : MetricLayer) : Async V X Payload := do
  let serialized ← dumpValue key value layer
  recordSize (.observeSize (labelsFor key layer)) serialized
  let stored ← storedForm redis key layer serialized
  recordSize (.observeStoredSize (labelsFor key layer)) stored
  return stored

/-- The lifetime of a written value; tracked ones are capped. -/
def cacheTtlMs (ttlSec : ℕ) : ℕ :=
  if key.trackForInvalidation then min (cacheTtlSecToMs ttlSec) maxTrackedRedisValueTtlMs
  else cacheTtlSecToMs ttlSec

def recordClamp (layer : MetricLayer) (ttlSec : ℕ) : Async V X Unit :=
  if cacheTtlMs key ttlSec < cacheTtlSecToMs ttlSec then recordError key layer .trackedTtlClamped
  else return ()

def clientWrite (layer : MetricLayer) (request : RedisWriteRequest) : Async V X Unit :=
  tryCatch
    (do
      act (.write request)
      Program.ofExcept (← act .written))
    fun e => do
      recordError key layer .cacheWrite
      throw e

/-- Stamp and dispatch a serialized value, unless the fence has caught up with it. -/
def dispatch (ttlSec : ℕ) (layer : MetricLayer) (observedWatermarkMs : Option ℕ)
    (stored : Payload) : Async V X Bool := do
  match ← stampAbove key layer observedWatermarkMs with
  | none => return false
  | some createdAtMs =>
    recordClamp key layer ttlSec
    clientWrite key layer ⟨redisKey key, cacheTtlMs key ttlSec, stored, createdAtMs⟩
    return true

/-- `shouldWrite` is asked between serialization and dispatch. -/
def putWithLayer (value : V) (ttlSec : ℕ) (layer : MetricLayer) (shouldWrite : Async V X Bool)
    (fenceMs : Option ℕ) : Async V X Bool := do
  let observedWatermarkMs := if key.trackForInvalidation then fenceMs else none
  match ← stampAbove key layer observedWatermarkMs with
  | none => return false
  | some _ =>
    let stored ← serialize redis key value layer
    if ← shouldWrite then dispatch key ttlSec layer observedWatermarkMs stored
    else return false

def retentionTtlSecFor : ℕ :=
  config.staleOnErrorMaxAgeSec.getD config.ttlSec

def put (value : V) (config : ResolvedRemoteLayerConfig) (observedWatermarkMs : Option ℕ) :
    Async V X Unit := do
  let _ ← awaited (putWithLayer redis key value (retentionTtlSecFor config) .REMOTE (return true)
    observedWatermarkMs)

def putForShadow (value : V) (config : ResolvedRemoteLayerConfig) (shouldWrite : Async V X Bool)
    (observedWatermarkMs : Option ℕ) : Async V X Bool :=
  awaited (putWithLayer redis key value (retentionTtlSecFor config) .remoteShadow shouldWrite
    observedWatermarkMs)

end DialCache.RedisCache
