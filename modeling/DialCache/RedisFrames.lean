import Mathlib.Data.List.Basic
import Mathlib.Tactic.Ring
import DialCache.Binary64Integers
import DialCache.DecimalText
import DialCache.UnicodeText
import DialCache.JsValues

/-!
# Redis frames

The wire frame of a cached value: version, big-endian timestamp, payload encoding and
payload. A tracked read pairs the frame with the entity's watermark, which fences every
frame stamped at or before it.
-/

namespace DialCache.RedisFrames

open Binary64Integers DecimalText UnicodeText JsValues

/-- A serialized payload: a JavaScript string or a buffer. -/
inductive RedisCachePayload where
  | text (units : List UInt16)
  | binary (bytes : Bytes)
deriving DecidableEq

/-- A raw reply of the Redis driver. -/
inductive RawReply where
  | null
  | buffer (bytes : Bytes)
  | other
deriving DecidableEq

inductive CacheMissReason where
  | valueAbsent
  | expired
  | watermarkFenced
  | unclassified
deriving DecidableEq

structure DecodedRedisFrame where
  payload : RedisCachePayload
  createdAtMs : ℕ
deriving DecidableEq

structure RedisReadMiss where
  reason : CacheMissReason
  observedWatermarkMs : Option ℕ
deriving DecidableEq

inductive RedisReadResult where
  | frame (frame : DecodedRedisFrame)
  | miss (miss : RedisReadMiss)
deriving DecidableEq

/-- The typed errors of the wire protocol, with their messages. -/
inductive ProtocolError where
  | redisPayloadError (message : String)
  | redisPayloadEncodingError (message : String)
  | rangeError (message : String)
deriving DecidableEq

def redisFrameVersion : UInt8 := 1
def redisEncodingUtf8 : UInt8 := 0
def redisEncodingBinary : UInt8 := 1
def redisFrameTimestampOffset : ℕ := 1
def redisFrameTimestampBytes : ℕ := 8
def redisFrameHeaderBytes : ℕ := redisFrameTimestampOffset + redisFrameTimestampBytes
def redisFrameMinBytes : ℕ := redisFrameHeaderBytes + 1

/-- `writeBigUInt64BE`: the low `width` bytes of `n`, most significant first. -/
def bigEndian : ℕ → ℕ → Bytes
  | 0, _ => []
  | width + 1, n => UInt8.ofNat (n / 256 ^ width) :: bigEndian width n

/-- `readBigUInt64BE` on the bytes given. -/
def readBigEndian (bytes : Bytes) : ℕ := bytes.foldl (fun n b => 256 * n + b.toNat) 0

def redisReadMiss (reason : CacheMissReason) (observedWatermarkMs : Option ℕ) : RedisReadResult :=
  .miss ⟨reason, observedWatermarkMs⟩

def validateRedisBulkStringReply : RawReply → Except ProtocolError (Option Bytes)
  | .null => .ok none
  | .buffer bytes => .ok (some bytes)
  | .other => .error (.redisPayloadError
      "Invalid DialCache Redis read reply; expected a bulk string or null")

def isSupportedRedisFrame (raw : Bytes) : Bool :=
  redisFrameMinBytes ≤ raw.length && raw.head? == some redisFrameVersion

def parseRedisWatermark (raw : Bytes) : Option ℕ :=
  let text := units (decodeUtf8 raw)
  if isDigits (text.map UInt16.toNat) then
    let watermark := nearest (value (text.map UInt16.toNat))
    if watermark ≤ JsNumber.maxSafeInteger then some watermark else none
  else none

def decodeRedisPayload (raw : Bytes) : Except ProtocolError RedisCachePayload :=
  let encoding := raw.head?
  let payload := raw.drop 1
  if encoding = some redisEncodingUtf8 then .ok (.text (units (decodeUtf8 payload)))
  else if encoding = some redisEncodingBinary then .ok (.binary payload)
  else .error (.redisPayloadEncodingError "Invalid DialCache Redis payload encoding")

/-- The bytes of a payload inside the frame. -/
def payloadBytes : RedisCachePayload → Bytes
  | .text us => encodeUtf8 (scalars us)
  | .binary bytes => bytes

def payloadEncoding : RedisCachePayload → UInt8
  | .text _ => redisEncodingUtf8
  | .binary _ => redisEncodingBinary

/-- A frame with a stamp that fits its eight bytes. -/
def frameBytes (payload : RedisCachePayload) (stamp : ℕ) : Bytes :=
  redisFrameVersion :: bigEndian redisFrameTimestampBytes stamp ++
    payloadEncoding payload :: payloadBytes payload

def encodeRedisFrame (payload : RedisCachePayload) (createdAtMs : JsNumber) :
    Except ProtocolError Bytes :=
  match (JsValue.number createdAtMs).natural? with
  | none => .error (.rangeError "DialCache frame createdAtMs must be a nonnegative safe integer")
  | some stamp => .ok (frameBytes payload stamp)

def readFrameCreatedAtMs (frame : Bytes) : ℕ :=
  nearest (readBigEndian ((frame.drop redisFrameTimestampOffset).take redisFrameTimestampBytes))

def decodedRedisFrame (frame : Bytes) : Except ProtocolError DecodedRedisFrame := do
  let payload ← decodeRedisPayload (frame.drop redisFrameHeaderBytes)
  return ⟨payload, readFrameCreatedAtMs frame⟩

def decodeTrackedFrame (frame : Bytes) (observedWatermarkMs : Option ℕ) :
    Except ProtocolError RedisReadResult :=
  let createdAtMs := readFrameCreatedAtMs frame
  if createdAtMs = 0 then .ok (redisReadMiss .unclassified observedWatermarkMs)
  else if observedWatermarkMs.any (createdAtMs ≤ ·) then
    .ok (redisReadMiss .watermarkFenced observedWatermarkMs)
  else (decodedRedisFrame frame).map .frame

def decodeRedisReadResult (raw : RawReply) : Except ProtocolError RedisReadResult := do
  match ← validateRedisBulkStringReply raw with
  | none => return redisReadMiss .valueAbsent none
  | some frame =>
    if !isSupportedRedisFrame frame then return redisReadMiss .unclassified none
    else (decodedRedisFrame frame).map .frame

def decodeTrackedRedisReadResult (raw rawWatermark : RawReply) :
    Except ProtocolError RedisReadResult := do
  let frame ← validateRedisBulkStringReply raw
  let watermarkFrame ← validateRedisBulkStringReply rawWatermark
  match frame with
  | none => return redisReadMiss .valueAbsent (watermarkFrame.bind parseRedisWatermark)
  | some frame =>
    if !isSupportedRedisFrame frame then
      return redisReadMiss .unclassified (watermarkFrame.bind parseRedisWatermark)
    else
      match watermarkFrame with
      | none => decodeTrackedFrame frame none
      | some watermarkBytes =>
        match parseRedisWatermark watermarkBytes with
        | none => return redisReadMiss .unclassified none
        | some watermark => decodeTrackedFrame frame (some watermark)

@[simp] theorem length_bigEndian (width n : ℕ) : (bigEndian width n).length = width := by
  induction width with
  | zero => rfl
  | succ width ih => simp [bigEndian, ih]

theorem readBigEndian_bigEndian_aux (width n start : ℕ) :
    (bigEndian width n).foldl (fun n b => 256 * n + b.toNat) start =
      start * 256 ^ width + n % 256 ^ width := by
  induction width generalizing start with
  | zero => simp [bigEndian, Nat.mod_one]
  | succ width ih =>
    have hmod : n % 256 ^ (width + 1) = n % 256 ^ width + 256 ^ width * (n / 256 ^ width % 256) := by
      rw [pow_succ, Nat.mod_mul]
    have hbyte : (UInt8.ofNat (n / 256 ^ width)).toNat = n / 256 ^ width % 256 := by
      simp
    rw [bigEndian, List.foldl_cons, ih, hbyte, hmod]
    ring

theorem readBigEndian_bigEndian {width n : ℕ} (h : n < 256 ^ width) :
    readBigEndian (bigEndian width n) = n := by
  rw [readBigEndian, readBigEndian_bigEndian_aux, Nat.mod_eq_of_lt h]
  simp

/-- What the decoder returns for a stored payload: buffers unchanged, strings with every
unpaired surrogate replaced. -/
def storedPayload : RedisCachePayload → RedisCachePayload
  | .text us => .text (toWellFormed us)
  | .binary bytes => .binary bytes

variable (payload : RedisCachePayload)

theorem isSupportedRedisFrame_frameBytes (stamp : ℕ) :
    isSupportedRedisFrame (frameBytes payload stamp) = true := by
  simp only [isSupportedRedisFrame, frameBytes, redisFrameMinBytes, redisFrameHeaderBytes,
    redisFrameTimestampOffset, redisFrameTimestampBytes, List.cons_append, List.length_cons,
    List.length_append, length_bigEndian, List.head?_cons, BEq.rfl, Bool.and_true, decide_eq_true_eq]
  omega

variable {stamp : ℕ}

theorem readFrameCreatedAtMs_frameBytes (h : stamp ≤ JsNumber.maxSafeInteger) :
    readFrameCreatedAtMs (frameBytes payload stamp) = stamp := by
  have hlt : stamp < 2 ^ 53 := by
    unfold JsNumber.maxSafeInteger at h
    omega
  have htake : ((frameBytes payload stamp).drop redisFrameTimestampOffset).take
      redisFrameTimestampBytes = bigEndian 8 stamp := by
    simp [frameBytes, redisFrameTimestampOffset, redisFrameTimestampBytes]
  rw [readFrameCreatedAtMs, htake, readBigEndian_bigEndian (by omega), nearest_of_lt hlt]

theorem decodedRedisFrame_frameBytes (h : stamp ≤ JsNumber.maxSafeInteger) :
    decodedRedisFrame (frameBytes payload stamp) = .ok ⟨storedPayload payload, stamp⟩ := by
  have hdrop : (frameBytes payload stamp).drop redisFrameHeaderBytes =
      payloadEncoding payload :: payloadBytes payload := by
    simp [frameBytes, redisFrameHeaderBytes, redisFrameTimestampOffset, redisFrameTimestampBytes]
  have hpayload : decodeRedisPayload (payloadEncoding payload :: payloadBytes payload) =
      .ok (storedPayload payload) := by
    cases payload with
    | text us => simp [decodeRedisPayload, payloadEncoding, payloadBytes, storedPayload, toWellFormed]
    | binary bytes =>
      simp [decodeRedisPayload, payloadEncoding, payloadBytes, storedPayload, redisEncodingBinary,
        redisEncodingUtf8]
  rw [decodedRedisFrame, hdrop, hpayload, readFrameCreatedAtMs_frameBytes payload h]
  rfl

/-- A stored frame under a watermark: fenced unless its stamp is above it. -/
theorem decodeTrackedFrame_frameBytes (h : stamp ≤ JsNumber.maxSafeInteger) (watermark : Option ℕ) :
    decodeTrackedFrame (frameBytes payload stamp) watermark =
      if stamp = 0 then .ok (redisReadMiss .unclassified watermark)
      else if watermark.any (stamp ≤ ·) then .ok (redisReadMiss .watermarkFenced watermark)
      else .ok (.frame ⟨storedPayload payload, stamp⟩) := by
  rw [decodeTrackedFrame, readFrameCreatedAtMs_frameBytes payload h,
    decodedRedisFrame_frameBytes payload h]
  rfl

theorem parseRedisWatermark_decimalBytes {n : ℕ} (h : n ≤ JsNumber.maxSafeInteger) :
    parseRedisWatermark (decimalBytes n) = some n := by
  have hascii : ∀ c ∈ decimal n, c < 128 := fun c hc => lt_of_mem_decimal hc
  have htext : (units (decodeUtf8 (decimalBytes n))).map UInt16.toNat = decimal n := by
    have hunit : ∀ c ∈ decimal n, (UInt16.toNat ∘ UInt16.ofNat) c = id c := by
      intro c hc
      have := hascii c hc
      simp only [Function.comp_apply, UInt16.toNat_ofNat', id_eq]
      omega
    rw [decimalBytes, decodeUtf8_ascii _ hascii, units_ascii _ hascii, List.map_map,
      List.map_congr_left hunit, List.map_id]
  have hlt : n < 2 ^ 53 := by
    unfold JsNumber.maxSafeInteger at h
    omega
  simp only [parseRedisWatermark, htext, isDigits_decimal, value_decimal, nearest_of_lt hlt,
    if_true, if_pos h]

/-- Decoding a stored frame with no watermark, an unreadable one, or a valid one. -/
theorem decodeTrackedRedisReadResult_frameBytes (stamp : ℕ) :
    decodeTrackedRedisReadResult (.buffer (frameBytes payload stamp)) .null =
        decodeTrackedFrame (frameBytes payload stamp) none ∧
      ∀ bytes, decodeTrackedRedisReadResult (.buffer (frameBytes payload stamp)) (.buffer bytes) =
        match parseRedisWatermark bytes with
        | none => .ok (redisReadMiss .unclassified none)
        | some watermark => decodeTrackedFrame (frameBytes payload stamp) (some watermark) := by
  have hs := isSupportedRedisFrame_frameBytes payload stamp
  constructor
  · simp [decodeTrackedRedisReadResult, validateRedisBulkStringReply, hs, bind, Except.bind]
  · intro bytes
    simp only [decodeTrackedRedisReadResult, validateRedisBulkStringReply, hs, bind, Except.bind,
      Bool.not_true, Bool.false_eq_true, if_false]
    cases parseRedisWatermark bytes <;> rfl

/-- A hit on a stored frame carries its stamp, which no valid watermark reaches. -/
theorem hit_of_decodeTrackedFrame {payload : RedisCachePayload}
    (h : stamp ≤ JsNumber.maxSafeInteger) {watermark : Option ℕ} {frame : DecodedRedisFrame}
    (hit : decodeTrackedFrame (frameBytes payload stamp) watermark = .ok (.frame frame)) :
    frame.createdAtMs = stamp ∧ ∀ w, watermark = some w → w < stamp := by
  rw [decodeTrackedFrame_frameBytes payload h] at hit
  split at hit
  · cases hit
  · split at hit
    · cases hit
    · rename_i hfence
      cases hit
      refine ⟨rfl, ?_⟩
      rintro w rfl
      simpa using hfence

end DialCache.RedisFrames
