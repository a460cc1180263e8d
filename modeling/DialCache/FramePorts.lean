import DialCache.KeyAgreement
import DialCache.RedisCache
import DialCache.Utf8Replacement

/-!
# Frames in four ports

The wire form of a cached value and the classification of what a read returns, first as one
portable definition and then as TypeScript, Go, Rust and Python compute them. A port decodes
the raw replies and then passes the result through its core, which trusts no timestamp past
the safe integers.
-/

namespace DialCache.FramePorts

open UnicodeText JsValues DecimalText Binary64Integers RedisFrames PortableKeys Utf8Replacement

/-- A serialized payload: text of Unicode scalars, or bytes. -/
inductive PortablePayload where
  | text (value : Text)
  | binary (bytes : Bytes)
deriving DecidableEq

/-- What a read amounts to. -/
inductive Classified where
  | hit (payload : PortablePayload) (createdAtMs : ℕ)
  | miss (reason : CacheMissReason) (observedWatermarkMs : Option ℕ)
deriving DecidableEq

/-- A wire failure that is an error rather than a miss. -/
inductive WireError where
  | payloadEncoding
  | other
deriving DecidableEq

abbrev maxSafeInteger : ℕ := JsNumber.maxSafeInteger

/-! ### The portable definition -/

def PortablePayload.bytes : PortablePayload → Bytes
  | .text value => encodeUtf8 value
  | .binary bytes => bytes

def PortablePayload.tag : PortablePayload → UInt8
  | .text _ => 0
  | .binary _ => 1

def encodeFrame (payload : PortablePayload) (createdAtMs : ℕ) : Bytes :=
  1 :: (bigEndian 8 createdAtMs ++ payload.tag :: payload.bytes)

/-- A nonempty run of ASCII digits whose value is a safe integer. -/
def watermarkValue (raw : Bytes) : Option ℕ :=
  if isDigits (codes raw) ∧ value (codes raw) ≤ maxSafeInteger then some (value (codes raw))
  else none

def decodePayload (tag : UInt8) (bytes : Bytes) : Except WireError PortablePayload :=
  if tag = 0 then .ok (.text (decodeUtf8 bytes))
  else if tag = 1 then .ok (.binary bytes)
  else .error .payloadEncoding

def stampOf (frame : Bytes) : ℕ := readBigEndian ((frame.drop 1).take 8)

/-- The core's view of a decoded frame. -/
def trusted (payload : PortablePayload) (stamp : ℕ) : Classified :=
  if stamp ≤ maxSafeInteger then .hit payload stamp else .miss .unclassified none

/-- Classify a complete frame of the supported version. -/
def classifyFrame (frame : Bytes) (tracked markerValid : Bool) (fence : Option ℕ) :
    Except WireError Classified :=
  if tracked = true ∧ (markerValid = false ∨ stampOf frame = 0) then .ok (.miss .unclassified fence)
  else if fence.any (stampOf frame ≤ ·) then .ok (.miss .watermarkFenced fence)
  else (decodePayload ((frame.drop 9).headD 0) (frame.drop 10)).map (trusted · (stampOf frame))

def isSupported (frame : Bytes) : Bool := 10 ≤ frame.length && frame.head? == some 1

/-- Classify a raw value and the raw watermark read with it. -/
def classify (raw : Option Bytes) (tracked : Bool) (watermark : Option Bytes) :
    Except WireError Classified :=
  let fence := if tracked then watermark.bind watermarkValue else none
  let markerValid := watermark.all fun bytes => (watermarkValue bytes).isSome
  match raw with
  | none => .ok (.miss .valueAbsent fence)
  | some frame =>
    if isSupported frame then classifyFrame frame tracked markerValid fence
    else .ok (.miss .unclassified fence)

/-! ### TypeScript -/

namespace TypeScript

open RedisCache CacheOperations CacheKeys

def payload : PortablePayload → RedisCachePayload
  | .text value => .text (units value)
  | .binary bytes => .binary bytes

def portable : RedisCachePayload → PortablePayload
  | .text us => .text (scalars us)
  | .binary bytes => .binary bytes

def encodeFrame (value : PortablePayload) (createdAtMs : ℕ) : Except ProtocolError Bytes :=
  encodeRedisFrame (payload value) (.ofInt createdAtMs)

def reply : Option Bytes → RawReply
  | none => .null
  | some bytes => .buffer bytes

def reasonText : CacheMissReason → JsString
  | .valueAbsent => text "value_absent"
  | .expired => text "expired"
  | .watermarkFenced => text "watermark_fenced"
  | .unclassified => text "unclassified"

def timestamp (ms : ℕ) : JsValue := .number (.ofInt ms)

/-- A decoded result as the object that the adapter hands to the core. -/
def adapterReply : RedisReadResult → Reply Empty
  | .miss miss => .object {
      kind := .ok (.string (text "miss"))
      reason := .ok (.string (reasonText miss.reason))
      observedWatermarkMs := .ok ((miss.observedWatermarkMs.map timestamp).getD .undefined)
      createdAtMs := fun _ => .ok .undefined
      payload := .ok (.foreign none) }
  | .frame frame => .object {
      kind := .ok .undefined
      reason := .ok .undefined
      observedWatermarkMs := .ok .undefined
      createdAtMs := fun _ => .ok (.ofNumber (.ofInt frame.createdAtMs))
      payload := .ok (.typed frame.payload) }

/-- The core's checks on an adapter reply, up to the reader's clock: the shape of the result
and the timestamp that `frameAge` requires of a frame. -/
def core (key : DialCacheKey) (reply : Reply Empty) : Except WireError Classified :=
  match validateReadResult key reply with
  | .miss miss => .ok (.miss miss.reason miss.observedWatermarkMs)
  | .frame members =>
    match members.createdAtMs 0, members.payload with
    | .ok createdAtMs, .ok (.typed payload) =>
      match createdAtMs.value.natural? with
      | none => .ok (.miss .unclassified none)
      | some stamp => .ok (.hit (portable payload) stamp)
    | _, _ => .error .other

def wireError : ProtocolError → WireError
  | .redisPayloadEncodingError _ => .payloadEncoding
  | _ => .other

def read (key : DialCacheKey) (raw watermark : Option Bytes) : Except WireError Classified :=
  let decoded := if key.trackForInvalidation then
      decodeTrackedRedisReadResult (reply raw) (reply watermark)
    else decodeRedisReadResult (reply raw)
  match decoded with
  | .error e => .error (wireError e)
  | .ok result => core key (adapterReply result)

end TypeScript

/-! ### Go -/

namespace Go

structure Frame where
  createdAtMs : ℕ
  binary : Bool
  payload : Bytes
deriving DecidableEq

/-- A read result. The kinds of the source are the constructors. -/
inductive ReadResult where
  | miss (reason : CacheMissReason) (observedWatermarkMs : Option ℕ)
  | hit (frame : Frame)
  | payloadEncodingError
deriving DecidableEq

def frame (value : PortablePayload) (createdAtMs : ℕ) : Frame :=
  match value with
  | .text value => ⟨createdAtMs, false, encodeUtf8 value⟩
  | .binary bytes => ⟨createdAtMs, true, bytes⟩

def encodeFrame (frame : Frame) : Except String Bytes :=
  if maxSafeInteger < frame.createdAtMs then .error "unsafe writer timestamp"
  else
    let payload := if frame.binary then frame.payload else replacementUtf8 frame.payload
    .ok (1 :: (bigEndian 8 frame.createdAtMs ++ (if frame.binary then 1 else 0) :: payload))

/-- `strconv.ParseUint` on digits, for 64 bits. -/
def parseUint (digits : Bytes) : Option ℕ :=
  if value (codes digits) < 2 ^ 64 then some (value (codes digits)) else none

def trimLeftZeros (raw : Bytes) : Bytes := raw.dropWhile (· == 48)

/-- `parseWatermark`: the fence, and whether the marker is valid. -/
def parseWatermark : Option Bytes → Option ℕ × Bool
  | none => (none, true)
  | some raw =>
    if raw.isEmpty then (none, false)
    else if (decodeUtf8 raw).any fun c => c.toNat < 48 || 57 < c.toNat then (none, false)
    else
      let digits := if (trimLeftZeros raw).isEmpty then [48] else trimLeftZeros raw
      match parseUint digits with
      | none => (none, false)
      | some value => if maxSafeInteger < value then (none, false) else (some value, true)

def decodeFrame (raw : Option Bytes) (tracked : Bool) (watermark : Option Bytes) :
    ReadResult :=
  let marker := if tracked then parseWatermark watermark else (none, true)
  let fence := marker.1
  let validMarker := marker.2
  match raw with
  | none => .miss .valueAbsent fence
  | some raw =>
    if raw.length < 10 || raw.head? != some 1 then .miss .unclassified fence
    else
      let stamp := readBigEndian ((raw.drop 1).take 8)
      let tag := (raw.drop 9).headD 0
      if tracked && (!validMarker || stamp == 0) then .miss .unclassified fence
      else if tracked && fence.any (stamp ≤ ·) then .miss .watermarkFenced fence
      else if 1 < tag then .payloadEncodingError
      else
        let payload := if tag = 0 then replacementUtf8 (raw.drop 10) else raw.drop 10
        .hit ⟨stamp, tag == 1, payload⟩

/-- `NormalizeReadResult` on a decoded result. -/
def normalizeReadResult (result : ReadResult) (tracked : Bool) : ReadResult :=
  match result with
  | .miss reason observedWatermarkMs =>
    let observedWatermarkMs := if !tracked || observedWatermarkMs.any (maxSafeInteger < ·) then none
      else observedWatermarkMs
    let reason := if reason = .watermarkFenced ∧ observedWatermarkMs = none then .unclassified
      else reason
    .miss reason observedWatermarkMs
  | .hit frame => if maxSafeInteger < frame.createdAtMs then .miss .unclassified none else .hit frame
  | .payloadEncodingError => .payloadEncodingError

def classified : ReadResult → Except WireError Classified
  | .miss reason observedWatermarkMs => .ok (.miss reason observedWatermarkMs)
  | .hit frame =>
    .ok (.hit (if frame.binary then .binary frame.payload else .text (decodeUtf8 frame.payload))
      frame.createdAtMs)
  | .payloadEncodingError => .error .payloadEncoding

def read (tracked : Bool) (raw watermark : Option Bytes) : Except WireError Classified :=
  classified (normalizeReadResult (decodeFrame raw tracked watermark) tracked)

end Go

/-! ### Rust -/

namespace Rust

structure Payload where
  bytes : Bytes
  binary : Bool
deriving DecidableEq

structure Frame where
  createdAtMs : ℕ
  payload : Payload
deriving DecidableEq

inductive ReadResult where
  | hit (frame : Frame)
  | miss (reason : CacheMissReason) (observedWatermarkMs : Option ℕ)
deriving DecidableEq

inductive ProtocolError where
  | payloadEncoding
  | invalidReply (message : String)
  | invalidTimestamp
deriving DecidableEq

def frame (value : PortablePayload) (createdAtMs : ℕ) : Frame :=
  match value with
  | .text value => ⟨createdAtMs, ⟨encodeUtf8 value, false⟩⟩
  | .binary bytes => ⟨createdAtMs, ⟨bytes, true⟩⟩

/-- `String::from_utf8_lossy`, as bytes. -/
def replacementUtf8 (bytes : Bytes) : Bytes := encodeUtf8 (decodeUtf8 bytes)

def encodeFrame (frame : Frame) : Except ProtocolError Bytes :=
  if maxSafeInteger < frame.createdAtMs then .error .invalidTimestamp
  else
    let body := if frame.payload.binary then 1 :: frame.payload.bytes
      else 0 :: replacementUtf8 frame.payload.bytes
    .ok ([1] ++ bigEndian 8 frame.createdAtMs ++ body)

def malformed : ProtocolError := .invalidReply "watermark is not a nonnegative safe integer"

/-- `checked_mul(10)` and then `checked_add`. -/
def checkedDigit (total : ℕ) (digit : UInt8) : Except ProtocolError ℕ :=
  let scaled := total * 10
  if scaled < 2 ^ 64 then
    let sum := scaled + (digit.toNat - 48)
    if sum < 2 ^ 64 then .ok sum else .error malformed
  else .error malformed

def parseWatermarkDigits (raw : Bytes) : Except ProtocolError ℕ :=
  if raw.isEmpty || !raw.all fun b => 48 ≤ b.toNat && b.toNat ≤ 57 then .error malformed
  else do
    let total ← (raw.dropWhile (· == 48)).foldlM checkedDigit 0
    if maxSafeInteger < total then .error malformed else .ok total

def parseWatermark (raw : Option Bytes) : Option (Except ProtocolError ℕ) :=
  raw.map parseWatermarkDigits

/-- The fence, and whether the marker is valid. -/
def marker (tracked : Bool) (watermark : Option Bytes) : Option ℕ × Bool :=
  if tracked then
    match parseWatermark watermark with
    | none => (none, true)
    | some (.ok total) => (some total, true)
    | some (.error _) => (none, false)
  else (none, true)

def decodeFrame (raw : Option Bytes) (tracked : Bool) (watermark : Option Bytes) :
    Except ProtocolError ReadResult :=
  let (fence, validMarker) := marker tracked watermark
  match raw with
  | none => .ok (.miss .valueAbsent fence)
  | some raw =>
    if raw.length < 10 || raw.head? != some 1 then .ok (.miss .unclassified fence)
    else
      let stamp := readBigEndian ((raw.drop 1).take 8)
      if tracked && (!validMarker || stamp == 0) then .ok (.miss .unclassified fence)
      else if tracked && fence.any (stamp ≤ ·) then .ok (.miss .watermarkFenced fence)
      else
        let tag := (raw.drop 9).headD 0
        if tag = 0 then .ok (.hit ⟨stamp, ⟨replacementUtf8 (raw.drop 10), false⟩⟩)
        else if tag = 1 then .ok (.hit ⟨stamp, ⟨raw.drop 10, true⟩⟩)
        else .error .payloadEncoding

def normalizeReadResult (result : ReadResult) (tracked : Bool) : ReadResult :=
  match result with
  | .miss reason observedWatermarkMs =>
    let observedWatermarkMs := observedWatermarkMs.filter fun fence =>
      tracked && fence ≤ maxSafeInteger
    let reason := if reason = .watermarkFenced ∧ observedWatermarkMs = none then .unclassified
      else reason
    .miss reason observedWatermarkMs
  | .hit frame => if maxSafeInteger < frame.createdAtMs then .miss .unclassified none else .hit frame

def classified : ReadResult → Classified
  | .miss reason observedWatermarkMs => .miss reason observedWatermarkMs
  | .hit frame => .hit (if frame.payload.binary then .binary frame.payload.bytes
      else .text (decodeUtf8 frame.payload.bytes)) frame.createdAtMs

def wireError : ProtocolError → WireError
  | .payloadEncoding => .payloadEncoding
  | _ => .other

def read (tracked : Bool) (raw watermark : Option Bytes) : Except WireError Classified :=
  match decodeFrame raw tracked watermark with
  | .error e => .error (wireError e)
  | .ok result => .ok (classified (normalizeReadResult result tracked))

end Rust

/-! ### Python -/

namespace Python

open KeyAgreement.Python

inductive Payload where
  | str (value : PyString)
  | bytes (value : Bytes)
deriving DecidableEq

inductive ReadResult where
  | frame (createdAtMs : ℕ) (payload : Payload)
  | miss (reason : CacheMissReason) (observedWatermarkMs : Option ℕ)
deriving DecidableEq

inductive DecodeError where
  | redisPayloadEncodingError
deriving DecidableEq

def payload : PortablePayload → Payload
  | .text value => .str (codePoints value)
  | .binary bytes => .bytes bytes

/-- `utf8_bytes`: explicit surrogate pairs are combined and lone surrogates replaced. -/
def utf8Bytes (value : PyString) : Bytes := encodeUtf8 (scalars (utf16Units value))

def payloadBytes : Payload → Bytes
  | .str value => utf8Bytes value
  | .bytes value => value

def isBytes : Payload → Bool
  | .str _ => false
  | .bytes _ => true

def encodeFrame (payload : Payload) (createdAtMs : ℕ) : Except String Bytes :=
  if maxSafeInteger < createdAtMs then
    .error "DialCache timestamp must be a nonnegative safe integer"
  else .ok ([1] ++ bigEndian 8 createdAtMs ++ [if isBytes payload then 1 else 0] ++
    payloadBytes payload)

def maxSafeDigits : List ℕ := "9007199254740991".toList.map Char.toNat

def watermark : Option Bytes → Option ℕ
  | none => none
  | some raw =>
    if !isDigits (codes raw) then none
    else
      let stripped := raw.dropWhile (· == 48)
      let digits := codes (if stripped.isEmpty then [48] else stripped)
      if 16 < digits.length || (digits.length == 16 && maxSafeDigits < digits) then none
      else some (value digits)

def decodedFrame (raw : Bytes) : Except DecodeError ReadResult :=
  let tag := (raw.drop 9).headD 0
  let createdAtMs := readBigEndian ((raw.drop 1).take 8)
  if tag = 0 then .ok (.frame createdAtMs (.str (codePoints (decodeUtf8 (raw.drop 10)))))
  else if tag = 1 then .ok (.frame createdAtMs (.bytes (raw.drop 10)))
  else .error .redisPayloadEncodingError

def supported (raw : Bytes) : Bool := 10 ≤ raw.length && raw.head? == some 1

def decodeRead : Option Bytes → Except DecodeError ReadResult
  | none => .ok (.miss .valueAbsent none)
  | some frame => if !supported frame then .ok (.miss .unclassified none) else decodedFrame frame

def decodeTrackedRead (raw rawWatermark : Option Bytes) : Except DecodeError ReadResult :=
  let watermark := watermark rawWatermark
  match raw with
  | none => .ok (.miss .valueAbsent watermark)
  | some frame =>
    if !supported frame then .ok (.miss .unclassified watermark)
    else if rawWatermark.isSome && watermark.isNone then .ok (.miss .unclassified none)
    else
      let timestamp := readBigEndian ((frame.drop 1).take 8)
      if timestamp = 0 then .ok (.miss .unclassified watermark)
      else if watermark.any (timestamp ≤ ·) then .ok (.miss .watermarkFenced watermark)
      else decodedFrame frame

/-- The checks of `_raw_read`, and the timestamp that `_age` requires of a frame. -/
def core (tracked : Bool) : ReadResult → Classified
  | .miss reason observedWatermarkMs =>
    let fence := if tracked && observedWatermarkMs.all (· ≤ maxSafeInteger) then observedWatermarkMs
      else none
    let reason := if reason = .watermarkFenced ∧ fence = none then .unclassified else reason
    .miss reason fence
  | .frame createdAtMs payload =>
    if maxSafeInteger < createdAtMs then .miss .unclassified none
    else .hit (match payload with
      | .str value => .text (scalars (utf16Units value))
      | .bytes value => .binary value) createdAtMs

def read (tracked : Bool) (raw watermark : Option Bytes) : Except WireError Classified :=
  match if tracked then decodeTrackedRead raw watermark else decodeRead raw with
  | .error .redisPayloadEncodingError => .error .payloadEncoding
  | .ok result => .ok (core tracked result)

end Python

end DialCache.FramePorts
