import DialCache.FramePorts
import DialCache.PayloadEnvelope
import DialCache.ZstdFrames

/-!
# Payload envelopes in four ports

How a serialized payload is stored, first as one portable definition and then as TypeScript, Go,
Rust and Python compute it, and how the four read a stored payload back. The zstd libraries are
parameters; the loops over their decoders are the ports' own.
-/

namespace DialCache.EnvelopePorts

open UnicodeText PortableKeys FramePorts PayloadEnvelope Utf8Replacement ZstdFrames

variable {ε : Type}

/-! ### The portable definition -/

/-- What a write stores, why, and the sizes it reports. -/
structure Stored where
  payload : PortablePayload
  outcome : CompressionWriteOutcome
  originalBytes : ℕ
  storedBytes : ℕ
deriving DecidableEq

/-- What a read makes of a stored payload. -/
structure Loaded where
  payload : PortablePayload
  outcome : CompressionReadOutcome
deriving DecidableEq

def collides (bytes : Bytes) : Bool := bytes.head?.any (· ≤ 2)

def escape : PortablePayload → PortablePayload
  | .text value => .text value
  | .binary bytes => if collides bytes then .binary (0 :: bytes) else .binary bytes

def marker : PortablePayload → UInt8
  | .text _ => 1
  | .binary _ => 2

def unmarked (payload : PortablePayload) (outcome : CompressionWriteOutcome) : Stored :=
  ⟨escape payload, outcome, payload.bytes.length, (escape payload).bytes.length⟩

/-- Store a payload, given what compressing its bytes gives. -/
def store (compressed : Except ε Bytes) (thresholdBytes maximum : ℕ)
    (payload : PortablePayload) : Except ε Stored :=
  if payload.bytes.length < thresholdBytes then .ok (unmarked payload .belowThreshold)
  else if maximum < payload.bytes.length then .ok (unmarked payload .writeOverLimit)
  else compressed.map fun frame =>
    if (escape payload).bytes.length ≤ frame.length + 1 then unmarked payload .notSmaller
    else ⟨.binary (marker payload :: frame), .compressed, payload.bytes.length, frame.length + 1⟩

/-! ### TypeScript -/

namespace TypeScript

open FramePorts.TypeScript

def writeResult (stored : Stored) : CompressPayloadResult :=
  ⟨payload stored.payload, stored.outcome, stored.originalBytes, stored.storedBytes⟩

def readResult (loaded : Loaded) : DecompressPayloadResult :=
  ⟨payload loaded.payload, loaded.outcome⟩

end TypeScript

/-! ### Go -/

namespace Go

structure Payload where
  bytes : Bytes
  binary : Bool
deriving DecidableEq

structure CompressionConfig where
  thresholdBytes : ℤ
  level : ℤ

structure CompressionWriteResult where
  payload : Payload
  outcome : CompressionWriteOutcome
  originalBytes : ℕ
  storedBytes : ℕ
deriving DecidableEq

structure CompressionReadResult where
  payload : Payload
  outcome : CompressionReadOutcome
deriving DecidableEq

/-- An error of the stream decoder, and whether it is `ErrDecoderSizeExceeded`. -/
structure DecodeError where
  isSizeExceeded : Bool
  message : String

/-- The bytes that a reader yields, and the error that ends them. -/
structure Stream where
  bytes : Bytes
  err : Option DecodeError

/-- The size of `int` and the zstd library. `newReader` is the stream decoder over an input,
with its memory limit. -/
structure Zstd where
  intSize : IntSize
  headers : HeaderDecoder
  encodeAll : ℤ → Bytes → Except String Bytes
  newReader : Bytes → ℕ → Except String Stream

def payload : PortablePayload → Payload
  | .text value => ⟨encodeUtf8 value, false⟩
  | .binary bytes => ⟨bytes, true⟩

def defaultCompressionThresholdBytes : ℤ := 4096
def defaultZstdLevel : ℤ := 3

def resolveCompressionConfig (config : CompressionConfig) : Except String CompressionConfig :=
  let thresholdBytes := if config.thresholdBytes = 0 then defaultCompressionThresholdBytes
    else config.thresholdBytes
  let level := if config.level = 0 then defaultZstdLevel else config.level
  if thresholdBytes < 1 ∨ (maxSafeInteger : ℤ) < thresholdBytes ∨ level < 1 ∨ 22 < level then
    .error "invalid compression threshold or level"
  else .ok ⟨thresholdBytes, level⟩

def escapeRawPayload (payload : Payload) : Payload :=
  if payload.binary ∧ payload.bytes ≠ [] ∧ payload.bytes.headD 0 ≤ 2 then ⟨0 :: payload.bytes, true⟩
  else payload

def compressPayload (zstd : Zstd) (payload : Payload) (config : CompressionConfig) (limit : ℤ) :
    Except String CompressionWriteResult := do
  let resolved ← resolveCompressionConfig config
  let payload := if payload.binary then payload
    else { payload with bytes := replacementUtf8 payload.bytes }
  let raw := escapeRawPayload payload
  let result : CompressionWriteResult :=
    ⟨raw, .belowThreshold, payload.bytes.length, raw.bytes.length⟩
  if (payload.bytes.length : ℤ) < resolved.thresholdBytes then return result
  else if limit < payload.bytes.length then return { result with outcome := .writeOverLimit }
  else
    let compressed ← zstd.encodeAll resolved.level payload.bytes
    if raw.bytes.length ≤ compressed.length + 1 then return { result with outcome := .notSmaller }
    else
      let marked := (if payload.binary then 2 else 1) :: compressed
      return ⟨⟨marked, true⟩, .compressed, payload.bytes.length, marked.length⟩

/-- A conversion to `int64`, or a sum of two of them. -/
def int64 (n : ℤ) : ℤ := n.bmod (2 ^ 64)

/-- `io.ReadAll` behind `io.LimitReader`: the stream ends without an error once the limit is
reached, before its first byte when the limit is not positive. -/
def readAll (stream : Stream) (limit : ℤ) : Stream :=
  if stream.bytes.length < limit then stream else ⟨stream.bytes.take limit.toNat, none⟩

def DecodeError.isReadLimit (e : DecodeError) : Bool :=
  e.isSizeExceeded || decide ("window size exceeded".toList <:+: e.message.toList)

/-- Decode the first frame, reading one byte past the limit. -/
def decodeFirstFrame (zstd : Zstd) (body : Bytes) (limit : ℤ) :
    Except Fault (Except CompressionReadOutcome Bytes) := do
  if limit < 0 then return .error .readOverLimit
  else
    match ← firstZstdFrame zstd.intSize body zstd.headers with
    | .error _ => return .error .fallbackRaw
    | .ok frame =>
      match zstd.newReader frame maxDecompressedBytes with
      | .error _ => return .error .fallbackRaw
      | .ok reader =>
        let decoded := readAll reader (int64 (int64 limit + 1))
        if limit < decoded.bytes.length then return .error .readOverLimit
        else
          match decoded.err with
          | some e => return .error (if e.isReadLimit then .readOverLimit else .fallbackRaw)
          | none => return .ok decoded.bytes

def decompressPayload (zstd : Zstd) (payload : Payload) (limit : ℤ) :
    Except Fault CompressionReadResult := do
  if !payload.binary || payload.bytes.isEmpty then return ⟨payload, .passthrough⟩
  else
    let marker := payload.bytes.headD 0
    if marker = 0 then
      if 1 < payload.bytes.length ∧ payload.bytes.tail.headD 0 ≤ 2 then
        return ⟨{ payload with bytes := payload.bytes.tail }, .passthrough⟩
      else return ⟨payload, .passthrough⟩
    else if marker ≠ 1 ∧ marker ≠ 2 then return ⟨payload, .passthrough⟩
    else
      match ← decodeFirstFrame zstd payload.bytes.tail limit with
      | .error outcome => return ⟨payload, outcome⟩
      | .ok decoded =>
        return ⟨⟨if marker = 1 then replacementUtf8 decoded else decoded, marker = 2⟩, .decompressed⟩

def writeResult (stored : Stored) : CompressionWriteResult :=
  ⟨payload stored.payload, stored.outcome, stored.originalBytes, stored.storedBytes⟩

def readResult (loaded : Loaded) : CompressionReadResult := ⟨payload loaded.payload, loaded.outcome⟩

end Go

/-! ### Rust -/

namespace Rust

open FramePorts.Rust

inductive ProtocolError where
  | compression (message : String)
deriving DecidableEq

structure CompressionConfig where
  thresholdBytes : ℕ
  level : ℤ

structure CompressionWriteResult where
  payload : Payload
  outcome : CompressionWriteOutcome
  originalBytes : ℕ
  storedBytes : ℕ
deriving DecidableEq

/-- The outcome is `none` when no zstd envelope was involved. -/
structure CompressionReadResult where
  payload : Payload
  outcome : Option CompressionReadOutcome
deriving DecidableEq

inductive CParameter where
  | compressionLevel (level : ℤ)
  | checksumFlag (enabled : Bool)

/-- An answer of `decompress_stream` with some input left: the hint, the bytes it took and the
bytes it put into the chunk. -/
structure StreamTurn (left : ℕ) where
  hint : ℕ
  consumed : ℕ
  produced : Bytes
  consumed_le : consumed ≤ left

/-- The zstd library. An error is its name; a compression context is what was set on it; and a
fresh decompression context answers the numbered calls on one frame, each from the position
that the call before left. -/
structure Zstd where
  setParameter : List CParameter → CParameter → Except String Unit
  compress2 : List CParameter → Bytes → Except String Bytes
  findFrameCompressedSize : Bytes → Except String ℕ
  decompressStream : (frame : Bytes) → ℕ → (pos : ℕ) →
    Except String (StreamTurn (frame.length - pos))

def payload : PortablePayload → Payload
  | .text value => ⟨encodeUtf8 value, false⟩
  | .binary bytes => ⟨bytes, true⟩

def CompressionConfig.validate (config : CompressionConfig) : Except ProtocolError Unit :=
  if config.thresholdBytes < 1 ∨ maxSafeInteger < config.thresholdBytes then
    .error (.compression "threshold_bytes must be a positive safe integer")
  else if ¬ (1 ≤ config.level ∧ config.level ≤ 22) then
    .error (.compression "level must be an integer between 1 and 22")
  else .ok ()

def needsRawEscape (payload : Payload) : Bool :=
  payload.binary && payload.bytes.head?.any (· ≤ markerZstdBinary)

def escapeRawPayload (payload : Payload) : Payload :=
  if needsRawEscape payload then ⟨markerEscapedRaw :: payload.bytes, true⟩ else payload

/-- The raw form with the reason it was chosen for. -/
def rawResult (payload : Payload) (outcome : CompressionWriteOutcome) : CompressionWriteResult :=
  let raw := escapeRawPayload payload
  ⟨raw, outcome, payload.bytes.length, raw.bytes.length⟩

def zstdCompress (zstd : Zstd) (bytes : Bytes) (level : ℤ) :
    Except ProtocolError Bytes :=
  Except.mapError .compression do
    zstd.setParameter [] (.compressionLevel level)
    zstd.setParameter [.compressionLevel level] (.checksumFlag false)
    zstd.compress2 [.compressionLevel level, .checksumFlag false] bytes

def compressPayload (zstd : Zstd) (payload : Payload) (config : CompressionConfig)
    (maxDecompressedBytes : ℕ) : Except ProtocolError CompressionWriteResult := do
  config.validate
  let payload := if payload.binary then payload
    else ⟨FramePorts.Rust.replacementUtf8 payload.bytes, false⟩
  let originalBytes := payload.bytes.length
  if originalBytes < config.thresholdBytes then return rawResult payload .belowThreshold
  else if maxDecompressedBytes < originalBytes then return rawResult payload .writeOverLimit
  else
    let compressed ← zstdCompress zstd payload.bytes config.level
    let rawBytes := originalBytes + (needsRawEscape payload).toNat
    if compressed.length + 1 < rawBytes then
      let marked := (if payload.binary then markerZstdBinary else markerZstdUtf8) :: compressed
      return ⟨⟨marked, true⟩, .compressed, originalBytes, marked.length⟩
    else return rawResult payload .notSmaller

def classifyDecoderError (name : String) : CompressionReadOutcome :=
  if "too much memory".toList <:+: name.toList ∨
      "Destination buffer is too small".toList <:+: name.toList then .readOverLimit
  else .fallbackRaw

/-- The loop over one frame. A turn that goes on has taken or produced a byte. -/
def decodeTurns (zstd : Zstd) (frame : Bytes) (maxDecompressedBytes turn pos : ℕ)
    (out : Bytes) : Except CompressionReadOutcome Bytes :=
  match zstd.decompressStream frame turn pos with
  | .error name => .error (classifyDecoderError name)
  | .ok answer =>
    if maxDecompressedBytes < out.length + answer.produced.length then .error .readOverLimit
    else if answer.hint = 0 then .ok (out ++ answer.produced)
    else if pos + answer.consumed = frame.length ∧ answer.produced = [] then .error .fallbackRaw
    else if answer.consumed = 0 ∧ answer.produced = [] then .error .fallbackRaw
    else
      decodeTurns zstd frame maxDecompressedBytes (turn + 1) (pos + answer.consumed)
        (out ++ answer.produced)
termination_by frame.length - pos + (maxDecompressedBytes - out.length)
decreasing_by
  have hleft := answer.consumed_le
  rename_i hcap _ _ hprogress
  have hmoved : 0 < answer.consumed + answer.produced.length := by
    by_contra hstill
    exact hprogress ⟨by omega, List.eq_nil_of_length_eq_zero (by omega)⟩
  rw [List.length_append]
  omega

def decodeFirstZstdFrame (zstd : Zstd) (body : Bytes) (maxDecompressedBytes : ℕ) :
    Except CompressionReadOutcome Bytes :=
  match zstd.findFrameCompressedSize body with
  | .error _ => .error .fallbackRaw
  | .ok frameLen =>
    if body.length < frameLen then .error .fallbackRaw
    else decodeTurns zstd (body.take frameLen) maxDecompressedBytes 0 0 []

def decompressPayload (zstd : Zstd) (payload : Payload) (maxDecompressedBytes : ℕ) :
    CompressionReadResult :=
  if !payload.binary then ⟨payload, none⟩
  else
    match payload.bytes with
    | [] => ⟨payload, none⟩
    | marker :: rest =>
      if marker = markerEscapedRaw then
        if rest.head?.any (· ≤ markerZstdBinary) then ⟨⟨rest, true⟩, none⟩ else ⟨payload, none⟩
      else if marker = markerZstdUtf8 ∨ marker = markerZstdBinary then
        match decodeFirstZstdFrame zstd rest maxDecompressedBytes with
        | .ok decoded =>
          ⟨if marker = markerZstdUtf8 then ⟨FramePorts.Rust.replacementUtf8 decoded, false⟩
            else ⟨decoded, true⟩, some .decompressed⟩
        | .error outcome => ⟨payload, some outcome⟩
      else ⟨payload, none⟩

def writeResult (stored : Stored) : CompressionWriteResult :=
  ⟨payload stored.payload, stored.outcome, stored.originalBytes, stored.storedBytes⟩

def readResult (loaded : Loaded) : CompressionReadResult :=
  ⟨payload loaded.payload, if loaded.outcome = .passthrough then none else some loaded.outcome⟩

end Rust

/-! ### Python -/

namespace Python

open FramePorts.Python KeyAgreement.Python

structure CompressionResult where
  payload : Payload
  outcome : CompressionWriteOutcome
  originalBytes : ℕ
  storedBytes : ℕ
deriving DecidableEq

structure DecompressionResult where
  payload : Payload
  outcome : CompressionReadOutcome
deriving DecidableEq

/-- One pass of `read_to_iter` over a source: the chunks, whether it raised after them, and
whether the source was asked for input past its end. -/
structure Iteration where
  chunks : List Bytes
  raised : Bool
  exhausted : Bool

/-- The `zstandard` library. `frameContentSize` answers `none` when it raises and `some none`
for an unknown size; the decoders answer `none` when they raise. -/
structure Zstd (ε : Type) where
  compress : ℕ → Bytes → Except ε Bytes
  frameContentSize : Bytes → Option (Option ℕ)
  readToIter : Bytes → ℕ → Iteration
  /-- Read some bytes at most, after a number of bytes already read. -/
  streamRead : Bytes → ℕ → ℕ → Option Bytes
  decompress : Bytes → ℕ → Option Bytes

def escapeRawPayload : Payload → Payload
  | .str value => .str value
  | .bytes value => if value ≠ [] ∧ value.headD 0 ≤ 2 then .bytes (0 :: value) else .bytes value

def sizeOfStored (raw : Bytes) : Payload → ℕ
  | .bytes value => value.length
  | .str _ => raw.length

def compressPayload (zstd : Zstd ε) (payload : Payload) (thresholdBytes level maximum : ℕ) :
    Except ε CompressionResult :=
  let raw := payloadBytes payload
  let escaped := escapeRawPayload payload
  let storedSize := sizeOfStored raw escaped
  if raw.length < thresholdBytes then .ok ⟨escaped, .belowThreshold, raw.length, storedSize⟩
  else if maximum < raw.length then .ok ⟨escaped, .writeOverLimit, raw.length, storedSize⟩
  else do
    let encoded ← zstd.compress level raw
    if storedSize ≤ encoded.length + 1 then .ok ⟨escaped, .notSmaller, raw.length, storedSize⟩
    else
      let result := (if isBytes payload then 2 else 1) :: encoded
      .ok ⟨.bytes result, .compressed, raw.length, result.length⟩

/-- Replay a failed frame up to the cap. A read that gives nothing or raises ends the replay,
and every other read gets nearer to the cap. -/
def replay (zstd : Zstd ε) (encoded : Bytes) (maximum : ℕ) : ℕ → ℕ → Bool
  | 0, _ => false
  | fuel + 1, total =>
    match zstd.streamRead encoded total (min (64 * 1024) (maximum + 1 - total)) with
    | none => false
    | some chunk =>
      if maximum < total + chunk.length then true
      else if chunk.isEmpty then false
      else replay zstd encoded maximum fuel (total + chunk.length)

def failedFrameExceedsLimit (zstd : Zstd ε) (encoded : Bytes) (maximum : ℕ) : Bool :=
  replay zstd encoded maximum (maximum + 1) 0

/-- The sum of the chunk sizes passes the cap at some chunk. -/
def passesLimit (maximum : ℕ) : List Bytes → ℕ → Bool
  | [], _ => false
  | chunk :: chunks, total =>
    decide (maximum < total + chunk.length) || passesLimit maximum chunks (total + chunk.length)

def iterate (zstd : Zstd ε) (encoded : Bytes) (maximum : ℕ) (unknownSize : Bool) :
    Except CompressionReadOutcome Bytes :=
  let run := zstd.readToIter encoded (min (64 * 1024) (maximum + 1))
  if passesLimit maximum run.chunks 0 then .error .readOverLimit
  else if run.raised then
    .error (if failedFrameExceedsLimit zstd encoded maximum then .readOverLimit else .fallbackRaw)
  else if run.exhausted || !unknownSize then .error .fallbackRaw
  else .ok run.chunks.flatten

def decodeFirstFrame (zstd : Zstd ε) (encoded : Bytes) (maximum : ℕ) :
    Except CompressionReadOutcome Bytes := do
  let decoded ← match zstd.frameContentSize encoded with
    | none => .error .fallbackRaw
    | some none => iterate zstd encoded maximum true
    | some (some contentSize) =>
      if maximum < contentSize then iterate zstd encoded maximum false
      else
        match zstd.decompress encoded (max 1 maximum) with
        | none => .error .fallbackRaw
        | some decoded => .ok decoded
  if maximum < decoded.length then .error .readOverLimit else .ok decoded

def decompressPayload (zstd : Zstd ε) (payload : Payload) (maximum : ℕ) : DecompressionResult :=
  match payload with
  | .str _ => ⟨payload, .passthrough⟩
  | .bytes [] => ⟨payload, .passthrough⟩
  | .bytes (marker :: encoded) =>
    if marker = 0 then
      if encoded ≠ [] ∧ encoded.headD 0 ≤ 2 then ⟨.bytes encoded, .passthrough⟩
      else ⟨payload, .passthrough⟩
    else if marker ≠ 1 ∧ marker ≠ 2 then ⟨payload, .passthrough⟩
    else
      match decodeFirstFrame zstd encoded maximum with
      | .error outcome => ⟨payload, outcome⟩
      | .ok decoded =>
        ⟨if marker = 1 then .str (codePoints (decodeUtf8 decoded)) else .bytes decoded,
          .decompressed⟩

def writeResult (stored : Stored) : CompressionResult :=
  ⟨payload stored.payload, stored.outcome, stored.originalBytes, stored.storedBytes⟩

def readResult (loaded : Loaded) : DecompressionResult := ⟨payload loaded.payload, loaded.outcome⟩

end Python

end DialCache.EnvelopePorts
