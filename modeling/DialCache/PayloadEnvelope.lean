import DialCache.RedisFrames

/-!
# The payload envelope

Compression of serialized payloads and the escape that keeps raw binary output apart from
compressed output. The zstd codec is a parameter: compressing may throw, and decompressing
reports a rejected stream or one over the size limit.
-/

namespace DialCache.PayloadEnvelope

open UnicodeText RedisFrames

variable {ε : Type}

inductive ZstdError where
  | tooLarge
  | rejected
deriving DecidableEq

structure Zstd (ε : Type) where
  compress : ℕ → Bytes → Except ε Bytes
  decompress : Bytes → ℕ → Except ZstdError Bytes

/-- A write-side compression policy that `resolveCompressionConfig` accepts. -/
structure CompressionConfig where
  thresholdBytes : ℕ
  level : ℕ
  threshold_pos : 0 < thresholdBytes
  level_range : 1 ≤ level ∧ level ≤ 22

inductive CompressionWriteOutcome where
  | compressed
  | belowThreshold
  | notSmaller
  | writeOverLimit
deriving DecidableEq

inductive CompressionReadOutcome where
  | passthrough
  | decompressed
  | fallbackRaw
  | readOverLimit
deriving DecidableEq

structure CompressPayloadResult where
  payload : RedisCachePayload
  outcome : CompressionWriteOutcome
  originalBytes : ℕ
  storedBytes : ℕ

structure DecompressPayloadResult where
  payload : RedisCachePayload
  outcome : CompressionReadOutcome

def markerEscapedRaw : UInt8 := 0x00
def markerZstdUtf8 : UInt8 := 0x01
def markerZstdBinary : UInt8 := 0x02

/-- `MAX_DECOMPRESSED_BYTES`, 512 MiB. -/
def maxDecompressedBytes : ℕ := 512 * 1024 * 1024

def escapeRawPayload : RedisCachePayload → RedisCachePayload
  | .text us => .text us
  | .binary [] => .binary []
  | .binary (first :: rest) =>
      if first > markerZstdBinary then .binary (first :: rest)
      else .binary (markerEscapedRaw :: first :: rest)

def rawResult (payload : RedisCachePayload) (outcome : CompressionWriteOutcome)
    (originalBytes : ℕ) : CompressPayloadResult :=
  match escapeRawPayload payload with
  | .text us => ⟨.text us, outcome, originalBytes, originalBytes⟩
  | .binary escaped => ⟨.binary escaped, outcome, originalBytes, escaped.length⟩

def compressionMarker : RedisCachePayload → UInt8
  | .text _ => markerZstdUtf8
  | .binary _ => markerZstdBinary

/-- `compressPayload` with the cap as an argument. -/
def compressPayloadWithin (zstd : Zstd ε) (payload : RedisCachePayload) (config : CompressionConfig)
    (maximum : ℕ) : Except ε CompressPayloadResult := do
  let originalBytes := (payloadBytes payload).length
  if originalBytes < config.thresholdBytes then
    return rawResult payload .belowThreshold originalBytes
  else if originalBytes > maximum then
    return rawResult payload .writeOverLimit originalBytes
  else
    let compressed ← zstd.compress config.level (payloadBytes payload)
    let raw := rawResult payload .notSmaller originalBytes
    let markedBytes := 1 + compressed.length
    if markedBytes ≥ raw.storedBytes then return raw
    else
      return ⟨.binary (compressionMarker payload :: compressed), .compressed, originalBytes,
        markedBytes⟩

def compressPayload (zstd : Zstd ε) (payload : RedisCachePayload) (config : CompressionConfig) :
    Except ε CompressPayloadResult :=
  compressPayloadWithin zstd payload config maxDecompressedBytes

/-- `decompressPayload` with the cap as an argument. -/
def decompressPayloadWithin (zstd : Zstd ε) (maximum : ℕ) :
    RedisCachePayload → DecompressPayloadResult
  | .text us => ⟨.text us, .passthrough⟩
  | .binary [] => ⟨.binary [], .passthrough⟩
  | .binary (marker :: rest) =>
    if marker = markerEscapedRaw then
      match rest with
      | next :: _ =>
          if next ≤ markerZstdBinary then ⟨.binary rest, .passthrough⟩
          else ⟨.binary (marker :: rest), .passthrough⟩
      | [] => ⟨.binary [marker], .passthrough⟩
    else if marker ≠ markerZstdUtf8 ∧ marker ≠ markerZstdBinary then
      ⟨.binary (marker :: rest), .passthrough⟩
    else
      match zstd.decompress rest maximum with
      | .error .tooLarge => ⟨.binary (marker :: rest), .readOverLimit⟩
      | .error .rejected => ⟨.binary (marker :: rest), .fallbackRaw⟩
      | .ok decompressed =>
        if marker = markerZstdUtf8 then ⟨.text (units (decodeUtf8 decompressed)), .decompressed⟩
        else ⟨.binary decompressed, .decompressed⟩

def decompressPayload (zstd : Zstd ε) (payload : RedisCachePayload) : DecompressPayloadResult :=
  decompressPayloadWithin zstd maxDecompressedBytes payload

end DialCache.PayloadEnvelope
