import DialCache.EnvelopePorts

/-!
# The envelope round trip

A port's writer is the portable one on that port's own zstd frame, so the sizes are proved once.
A port's reader gives back what was escaped, and what was compressed whenever its decoder of a
first frame gives the bytes back.
-/

namespace DialCache.EnvelopePorts

open UnicodeText PortableKeys FramePorts PayloadEnvelope Utf8Replacement ZstdFrames

variable {ε : Type}

/-! ### Writers -/

/-- A payload and its escaped form, by the first byte. -/
inductive Escaped : PortablePayload → PortablePayload → Prop
  | text (value : Text) : Escaped (.text value) (.text value)
  | empty : Escaped (.binary []) (.binary [])
  | collided {first : UInt8} (rest : Bytes) (h : first ≤ 2) :
      Escaped (.binary (first :: rest)) (.binary (0 :: first :: rest))
  | plain {first : UInt8} (rest : Bytes) (h : ¬ first ≤ 2) (h₀ : first ≠ 0) (h₁ : first ≠ 1)
      (h₂ : first ≠ 2) : Escaped (.binary (first :: rest)) (.binary (first :: rest))

theorem escaped_escape (payload : PortablePayload) : Escaped payload (escape payload) := by
  cases payload with
  | text value => exact .text value
  | binary bytes =>
    cases bytes with
    | nil => exact .empty
    | cons first rest =>
      have hcollides : collides (first :: rest) = decide (first ≤ 2) := by
        simp [collides]
      rw [escape, hcollides]
      by_cases h : first ≤ 2
      · rw [decide_eq_true h]
        exact .collided rest h
      · have hne : ∀ n : UInt8, n ≤ 2 → first ≠ n := by
          intro n hn heq
          exact h (heq ▸ hn)
        rw [decide_eq_false h]
        exact .plain rest h (hne 0 (by decide)) (hne 1 (by decide)) (hne 2 (by decide))

section Escapes

variable {value stored : PortablePayload} (h : Escaped value stored)
include h

theorem TypeScript.escape_eq :
    escapeRawPayload (FramePorts.TypeScript.payload value) =
      FramePorts.TypeScript.payload stored := by
  cases h with
  | text value => rfl
  | empty => rfl
  | collided rest h => exact if_neg (UInt8.not_lt.mpr h)
  | plain rest h => exact if_pos (UInt8.not_le.mp h)

theorem Go.escape_eq : Go.escapeRawPayload (Go.payload value) = Go.payload stored := by
  cases h with
  | text value => rfl
  | empty => rfl
  | collided rest h => exact if_pos ⟨rfl, List.cons_ne_nil _ _, h⟩
  | plain rest h => exact if_neg fun hand => h hand.2.2

theorem Rust.escape_eq : Rust.escapeRawPayload (Rust.payload value) = Rust.payload stored := by
  cases h with
  | text value => rfl
  | empty => rfl
  | collided rest h => exact if_pos (decide_eq_true h)
  | plain rest h => exact if_neg (ne_true_of_eq_false (decide_eq_false h))

theorem Python.escape_eq :
    Python.escapeRawPayload (FramePorts.Python.payload value) = FramePorts.Python.payload stored := by
  cases h with
  | text value => rfl
  | empty => rfl
  | collided rest h => exact if_pos ⟨List.cons_ne_nil _ _, h⟩
  | plain rest h => exact if_neg fun hand => h hand.2

end Escapes

/-- The three places where a writer returns, and the frame it asks for in between. -/
theorem map_store {δ R : Type} (compressed : Except δ Bytes) (thresholdBytes maximum : ℕ)
    (value : PortablePayload) (write : Stored → R) :
    (store compressed thresholdBytes maximum value).map write =
      if value.bytes.length < thresholdBytes then .ok (write (unmarked value .belowThreshold))
      else if maximum < value.bytes.length then .ok (write (unmarked value .writeOverLimit))
      else compressed.bind fun frame =>
        if (escape value).bytes.length ≤ frame.length + 1 then .ok (write (unmarked value .notSmaller))
        else .ok (write ⟨.binary (marker value :: frame), .compressed, value.bytes.length,
          frame.length + 1⟩) := by
  rw [store]
  split
  · rfl
  · split
    · rfl
    · cases compressed with
      | error e => rfl
      | ok frame =>
        simp only [Except.map, Except.bind]
        rw [apply_ite write, apply_ite Except.ok]

variable (value : PortablePayload)

theorem TypeScript.payloadBytes_eq :
    RedisFrames.payloadBytes (FramePorts.TypeScript.payload value) = value.bytes := by
  cases value with
  | text value => simp [FramePorts.TypeScript.payload, RedisFrames.payloadBytes, PortablePayload.bytes]
  | binary bytes => rfl

theorem TypeScript.rawResult_eq (outcome : CompressionWriteOutcome) :
    rawResult (FramePorts.TypeScript.payload value) outcome value.bytes.length =
      writeResult (unmarked value outcome) := by
  rw [rawResult, TypeScript.escape_eq (escaped_escape value)]
  cases value with
  | text value => rfl
  | binary bytes =>
    rw [writeResult, unmarked, escape]
    cases collides bytes with
    | false => rfl
    | true => rfl

theorem TypeScript.compressPayload_eq (zstd : Zstd ε) (value : PortablePayload)
    (config : CompressionConfig) (maximum : ℕ) :
    compressPayloadWithin zstd (FramePorts.TypeScript.payload value) config maximum =
      (store (zstd.compress config.level value.bytes) config.thresholdBytes maximum value).map
        writeResult := by
  have hsize : (writeResult (unmarked value .notSmaller)).storedBytes =
      (escape value).bytes.length := rfl
  have hmarker : compressionMarker (FramePorts.TypeScript.payload value) = marker value := by
    cases value <;> rfl
  simp only [compressPayloadWithin, map_store, TypeScript.payloadBytes_eq, TypeScript.rawResult_eq,
    hsize, hmarker, gt_iff_lt, ge_iff_le, Nat.add_comm 1]
  rfl

namespace Go

def config (config : PayloadEnvelope.CompressionConfig) : Go.CompressionConfig :=
  ⟨config.thresholdBytes, config.level⟩

theorem resolve_eq (c : PayloadEnvelope.CompressionConfig) :
    resolveCompressionConfig (config c) = if maxSafeInteger < c.thresholdBytes then
      .error "invalid compression threshold or level" else .ok (config c) := by
  have hpos := c.threshold_pos
  have hlevel := c.level_range
  have hthreshold : (config c).thresholdBytes ≠ 0 := by
    simp only [config]
    omega
  have hzero : (config c).level ≠ 0 := by
    simp only [config]
    omega
  simp only [resolveCompressionConfig, if_neg hthreshold, if_neg hzero]
  congr 1
  apply propext
  simp only [config]
  omega

theorem bytes_payload : (payload value).bytes = value.bytes := by
  cases value <;> rfl

theorem replaced_payload :
    (if (payload value).binary then payload value
      else { payload value with bytes := replacementUtf8 (payload value).bytes }) = payload value := by
  cases value with
  | text value => simp [payload, replacementUtf8_eq]
  | binary bytes => rfl

theorem compressPayload_eq (zstd : Go.Zstd) (value : PortablePayload)
    (c : PayloadEnvelope.CompressionConfig) (hsafe : c.thresholdBytes ≤ maxSafeInteger)
    (maximum : ℕ) :
    compressPayload zstd (payload value) (config c) maximum =
      (store (zstd.encodeAll c.level value.bytes) c.thresholdBytes maximum value).map
        writeResult := by
  have hmarker : (if (payload value).binary then (2 : UInt8) else 1) = marker value := by
    cases value <;> rfl
  rw [compressPayload, resolve_eq, if_neg (Nat.not_lt.mpr hsafe), KeyAgreement.ok_bind]
  simp only [replaced_payload]
  simp only [Go.escape_eq (escaped_escape value), bytes_payload, hmarker, map_store, config,
    Nat.cast_lt]
  rfl

end Go

namespace Rust

open FramePorts.Rust

def config (config : PayloadEnvelope.CompressionConfig) : Rust.CompressionConfig :=
  ⟨config.thresholdBytes, config.level⟩

theorem validate_eq (c : PayloadEnvelope.CompressionConfig) :
    (config c).validate = if maxSafeInteger < c.thresholdBytes then
      .error (.compression "threshold_bytes must be a positive safe integer") else .ok () := by
  have hpos := c.threshold_pos
  have hlevel := c.level_range
  have hrange : ¬ ¬ (1 ≤ (config c).level ∧ (config c).level ≤ 22) := by
    simp only [config]
    omega
  rw [CompressionConfig.validate, if_neg hrange]
  congr 1
  apply propext
  simp only [config]
  omega

theorem needsRawEscape_binary (bytes : Bytes) :
    needsRawEscape (payload (.binary bytes)) = collides bytes := rfl

theorem bytes_payload : (payload value).bytes = value.bytes := by
  cases value <;> rfl

theorem replaced_payload :
    (if (payload value).binary then payload value
      else ⟨FramePorts.Rust.replacementUtf8 (payload value).bytes, false⟩) = payload value := by
  cases value with
  | text value => simp [payload, FramePorts.Rust.replacementUtf8]
  | binary bytes => rfl

theorem rawBytes_eq :
    value.bytes.length + (needsRawEscape (payload value)).toNat = (escape value).bytes.length := by
  cases value with
  | text value => rfl
  | binary bytes =>
    rw [needsRawEscape_binary, escape]
    cases collides bytes with
    | false => rfl
    | true => rfl

theorem rawResult_eq (outcome : CompressionWriteOutcome) :
    Rust.rawResult (payload value) outcome = writeResult (unmarked value outcome) := by
  rw [Rust.rawResult, Rust.escape_eq (escaped_escape value), bytes_payload, bytes_payload]
  rfl

theorem compressPayload_eq (zstd : Rust.Zstd) (value : PortablePayload)
    (c : PayloadEnvelope.CompressionConfig) (hsafe : c.thresholdBytes ≤ maxSafeInteger)
    (maximum : ℕ) :
    compressPayload zstd (payload value) (config c) maximum =
      (store (zstdCompress zstd value.bytes c.level) c.thresholdBytes maximum value).map
        writeResult := by
  have hmarker : (if (payload value).binary then markerZstdBinary else markerZstdUtf8) =
      marker value := by
    cases value <;> rfl
  rw [compressPayload, validate_eq, if_neg (Nat.not_lt.mpr hsafe), KeyAgreement.ok_bind]
  simp only [replaced_payload]
  simp only [rawResult_eq, bytes_payload, rawBytes_eq, hmarker, map_store, config, ← not_lt, ite_not]
  rfl

end Rust

namespace Python

open FramePorts.Python KeyAgreement.Python

theorem payloadBytes_eq : payloadBytes (payload value) = value.bytes := by
  cases value with
  | text value => simp [payload, payloadBytes, utf8Bytes, utf16Units_codePoints, PortablePayload.bytes]
  | binary bytes => rfl

theorem sizeOfStored_eq :
    sizeOfStored value.bytes (payload (escape value)) = (escape value).bytes.length := by
  cases value with
  | text value => rfl
  | binary bytes =>
    rw [escape]
    cases collides bytes with
    | false => rfl
    | true => rfl

theorem compressPayload_eq (zstd : Python.Zstd ε) (value : PortablePayload)
    (thresholdBytes level maximum : ℕ) :
    compressPayload zstd (payload value) thresholdBytes level maximum =
      (store (zstd.compress level value.bytes) thresholdBytes maximum value).map writeResult := by
  have hmarker : (if isBytes (payload value) then (2 : UInt8) else 1) = marker value := by
    cases value <;> rfl
  simp only [compressPayload, payloadBytes_eq, Python.escape_eq (escaped_escape value),
    sizeOfStored_eq, hmarker, map_store]
  rfl

end Python

/-! ### Readers -/

section Escapes

variable {value stored : PortablePayload} (h : Escaped value stored)
include h

theorem TypeScript.decompressPayload_escaped (zstd : Zstd ε) (maximum : ℕ) :
    decompressPayloadWithin zstd maximum (FramePorts.TypeScript.payload stored) =
      readResult ⟨value, .passthrough⟩ := by
  cases h with
  | text value => rfl
  | empty => rfl
  | collided rest h =>
    simp [decompressPayloadWithin, FramePorts.TypeScript.payload, markerEscapedRaw,
      markerZstdBinary, readResult, h]
  | plain rest h h₀ h₁ h₂ => exact (if_neg h₀).trans (if_pos ⟨h₁, h₂⟩)

theorem Go.decompressPayload_escaped (zstd : Go.Zstd) (limit : ℤ) :
    Go.decompressPayload zstd (Go.payload stored) limit = .ok (readResult ⟨value, .passthrough⟩) := by
  cases h with
  | text value => rfl
  | empty => rfl
  | collided rest h => simp [Go.decompressPayload, Go.payload, readResult, h, pure, Except.pure]
  | plain rest h h₀ h₁ h₂ => exact (if_neg h₀).trans (if_pos ⟨h₁, h₂⟩)

theorem Rust.decompressPayload_escaped (zstd : Rust.Zstd) (maximum : ℕ) :
    Rust.decompressPayload zstd (Rust.payload stored) maximum =
      readResult ⟨value, .passthrough⟩ := by
  cases h with
  | text value => rfl
  | empty => rfl
  | collided rest h =>
    simp [Rust.decompressPayload, Rust.payload, markerEscapedRaw, markerZstdBinary, readResult, h]
  | plain rest h h₀ h₁ h₂ => exact (if_neg h₀).trans (if_neg (not_or.mpr ⟨h₁, h₂⟩))

theorem Python.decompressPayload_escaped (zstd : Python.Zstd ε) (maximum : ℕ) :
    Python.decompressPayload zstd (FramePorts.Python.payload stored) maximum =
      readResult ⟨value, .passthrough⟩ := by
  cases h with
  | text value => rfl
  | empty => rfl
  | collided rest h =>
    simp [Python.decompressPayload, FramePorts.Python.payload, readResult, h]
  | plain rest h h₀ h₁ h₂ => exact (if_neg h₀).trans (if_pos ⟨h₁, h₂⟩)

end Escapes

section Marks

variable {value : PortablePayload} {frame : Bytes} {maximum : ℕ}

theorem TypeScript.decompressPayload_marked {zstd : Zstd ε}
    (h : zstd.decompress frame maximum = .ok value.bytes) :
    decompressPayloadWithin zstd maximum (.binary (marker value :: frame)) =
      readResult ⟨value, .decompressed⟩ := by
  cases value with
  | text value =>
    simp [decompressPayloadWithin, marker, h, markerEscapedRaw, markerZstdUtf8, readResult,
      FramePorts.TypeScript.payload, PortablePayload.bytes]
  | binary bytes =>
    simp [decompressPayloadWithin, marker, h, markerEscapedRaw, markerZstdUtf8, markerZstdBinary,
      readResult, FramePorts.TypeScript.payload, PortablePayload.bytes]

theorem Go.decompressPayload_marked {zstd : Go.Zstd} {limit : ℤ}
    (h : Go.decodeFirstFrame zstd frame limit = .ok (.ok value.bytes)) :
    Go.decompressPayload zstd ⟨marker value :: frame, true⟩ limit =
      .ok (readResult ⟨value, .decompressed⟩) := by
  rw [Go.decompressPayload]
  cases value with
  | text value =>
    simp [marker, h, ok_bind, readResult, Go.payload, PortablePayload.bytes, replacementUtf8_eq]
    rfl
  | binary bytes =>
    simp [marker, h, ok_bind, readResult, Go.payload, PortablePayload.bytes]
    rfl

theorem Rust.decompressPayload_marked {zstd : Rust.Zstd}
    (h : Rust.decodeFirstZstdFrame zstd frame maximum = .ok value.bytes) :
    Rust.decompressPayload zstd ⟨marker value :: frame, true⟩ maximum =
      readResult ⟨value, .decompressed⟩ := by
  cases value with
  | text value =>
    simp [Rust.decompressPayload, marker, h, markerEscapedRaw, markerZstdUtf8, readResult,
      Rust.payload, PortablePayload.bytes, FramePorts.Rust.replacementUtf8]
  | binary bytes =>
    simp [Rust.decompressPayload, marker, h, markerEscapedRaw, markerZstdUtf8, markerZstdBinary,
      readResult, Rust.payload, PortablePayload.bytes]

theorem Python.decompressPayload_marked {zstd : Python.Zstd ε}
    (h : Python.decodeFirstFrame zstd frame maximum = .ok value.bytes) :
    Python.decompressPayload zstd (.bytes (marker value :: frame)) maximum =
      readResult ⟨value, .decompressed⟩ := by
  cases value with
  | text value | binary bytes =>
    simp [Python.decompressPayload, marker, h, readResult, FramePorts.Python.payload,
      PortablePayload.bytes]

end Marks

/-! ### The zstd format -/

/-- The four ports' zstd libraries. -/
structure Codecs (ε : Type) where
  typescript : PayloadEnvelope.Zstd ε
  go : Go.Zstd
  rust : Rust.Zstd
  python : Python.Zstd ε

/-- The largest cap that is an `int` in Go and a `maxOutputLength` in Node. -/
def capLimit (size : IntSize) : ℕ := min size.maxInt maxSafeInteger

/-- What every decoder takes under a cap: a nonempty content within it. -/
structure Decodable (size : IntSize) (maximum : ℕ) (bytes : Bytes) : Prop where
  nonempty : bytes ≠ []
  within : bytes.length ≤ maximum
  cap : maximum ≤ capLimit size

/-- The calls of `decompress_stream` from one on give the content: each makes progress, none runs
out of input without output, and the hint is zero when the frame is complete and flushed. -/
inductive Rust.Streams (zstd : Rust.Zstd) (frame : Bytes) : ℕ → ℕ → Bytes → Prop
  | last {turn pos : ℕ} {answer : StreamTurn (frame.length - pos)}
      (h : zstd.decompressStream frame turn pos = .ok answer) (hint : answer.hint = 0) :
      Streams zstd frame turn pos answer.produced
  | more {turn pos : ℕ} {answer : StreamTurn (frame.length - pos)} {rest : Bytes}
      (h : zstd.decompressStream frame turn pos = .ok answer) (hint : answer.hint ≠ 0)
      (input : ¬ (pos + answer.consumed = frame.length ∧ answer.produced = []))
      (progress : ¬ (answer.consumed = 0 ∧ answer.produced = []))
      (tail : Streams zstd frame (turn + 1) (pos + answer.consumed) rest) :
      Streams zstd frame turn pos (answer.produced ++ rest)

/-- What the libraries share: `isFrame frame bytes` says that `frame` is one complete frame of
`bytes`. Every encoder writes one of a nonempty content, and every decoder reads one, Go's within
the memory that it is granted. -/
structure Format (codecs : Codecs ε) where
  isFrame : Bytes → Bytes → Prop
  memory : Bytes → ℕ
  typescript_compress : ∀ {level bytes frame}, bytes ≠ [] →
    codecs.typescript.compress level bytes = .ok frame → isFrame frame bytes
  go_encodeAll : ∀ {level bytes frame}, bytes ≠ [] →
    codecs.go.encodeAll level bytes = .ok frame → isFrame frame bytes
  rust_compress2 : ∀ {parameters bytes frame}, bytes ≠ [] →
    codecs.rust.compress2 parameters bytes = .ok frame → isFrame frame bytes
  python_compress : ∀ {level bytes frame}, bytes ≠ [] →
    codecs.python.compress level bytes = .ok frame → isFrame frame bytes
  typescript_decompress : ∀ {frame bytes maximum}, isFrame frame bytes →
    Decodable codecs.go.intSize maximum bytes →
    codecs.typescript.decompress frame maximum = .ok bytes
  go_header : ∀ {frame bytes}, isFrame frame bytes →
    ∃ header, codecs.go.headers.decode frame = .ok header ∧ Frame header frame
  go_newReader : ∀ {frame bytes granted}, isFrame frame bytes → memory frame ≤ granted →
    codecs.go.newReader frame granted = .ok ⟨bytes, none⟩
  rust_findFrameCompressedSize : ∀ {frame bytes}, isFrame frame bytes →
    codecs.rust.findFrameCompressedSize frame = .ok frame.length
  rust_decompressStream : ∀ {frame bytes}, isFrame frame bytes →
    Rust.Streams codecs.rust frame 0 0 bytes
  python_frameContentSize : ∀ {frame bytes}, isFrame frame bytes →
    codecs.python.frameContentSize frame = some none ∨
      codecs.python.frameContentSize frame = some (some bytes.length)
  python_decompress : ∀ {frame bytes maximum}, isFrame frame bytes →
    Decodable codecs.go.intSize maximum bytes →
    codecs.python.decompress frame maximum = some bytes
  python_readToIter : ∀ {frame bytes} size, isFrame frame bytes → 0 < size →
    (codecs.python.readToIter frame size).chunks.flatten = bytes ∧
      (codecs.python.readToIter frame size).raised = false ∧
      (codecs.python.readToIter frame size).exhausted = false

section Decoders

variable {codecs : Codecs ε} (format : Format codecs) {frame bytes : Bytes} {maximum : ℕ}

/-- Within the caps neither conversion to `int64` wraps. -/
theorem Go.int64_succ {size : IntSize} (h : maximum ≤ capLimit size) :
    Go.int64 (Go.int64 maximum + 1) = maximum + 1 := by
  have hsafe : maximum ≤ 2 ^ 53 - 1 := h.trans (min_le_right _ _)
  have hfits : ∀ n : ℤ, 0 ≤ n → n ≤ 2 ^ 53 → Go.int64 n = n := by
    intro n h₀ h
    exact Int.bmod_eq_of_le (by omega) (by omega)
  rw [hfits maximum (by omega) (by omega), hfits (maximum + 1) (by omega) (by omega)]

theorem Go.decodeFirstFrame_eq (hframe : format.isFrame frame bytes)
    (h : Decodable codecs.go.intSize maximum bytes)
    (hmemory : format.memory frame ≤ maxDecompressedBytes)
    (hfits : frame.length ≤ codecs.go.intSize.maxInt) :
    Go.decodeFirstFrame codecs.go frame maximum = .ok (.ok bytes) := by
  obtain ⟨header, hdecode, hlayout⟩ := format.go_header hframe
  have hwithin := h.within
  have hread : Go.readAll ⟨bytes, none⟩ (maximum + 1) = ⟨bytes, none⟩ :=
    if_pos (Int.lt_add_one_of_le (Int.ofNat_le.mpr hwithin))
  rw [Go.decodeFirstFrame, if_neg (by omega), firstZstdFrame_self hlayout hdecode hfits,
    ok_bind]
  dsimp only
  rw [format.go_newReader hframe hmemory]
  dsimp only
  rw [Go.int64_succ h.cap, hread]
  exact if_neg (Int.not_lt.mpr (Int.ofNat_le.mpr hwithin))

/-- From any turn on the loop adds the content to what it has. -/
theorem Rust.decodeTurns_eq {zstd : Rust.Zstd} {turn pos : ℕ}
    (hstreams : Rust.Streams zstd frame turn pos bytes) (out : Bytes)
    (hmaximum : out.length + bytes.length ≤ maximum) :
    Rust.decodeTurns zstd frame maximum turn pos out = .ok (out ++ bytes) := by
  induction hstreams generalizing out with
  | last h hint =>
    rw [Rust.decodeTurns, h]
    dsimp only
    rw [if_neg (by omega), if_pos hint]
  | @more turn pos answer rest h hint input progress tail ih =>
    rw [List.length_append] at hmaximum
    rw [Rust.decodeTurns, h]
    dsimp only
    rw [if_neg (by omega), if_neg hint, if_neg input, if_neg progress,
      ih (out ++ answer.produced) (by rw [List.length_append]; omega), List.append_assoc]

theorem Rust.decodeFirstZstdFrame_eq (hframe : format.isFrame frame bytes)
    (h : Decodable codecs.go.intSize maximum bytes) :
    Rust.decodeFirstZstdFrame codecs.rust frame maximum = .ok bytes := by
  have hturns := Rust.decodeTurns_eq (format.rust_decompressStream hframe) []
    (by simpa using h.within)
  rw [Rust.decodeFirstZstdFrame, format.rust_findFrameCompressedSize hframe]
  dsimp only
  rw [if_neg (Nat.lt_irrefl _), List.take_length, hturns, List.nil_append]

theorem Python.passesLimit_eq (chunks : List Bytes) (total : ℕ)
    (h : total + chunks.flatten.length ≤ maximum) :
    Python.passesLimit maximum chunks total = false := by
  induction chunks generalizing total with
  | nil => rfl
  | cons chunk chunks ih =>
    rw [List.flatten_cons, List.length_append] at h
    have hchunk : ¬ maximum < total + chunk.length := by omega
    rw [Python.passesLimit, ih (total + chunk.length) (by omega)]
    simp [hchunk]

theorem Python.decodeFirstFrame_eq (hframe : format.isFrame frame bytes)
    (h : Decodable codecs.go.intSize maximum bytes) :
    Python.decodeFirstFrame codecs.python frame maximum = .ok bytes := by
  have hwithin := h.within
  have hcap : ¬ maximum < bytes.length := by omega
  rw [Python.decodeFirstFrame]
  rcases format.python_frameContentSize hframe with hsize | hsize
  · obtain ⟨hchunks, hraised, hexhausted⟩ :=
      format.python_readToIter (min (64 * 1024) (maximum + 1)) hframe (by omega)
    have hpasses : Python.passesLimit maximum
        (codecs.python.readToIter frame (min (64 * 1024) (maximum + 1))).chunks 0 = false := by
      apply Python.passesLimit_eq
      rw [hchunks]
      omega
    have hiterate : Python.iterate codecs.python frame maximum true = .ok bytes := by
      simp [Python.iterate, hpasses, hraised, hexhausted, hchunks]
    simp only [hsize, hiterate, KeyAgreement.ok_bind, if_neg hcap]
  · have hpos : max 1 maximum = maximum := by
      have := List.length_pos_of_ne_nil h.nonempty
      omega
    simp only [hsize, if_neg hcap, hpos, format.python_decompress hframe h, KeyAgreement.ok_bind]

end Decoders

/-! ### Round trips -/

/-- Every port reads `stored` back to `payload`, with one outcome. -/
def ReadsBack (codecs : Codecs ε) (maximum : ℕ) (payload stored : PortablePayload) : Prop :=
  ∃ outcome,
    decompressPayloadWithin codecs.typescript maximum (FramePorts.TypeScript.payload stored) =
      TypeScript.readResult ⟨payload, outcome⟩ ∧
    Go.decompressPayload codecs.go (Go.payload stored) maximum =
      .ok (Go.readResult ⟨payload, outcome⟩) ∧
    Rust.decompressPayload codecs.rust (Rust.payload stored) maximum =
      Rust.readResult ⟨payload, outcome⟩ ∧
    Python.decompressPayload codecs.python (FramePorts.Python.payload stored) maximum =
      Python.readResult ⟨payload, outcome⟩

theorem readsBack_escape (codecs : Codecs ε) (maximum : ℕ) (payload : PortablePayload) :
    ReadsBack codecs maximum payload (escape payload) := by
  have h := escaped_escape payload
  exact ⟨.passthrough, TypeScript.decompressPayload_escaped h codecs.typescript maximum,
    Go.decompressPayload_escaped h codecs.go maximum,
    Rust.decompressPayload_escaped h codecs.rust maximum,
    Python.decompressPayload_escaped h codecs.python maximum⟩

variable {codecs : Codecs ε} {maximum : ℕ}

variable {payload : PortablePayload} {frame : Bytes}

theorem readsBack_marked (format : Format codecs) (hframe : format.isFrame frame payload.bytes)
    (h : Decodable codecs.go.intSize maximum payload.bytes)
    (hmemory : format.memory frame ≤ maxDecompressedBytes)
    (hsmaller : frame.length ≤ payload.bytes.length) :
    ReadsBack codecs maximum payload (.binary (marker payload :: frame)) := by
  have hfits : frame.length ≤ codecs.go.intSize.maxInt :=
    (hsmaller.trans h.within).trans (h.cap.trans (min_le_left _ _))
  exact ⟨.decompressed,
    TypeScript.decompressPayload_marked (format.typescript_decompress hframe h),
    Go.decompressPayload_marked (Go.decodeFirstFrame_eq format hframe h hmemory hfits),
    Rust.decompressPayload_marked (Rust.decodeFirstZstdFrame_eq format hframe h),
    Python.decompressPayload_marked (Python.decodeFirstFrame_eq format hframe h)⟩

/-- What a write owes: true sizes, never more than the escaped form, strictly less when
compressed, and a payload that every port reads back. -/
structure StoreLaw (codecs : Codecs ε) (maximum : ℕ) (payload : PortablePayload) (stored : Stored) :
    Prop where
  originalBytes : stored.originalBytes = payload.bytes.length
  storedBytes : stored.storedBytes = stored.payload.bytes.length
  bounded : stored.storedBytes ≤ (escape payload).bytes.length
  smaller : stored.outcome = .compressed → stored.storedBytes < (escape payload).bytes.length
  readsBack : ReadsBack codecs maximum payload stored.payload

theorem storeLaw_unmarked (codecs : Codecs ε) (maximum : ℕ) (payload : PortablePayload)
    {outcome : CompressionWriteOutcome} (h : outcome ≠ .compressed) :
    StoreLaw codecs maximum payload (unmarked payload outcome) where
  originalBytes := rfl
  storedBytes := rfl
  bounded := le_refl _
  smaller hcompressed := absurd hcompressed h
  readsBack := readsBack_escape codecs maximum payload

theorem length_escape_le (payload : PortablePayload) :
    (escape payload).bytes.length ≤ payload.bytes.length + 1 := by
  have h := escaped_escape payload
  generalize escape payload = stored at h
  cases h with
  | text value => exact Nat.le_succ _
  | empty => exact Nat.le_succ _
  | collided rest h => exact Nat.le_refl _
  | plain rest h => exact Nat.le_succ _

section Writers

variable (format : Format codecs) {δ R : Type} {compressed : Except δ Bytes} {thresholdBytes : ℕ}
  (hthreshold : 0 < thresholdBytes) (hcap : maximum ≤ capLimit codecs.go.intSize)
  (hmemory : ∀ frame, format.isFrame frame payload.bytes → format.memory frame ≤ maxDecompressedBytes)
  (hframe : ∀ frame, payload.bytes ≠ [] → compressed = .ok frame →
    format.isFrame frame payload.bytes)
include hthreshold hcap hmemory hframe

theorem storeLaw_store {stored : Stored}
    (h : store compressed thresholdBytes maximum payload = .ok stored) :
    StoreLaw codecs maximum payload stored := by
  rw [store] at h
  split at h
  · rw [← Except.ok.inj h]
    exact storeLaw_unmarked codecs maximum payload (by decide)
  · rename_i hover
    split at h
    · rw [← Except.ok.inj h]
      exact storeLaw_unmarked codecs maximum payload (by decide)
    · rename_i hmaximum
      cases hcompressed : compressed with
      | error e =>
        rw [hcompressed] at h
        cases h
      | ok frame =>
        rw [hcompressed] at h
        have hstored := Except.ok.inj h
        dsimp only at hstored
        have hbytes : payload.bytes ≠ [] := by
          intro hnil
          rw [hnil, List.length_nil] at hover
          exact hover hthreshold
        split at hstored
        · rw [← hstored]
          exact storeLaw_unmarked codecs maximum payload (by decide)
        · rename_i hsmaller
          have hwritten := hframe frame hbytes hcompressed
          have hescape := length_escape_le payload
          rw [← hstored]
          exact {
            originalBytes := rfl
            storedBytes := rfl
            bounded := (Nat.not_le.mp hsmaller).le
            smaller := fun _ => Nat.not_le.mp hsmaller
            readsBack := readsBack_marked format hwritten ⟨hbytes, Nat.not_lt.mp hmaximum, hcap⟩
              (hmemory frame hwritten) (by omega) }

/-- A writer that maps `store` into its own results meets the store law and returns whenever
its encoder does. -/
theorem writer_law (write : Stored → R) :
    (∀ result, (store compressed thresholdBytes maximum payload).map write = .ok result →
      ∃ stored, result = write stored ∧ StoreLaw codecs maximum payload stored) ∧
    ((∃ frame, compressed = .ok frame) →
      ∃ result, (store compressed thresholdBytes maximum payload).map write = .ok result) := by
  constructor
  · intro result h
    cases hstore : store compressed thresholdBytes maximum payload with
    | error e =>
      rw [hstore] at h
      cases h
    | ok stored =>
      rw [hstore] at h
      exact ⟨stored, (Except.ok.inj h).symm,
        storeLaw_store format hthreshold hcap hmemory hframe hstore⟩
  · intro h
    obtain ⟨frame, hcompressed⟩ := h
    rw [store, hcompressed]
    split
    · exact ⟨_, rfl⟩
    · split <;> exact ⟨_, rfl⟩

end Writers

theorem Go.compressPayload_unsafe (zstd : Go.Zstd) (value : PortablePayload)
    (c : PayloadEnvelope.CompressionConfig) (hbeyond : maxSafeInteger < c.thresholdBytes)
    (maximum : ℕ) (result : Go.CompressionWriteResult) :
    Go.compressPayload zstd (Go.payload value) (Go.config c) maximum ≠ .ok result := by
  rw [Go.compressPayload, Go.resolve_eq, if_pos hbeyond]
  intro h
  cases h

theorem Rust.compressPayload_unsafe (zstd : Rust.Zstd) (value : PortablePayload)
    (c : PayloadEnvelope.CompressionConfig) (hbeyond : maxSafeInteger < c.thresholdBytes)
    (maximum : ℕ) (result : Rust.CompressionWriteResult) :
    Rust.compressPayload zstd (Rust.payload value) (Rust.config c) maximum ≠ .ok result := by
  rw [Rust.compressPayload, Rust.validate_eq, if_pos hbeyond]
  intro h
  cases h

variable {bytes : Bytes}

theorem Rust.isFrame_of_zstdCompress (format : Format codecs) {level : ℤ} (hbytes : bytes ≠ [])
    (h : Rust.zstdCompress codecs.rust bytes level = .ok frame) : format.isFrame frame bytes := by
  rw [Rust.zstdCompress] at h
  cases hlevel : codecs.rust.setParameter [] (.compressionLevel level) with
  | error name =>
    rw [hlevel] at h
    cases h
  | ok _ =>
    rw [hlevel, KeyAgreement.ok_bind] at h
    cases hflag : codecs.rust.setParameter [.compressionLevel level] (.checksumFlag false) with
    | error name =>
      rw [hflag] at h
      cases h
    | ok _ =>
      rw [hflag, KeyAgreement.ok_bind] at h
      cases hframe : codecs.rust.compress2 [.compressionLevel level, .checksumFlag false] bytes with
      | error name =>
        rw [hframe] at h
        cases h
      | ok written =>
        rw [hframe] at h
        rw [← Except.ok.inj h]
        exact format.rust_compress2 hbytes hframe

/-- A block header, the lowest byte first. -/
def blockHeader (value : ℕ) : Bytes :=
  [UInt8.ofNat value, UInt8.ofNat (value / 2 ^ 8), UInt8.ofNat (value / 2 ^ 16)]

/-- A zstd frame of one block: a run-length block for a run of one byte, else a raw block. -/
def runFrame (bytes : Bytes) : Bytes :=
  [0x28, 0xB5, 0x2F, 0xFD, 0x00, 0x58] ++
    if bytes = List.replicate bytes.length 7 then blockHeader (8 * bytes.length + 3) ++ [7]
    else blockHeader (8 * bytes.length + 1) ++ bytes

def runContent : Bytes → Bytes
  | _ :: _ :: _ :: _ :: _ :: _ :: b₀ :: b₁ :: b₂ :: content =>
    if headerValue b₀ b₁ b₂ / 2 % 4 = 1 then
      List.replicate (headerValue b₀ b₁ b₂ / 8) (content.headD 0)
    else content
  | _ => []

theorem headerValue_blockHeader {value : ℕ} (h : value < 2 ^ 24) :
    headerValue (UInt8.ofNat value) (UInt8.ofNat (value / 2 ^ 8)) (UInt8.ofNat (value / 2 ^ 16)) =
      value := by
  rw [headerValue, UInt8.toNat_ofNat', UInt8.toNat_ofNat', UInt8.toNat_ofNat']
  omega

theorem runContent_runFrame (h : bytes.length < 2 ^ 21) : runContent (runFrame bytes) = bytes := by
  rw [runFrame]
  split
  · rename_i hrun
    simp only [blockHeader, List.cons_append, List.nil_append, runContent]
    rw [headerValue_blockHeader (by omega), if_pos (by omega), List.headD_cons,
      show (8 * bytes.length + 3) / 8 = bytes.length by omega, ← hrun]
  · simp only [blockHeader, List.cons_append, List.nil_append, runContent]
    rw [headerValue_blockHeader (by omega), if_neg (by omega)]

theorem frame_of_block {front content : Bytes} {value : ℕ} (hvalue : value < 2 ^ 24)
    (hlast : value % 2 = 1) (hkind : value / 2 % 4 ≠ 3) (hsize : content.length = occupied value)
    (hfront : front.length = 6) :
    Frame ⟨6, false, 0, false⟩ (front ++ (blockHeader value ++ content)) := by
  have hheader := headerValue_blockHeader hvalue
  have hblock : Block (headerValue (UInt8.ofNat value) (UInt8.ofNat (value / 2 ^ 8))
      (UInt8.ofNat (value / 2 ^ 16)) % 2 == 1) (blockHeader value ++ content) :=
    Block.mk (by rwa [hheader]) (by rwa [hheader])
  rw [hheader, hlast] at hblock
  have hframe : Frame ⟨6, false, 0, false⟩ (front ++ (blockHeader value ++ content ++ [])) :=
    Frame.standard rfl hfront (Blocks.last hblock) rfl
  rwa [List.append_nil] at hframe

theorem frame_runFrame (h : bytes.length < 2 ^ 21) :
    Frame ⟨6, false, 0, false⟩ (runFrame bytes) := by
  rw [runFrame]
  split
  · exact frame_of_block (by omega) (by omega) (by omega)
      (by rw [occupied, if_pos (by omega)]; rfl) rfl
  · exact frame_of_block (by omega) (by omega) (by omega)
      (by rw [occupied, if_neg (by omega)]; omega) rfl

theorem decode_runFrame (bytes : Bytes) :
    plainHeaders.decode (runFrame bytes) = .ok ⟨6, false, 0, false⟩ := by
  have htake : (runFrame bytes).take 6 = [0x28, 0xB5, 0x2F, 0xFD, 0x00, 0x58] := rfl
  simp only [plainHeaders, htake, if_true]

def encodeRun (bytes : Bytes) : Except String Bytes :=
  if bytes.length < 2 ^ 21 then .ok (runFrame bytes) else .error "longer than a block"

/-- Node's decoder takes a `maxOutputLength` from 1 to the largest safe integer. -/
def decodeRun (frame : Bytes) (maximum : ℕ) : Except ZstdError Bytes :=
  if maximum < 1 ∨ maxSafeInteger < maximum then .error .rejected
  else if maximum < (runContent frame).length then .error .tooLarge
  else .ok (runContent frame)

/-- The header first, then the block. -/
def streamRun (frame : Bytes) (turn pos : ℕ) : Rust.StreamTurn (frame.length - pos) :=
  if turn = 0 then ⟨3, min 6 (frame.length - pos), [], min_le_right _ _⟩
  else ⟨0, frame.length - pos, runContent frame, le_refl _⟩

def runCodecs : Codecs String where
  typescript := ⟨fun _ => encodeRun, decodeRun⟩
  go := {
    intSize := .bits64
    headers := plainHeaders
    encodeAll := fun _ => encodeRun
    newReader := fun frame memory =>
      .ok (if memory < (runContent frame).length then
        ⟨[], some ⟨true, "decompressed size exceeds configured limit"⟩⟩ else ⟨runContent frame, none⟩) }
  rust := {
    setParameter := fun _ _ => .ok ()
    compress2 := fun _ => encodeRun
    findFrameCompressedSize := fun frame => .ok frame.length
    decompressStream := fun frame turn pos => .ok (streamRun frame turn pos) }
  python := {
    compress := fun _ => encodeRun
    frameContentSize := fun frame => some (some (runContent frame).length)
    readToIter := fun frame _ => ⟨[runContent frame], false, false⟩
    streamRead := fun _ _ _ => none
    decompress := fun frame _ => some (runContent frame) }

/-- What the codec writes. -/
def IsRun (frame bytes : Bytes) : Prop := bytes.length < 2 ^ 21 ∧ frame = runFrame bytes

theorem isRun_of_encodeRun (h : encodeRun bytes = .ok frame) : IsRun frame bytes := by
  rw [encodeRun] at h
  split at h
  · rename_i hlength
    exact ⟨hlength, (Except.ok.inj h).symm⟩
  · cases h

theorem IsRun.content (h : IsRun frame bytes) : runContent frame = bytes := by
  rw [h.2, runContent_runFrame h.1]

theorem IsRun.header_lt (h : IsRun frame bytes) : 6 < frame.length := by
  rw [h.2, runFrame]
  split <;> simp [blockHeader]

theorem streams_run (h : IsRun frame bytes) : Rust.Streams runCodecs.rust frame 0 0 bytes := by
  have hheader : (streamRun frame 0 0).consumed = 6 := min_eq_left h.header_lt.le
  have hcontent : (streamRun frame 1 (0 + (streamRun frame 0 0).consumed)).produced = bytes :=
    h.content
  have hblock : Rust.Streams runCodecs.rust frame 1 (0 + (streamRun frame 0 0).consumed) bytes :=
    hcontent ▸ .last rfl rfl
  have hframe : Rust.Streams runCodecs.rust frame 0 0 ((streamRun frame 0 0).produced ++ bytes) := by
    refine .more rfl (Nat.succ_ne_zero 2) ?_ ?_ hblock
    · intro hend
      have hlength := h.header_lt
      rw [hheader] at hend
      omega
    · intro hstill
      rw [hheader] at hstill
      omega
  exact hframe

def runFormat : Format runCodecs where
  isFrame := IsRun
  memory frame := (runContent frame).length
  typescript_compress _ h := isRun_of_encodeRun h
  go_encodeAll _ h := isRun_of_encodeRun h
  rust_compress2 _ h := isRun_of_encodeRun h
  python_compress _ h := isRun_of_encodeRun h
  typescript_decompress {frame bytes maximum} hframe h := by
    have hpos := List.length_pos_of_ne_nil h.nonempty
    have hwithin := h.within
    have hsafe : maximum ≤ maxSafeInteger := h.cap.trans (min_le_right _ _)
    show decodeRun frame maximum = .ok bytes
    rw [decodeRun, if_neg (by omega), hframe.content, if_neg (by omega)]
  go_header hframe :=
    ⟨_, hframe.2 ▸ decode_runFrame _, hframe.2 ▸ frame_runFrame hframe.1⟩
  go_newReader {frame bytes granted} hframe hmemory := by
    show Except.ok (if granted < (runContent frame).length then _
      else Go.Stream.mk (runContent frame) none) = .ok _
    rw [if_neg (Nat.not_lt.mpr hmemory), hframe.content]
  rust_findFrameCompressedSize _ := rfl
  rust_decompressStream hframe := streams_run hframe
  python_frameContentSize {frame bytes} hframe := by
    right
    show some (some (runContent frame).length) = _
    rw [hframe.content]
  python_decompress hframe _ := congrArg some hframe.content
  python_readToIter _ hframe _ :=
    ⟨(List.append_nil _).trans hframe.content, rfl, rfl⟩

/-- What Go stores of sixteen equal bytes. -/
def markedRun : Bytes :=
  [2, 0x28, 0xB5, 0x2F, 0xFD, 0x00, 0x58, 0x83, 0x00, 0x00, 7]

end DialCache.EnvelopePorts
