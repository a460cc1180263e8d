import DialCache.WatermarkParsers

/-!
# Frames agree

Every port classifies every raw reply as the portable definition does, and what one port
encodes every port decodes.
-/

namespace DialCache.FramePorts

open UnicodeText JsValues DecimalText Binary64Integers RedisFrames PortableKeys Utf8Replacement
open KeyPorts

variable {watermark : Option Bytes}

theorem fence_le {fence : ℕ} (h : watermark.bind watermarkValue = some fence) :
    fence ≤ maxSafeInteger := by
  obtain ⟨raw, -, hvalue⟩ := Option.bind_eq_some_iff.mp h
  unfold watermarkValue at hvalue
  split at hvalue
  · rename_i hle
    obtain rfl := Option.some.inj hvalue
    exact hle.2
  · cases hvalue

variable {frame : Bytes}

theorem tag_of_supported (h : isSupported frame = true) :
    frame.drop 9 = (frame.drop 9).headD 0 :: frame.drop 10 := by
  simp only [isSupported, Bool.and_eq_true, decide_eq_true_eq] at h
  have hne : frame.drop 9 ≠ [] := by
    intro hnil
    have := List.drop_eq_nil_iff.mp hnil
    omega
  cases hdrop : frame.drop 9 with
  | nil => exact absurd hdrop hne
  | cons tag rest =>
    have hrest : frame.drop 10 = rest := by
      rw [show 10 = 9 + 1 from rfl, ← List.drop_drop, hdrop]
      rfl
    rw [hrest]
    rfl

theorem one_lt_of_ne {tag : UInt8} (h0 : tag ≠ 0) (h1 : tag ≠ 1) : 1 < tag := by
  have hne0 : tag.toNat ≠ 0 := fun h => h0 (UInt8.toNat_inj.mp h)
  have hne1 : tag.toNat ≠ 1 := fun h => h1 (UInt8.toNat_inj.mp h)
  rw [UInt8.lt_iff_toNat_lt]
  have hone : (1 : UInt8).toNat = 1 := rfl
  omega

/-- The refusal of the ports, which ask for stamps that are too large. -/
theorem trusted_eq (payload : PortablePayload) (stamp : ℕ) : trusted payload stamp =
    if maxSafeInteger < stamp then .miss .unclassified none else .hit payload stamp := by
  rw [trusted]
  split <;> split <;> first | rfl | omega

/-! ### Deciding on a raw value -/

/-- The fence of a read, and whether its marker is valid. -/
def markerOf (tracked : Bool) (watermark : Option Bytes) : Option ℕ × Bool :=
  if tracked then (watermark.bind watermarkValue,
    watermark.all fun bytes => (watermarkValue bytes).isSome) else (none, true)

variable {tracked : Bool}

theorem markerOf_safe {ms : ℕ} (h : (markerOf tracked watermark).1 = some ms) :
    tracked = true ∧ ms ≤ maxSafeInteger := by
  cases tracked with
  | false => cases h
  | true => exact ⟨rfl, fence_le h⟩

/-- The misses a core passes on as they are: only tracked keys have a fence, which is a safe
integer, and a fenced miss has one. -/
structure KeptMiss (tracked : Bool) (reason : CacheMissReason) (fence : Option ℕ) : Prop where
  safe : ∀ ms, fence = some ms → tracked = true ∧ ms ≤ maxSafeInteger
  fenced : ¬ (reason = .watermarkFenced ∧ fence = none)

theorem classify_eq (raw : Option Bytes) (tracked : Bool) (watermark : Option Bytes) :
    classify raw tracked watermark =
      match raw with
      | none => .ok (.miss .valueAbsent (markerOf tracked watermark).1)
      | some frame =>
        if isSupported frame then
          classifyFrame frame tracked (markerOf tracked watermark).2 (markerOf tracked watermark).1
        else .ok (.miss .unclassified (markerOf tracked watermark).1) := by
  cases tracked with
  | false =>
    cases raw with
    | none => rfl
    | some frame => simp [classify, markerOf, classifyFrame]
  | true => cases raw <;> rfl

theorem unsupported_eq (frame : Bytes) :
    (decide (frame.length < 10) || frame.head? != some 1) = !isSupported frame := by
  rw [isSupported, Bool.not_and, bne]
  congr 1
  rw [Bool.eq_iff_iff]
  simp

/-- How every port decides on a raw value, over what it makes of a miss and of the frames it
decodes. -/
def decided {D : Type} (miss : CacheMissReason → Option ℕ → D) (decode : Bytes → D)
    (tracked : Bool) (raw watermark : Option Bytes) : D :=
  match raw with
  | none => miss .valueAbsent (markerOf tracked watermark).1
  | some frame =>
    if !isSupported frame then miss .unclassified (markerOf tracked watermark).1
    else if tracked && (!(markerOf tracked watermark).2 || stampOf frame == 0) then
      miss .unclassified (markerOf tracked watermark).1
    else if tracked && (markerOf tracked watermark).1.any (stampOf frame ≤ ·) then
      miss .watermarkFenced (markerOf tracked watermark).1
    else decode frame

/-- A port that keeps the misses and decodes every payload classifies as the portable
definition does. -/
theorem classify_of_decided {D : Type} (outcome : D → Except WireError Classified)
    {miss : CacheMissReason → Option ℕ → D} {decode : Bytes → D}
    (hmiss : ∀ {reason fence}, KeptMiss tracked reason fence →
      outcome (miss reason fence) = .ok (.miss reason fence))
    (hdecode : ∀ {frame}, isSupported frame = true → outcome (decode frame) =
      (decodePayload ((frame.drop 9).headD 0) (frame.drop 10)).map (trusted · (stampOf frame)))
    (raw : Option Bytes) :
    outcome (decided miss decode tracked raw watermark) = classify raw tracked watermark := by
  have hsafe : ∀ ms, (markerOf tracked watermark).1 = some ms → tracked = true ∧ ms ≤ maxSafeInteger :=
    fun _ => markerOf_safe
  rw [classify_eq]
  cases raw with
  | none => exact hmiss ⟨hsafe, by simp⟩
  | some frame =>
    have hmarker : (tracked && (!(markerOf tracked watermark).2 || stampOf frame == 0)) = true ↔
        tracked = true ∧ ((markerOf tracked watermark).2 = false ∨ stampOf frame = 0) := by simp
    have hfence : (tracked && (markerOf tracked watermark).1.any (stampOf frame ≤ ·)) =
        (markerOf tracked watermark).1.any (stampOf frame ≤ ·) := by
      cases tracked <;> rfl
    simp only [decided, hmarker, hfence]
    cases hsupported : isSupported frame with
    | false => exact hmiss ⟨hsafe, by simp⟩
    | true =>
      simp only [Bool.not_true, Bool.false_eq_true, if_false, if_true, classifyFrame]
      split
      · exact hmiss ⟨hsafe, by simp⟩
      · split
        · rename_i hfenced
          refine hmiss ⟨hsafe, fun h => ?_⟩
          rw [h.2] at hfenced
          cases hfenced
        · exact hdecode hsupported

/-! ### TypeScript -/

variable {reason : CacheMissReason} {fence : Option ℕ}

variable (payload : PortablePayload)

namespace TypeScript

open RedisCache CacheOperations CacheKeys

theorem natural_timestamp (ms : ℕ) :
    (timestamp ms).natural? = if ms ≤ maxSafeInteger then some ms else none := by
  split
  · rename_i hle
    exact JsValue.natural?_ofInt hle
  · rename_i hle
    cases h : (timestamp ms).natural? with
    | none => rfl
    | some n =>
      obtain ⟨heq, hn⟩ := JsValue.eq_of_natural? h
      have hms : (ms : ℤ) = (n : ℤ) := by
        have hrat : ((ms : ℤ) : ℚ) = ((n : ℤ) : ℚ) := by
          simpa [timestamp, JsNumber.ofInt] using heq
        exact_mod_cast hrat
      have hnat : ms = n := by exact_mod_cast hms
      exact absurd (hnat ▸ hn) hle

variable (key : DialCacheKey)

theorem core_frame (payload : RedisCachePayload) (createdAtMs : ℕ) :
    core key (adapterReply (.frame ⟨payload, createdAtMs⟩)) =
      .ok (trusted (portable payload) createdAtMs) := by
  have hkind : isMissKind .undefined = false := rfl
  have hvalue : (Stamp.ofNumber (X := Empty) (.ofInt createdAtMs)).value = timestamp createdAtMs := rfl
  simp only [core, adapterReply, validateReadResult, hkind, Bool.false_eq_true, if_false, hvalue,
    natural_timestamp, trusted]
  split <;> rename_i h <;> split at h <;> simp_all

theorem core_miss (h : KeptMiss key.trackForInvalidation reason fence) :
    core key (adapterReply (redisReadMiss reason fence)) = .ok (.miss reason fence) := by
  have hkind : isMissKind (.string (text "miss")) = true := by decide +kernel
  have hreason : isCacheMissReason (.string (reasonText reason)) = some reason := by
    cases reason <;> decide +kernel
  have hvalidated : ∀ members : ReplyObject Empty, members.observedWatermarkMs =
      .ok ((fence.map timestamp).getD .undefined) → validatedFence key members = .ok fence := by
    intro members hmembers
    rw [validatedFence, hmembers]
    cases fence with
    | none => split <;> rfl
    | some ms =>
      obtain ⟨htracked, hle⟩ := h.safe ms rfl
      simp [htracked, natural_timestamp, hle]
  simp only [core, redisReadMiss, adapterReply, validateReadResult, hkind, if_true, validatedMiss,
    hreason, bind, Except.bind, pure, Except.pure, Option.getD_some]
  rw [hvalidated _ rfl]
  simp only [if_neg h.fenced]

theorem createdAtMs_eq (frame : Bytes) : readFrameCreatedAtMs frame = nearest (stampOf frame) := rfl

theorem trusted_nearest (stamp : ℕ) : trusted payload (nearest stamp) = trusted payload stamp := by
  have hround : nearest stamp ≤ maxSafeInteger ↔ stamp ≤ maxSafeInteger := nearest_le_iff (by decide)
  unfold trusted
  by_cases hle : stamp ≤ maxSafeInteger
  · have hexact : nearest stamp = stamp := by
      apply nearest_of_lt
      have hmax : maxSafeInteger < 2 ^ 53 := by decide
      omega
    rw [hexact]
  · rw [if_neg hle, if_neg (mt hround.mp hle)]

/-- A decoded frame, behind the core. -/
def frameOutcome (key : DialCacheKey) (decoded : Except ProtocolError RedisReadResult) :
    Except WireError Classified :=
  match decoded with
  | .error e => .error (wireError e)
  | .ok result => core key (adapterReply result)

theorem outcome_decodedRedisFrame (h : isSupported frame = true) :
    frameOutcome key ((decodedRedisFrame frame).map .frame) =
      (decodePayload ((frame.drop 9).headD 0) (frame.drop 10)).map (trusted · (stampOf frame)) := by
  have hdrop : frame.drop redisFrameHeaderBytes = (frame.drop 9).headD 0 :: frame.drop 10 :=
    tag_of_supported h
  generalize (frame.drop 9).headD 0 = tag at hdrop ⊢
  rw [decodedRedisFrame, hdrop, createdAtMs_eq]
  by_cases h0 : tag = 0
  · subst h0
    have hcore := core_frame key (.text (units (decodeUtf8 (frame.drop 10)))) (nearest (stampOf frame))
    rw [trusted_nearest, portable, scalars_units] at hcore
    exact hcore
  · by_cases h1 : tag = 1
    · subst h1
      have hcore := core_frame key (.binary (frame.drop 10)) (nearest (stampOf frame))
      rw [trusted_nearest] at hcore
      exact hcore
    · have hpayload : decodeRedisPayload (tag :: frame.drop 10) =
          .error (.redisPayloadEncodingError "Invalid DialCache Redis payload encoding") := by
        simp [decodeRedisPayload, redisEncodingUtf8, redisEncodingBinary, h0, h1]
      rw [hpayload, decodePayload, if_neg h0, if_neg h1]
      rfl

/-- Rounding the stamp does not move it past a fence. -/
theorem decodeTrackedFrame_eq (frame : Bytes) {fence : Option ℕ}
    (hsafe : ∀ ms, fence = some ms → ms ≤ maxSafeInteger) :
    decodeTrackedFrame frame fence =
      if stampOf frame = 0 then .ok (redisReadMiss .unclassified fence)
      else if fence.any (stampOf frame ≤ ·) then .ok (redisReadMiss .watermarkFenced fence)
      else (decodedRedisFrame frame).map .frame := by
  have hmax : maxSafeInteger < 2 ^ 53 := by decide
  have hzero : nearest (stampOf frame) = 0 ↔ stampOf frame = 0 := by
    have hround : nearest (stampOf frame) ≤ 0 ↔ stampOf frame ≤ 0 := nearest_le_iff (by decide)
    omega
  have hfence : fence.any (nearest (stampOf frame) ≤ ·) = fence.any (stampOf frame ≤ ·) := by
    cases fence with
    | none => rfl
    | some ms =>
      have hms := hsafe ms rfl
      have hround : nearest (stampOf frame) ≤ ms ↔ stampOf frame ≤ ms := nearest_le_iff (by omega)
      simp [hround]
  rw [decodeTrackedFrame, createdAtMs_eq, hfence]
  simp only [hzero]

/-- What the decoders make of a miss and of a frame. -/
def decodes (tracked : Bool) (raw watermark : Option Bytes) :
    Except ProtocolError RedisReadResult :=
  decided (fun reason fence => .ok (redisReadMiss reason fence))
    (fun frame => (decodedRedisFrame frame).map .frame) tracked raw watermark

theorem decodeRedisReadResult_eq (raw watermark : Option Bytes) :
    decodeRedisReadResult (reply raw) = decodes false raw watermark := by
  cases raw with
  | none => rfl
  | some frame => rfl

theorem decodeTrackedRedisReadResult_eq (raw watermark : Option Bytes) :
    decodeTrackedRedisReadResult (reply raw) (reply watermark) = decodes true raw watermark := by
  have hreply : ∀ bytes, validateRedisBulkStringReply (reply bytes) = .ok bytes := by
    intro bytes
    cases bytes <;> rfl
  rw [decodeTrackedRedisReadResult, hreply, hreply, funext parse_eq]
  cases raw with
  | none => rfl
  | some frame =>
    rw [decodes, decided]
    change (if (!isSupported frame) = true then _ else _) = _
    split
    · rfl
    · cases watermark with
      | none =>
        refine (decodeTrackedFrame_eq frame (fun ms h => by cases h)).trans ?_
        simp [markerOf]
      | some bytes =>
        cases hvalue : watermarkValue bytes with
        | none => simp [markerOf, hvalue, pure, Except.pure]
        | some ms =>
          have hsafe : ∀ fence, some ms = some fence → fence ≤ maxSafeInteger := by
            intro fence h
            exact @fence_le (some bytes) fence (hvalue.trans h)
          simp [markerOf, hvalue, decodeTrackedFrame_eq frame hsafe]

theorem read_eq (raw watermark : Option Bytes) :
    read key raw watermark = classify raw key.trackForInvalidation watermark := by
  have hread : read key raw watermark =
      frameOutcome key (decodes key.trackForInvalidation raw watermark) := by
    rw [read]
    cases key.trackForInvalidation with
    | false => rw [← decodeRedisReadResult_eq]; rfl
    | true => rw [← decodeTrackedRedisReadResult_eq]; rfl
  rw [hread]
  exact classify_of_decided (frameOutcome key) (core_miss key) (outcome_decodedRedisFrame key) raw

end TypeScript

/-! ### Go, Rust and Python -/

variable (raw : Bytes)

namespace Go

theorem marker_eq (tracked : Bool) (watermark : Option Bytes) :
    (if tracked then parseWatermark watermark else (none, true)) = markerOf tracked watermark := by
  cases tracked with
  | false => rfl
  | true =>
    cases watermark with
    | none => rfl
    | some bytes =>
      simp only [if_true, parseWatermark_eq, markerOf, Option.bind_some, Option.all_some]
      cases watermarkValue bytes <;> rfl

theorem normalize_miss (h : KeptMiss tracked reason fence) :
    normalizeReadResult (.miss reason fence) tracked = .miss reason fence := by
  have hfence : (if (!tracked || fence.any (maxSafeInteger < ·)) = true then none else fence) =
      fence := by
    cases fence with
    | none => simp
    | some ms =>
      obtain ⟨htracked, hle⟩ := h.safe ms rfl
      simp [htracked, hle]
  simp only [normalizeReadResult, hfence, if_neg h.fenced]

theorem classified_hit (frame : Frame) (tracked : Bool) :
    classified (normalizeReadResult (.hit frame) tracked) = .ok (trusted
      (if frame.binary then .binary frame.payload else .text (decodeUtf8 frame.payload))
      frame.createdAtMs) := by
  rw [normalizeReadResult, trusted_eq]
  split <;> rfl

/-- The payload behind an accepted header. -/
def decoded (raw : Bytes) : ReadResult :=
  let tag := (raw.drop 9).headD 0
  if 1 < tag then .payloadEncodingError
  else .hit ⟨stampOf raw, tag == 1, if tag = 0 then replacementUtf8 (raw.drop 10) else raw.drop 10⟩

theorem classified_decoded (tracked : Bool) :
    classified (normalizeReadResult (decoded raw) tracked) =
      (decodePayload ((raw.drop 9).headD 0) (raw.drop 10)).map (trusted · (stampOf raw)) := by
  have htext : decodeUtf8 (replacementUtf8 (raw.drop 10)) = decodeUtf8 (raw.drop 10) := by
    rw [replacementUtf8_eq, decodeUtf8_encodeUtf8]
  rw [decoded]
  generalize (raw.drop 9).headD 0 = tag
  by_cases h0 : tag = 0
  · simp [h0, classified_hit, decodePayload, htext, Except.map]
  · by_cases h1 : tag = 1
    · simp [h1, classified_hit, decodePayload, Except.map]
    · have hgt : 1 < tag := one_lt_of_ne h0 h1
      simp [hgt, normalizeReadResult, classified, decodePayload, h0, h1, Except.map]

theorem read_eq (tracked : Bool) (raw watermark : Option Bytes) :
    read tracked raw watermark = classify raw tracked watermark := by
  have hdecode : decodeFrame raw tracked watermark = decided .miss decoded tracked raw watermark := by
    rw [decodeFrame.eq_def, marker_eq]
    cases raw with
    | none => rfl
    | some frame =>
      dsimp only
      rw [unsupported_eq]
      rfl
  rw [read, hdecode]
  refine classify_of_decided (fun result => classified (normalizeReadResult result tracked)) ?_ ?_ raw
  · intro reason fence h
    rw [normalize_miss h]
    rfl
  · intro frame _
    exact classified_decoded frame tracked

end Go

namespace Rust

theorem marker_eq (tracked : Bool) (watermark : Option Bytes) :
    marker tracked watermark = markerOf tracked watermark := by
  cases tracked with
  | false => rfl
  | true =>
    cases watermark with
    | none => rfl
    | some bytes =>
      simp only [marker, if_true, parseWatermark, Option.map_some, parseWatermarkDigits_eq, markerOf,
        Option.bind_some, Option.all_some]
      cases watermarkValue bytes <;> rfl

theorem normalize_miss (h : KeptMiss tracked reason fence) :
    normalizeReadResult (.miss reason fence) tracked = .miss reason fence := by
  have hfence : (fence.filter fun fence => tracked && fence ≤ maxSafeInteger) = fence := by
    cases fence with
    | none => rfl
    | some ms =>
      obtain ⟨htracked, hle⟩ := h.safe ms rfl
      simp [htracked, hle]
  simp only [normalizeReadResult, hfence, if_neg h.fenced]

/-- A decoded result, behind the core. -/
def outcome (tracked : Bool) (decoded : Except ProtocolError ReadResult) :
    Except WireError Classified :=
  match decoded with
  | .error e => .error (wireError e)
  | .ok result => .ok (classified (normalizeReadResult result tracked))

theorem outcome_hit (frame : Frame) (tracked : Bool) :
    outcome tracked (.ok (.hit frame)) = .ok (trusted (if frame.payload.binary then
      .binary frame.payload.bytes else .text (decodeUtf8 frame.payload.bytes)) frame.createdAtMs) := by
  rw [outcome, normalizeReadResult, trusted_eq]
  split <;> rfl

/-- The payload behind an accepted header. -/
def decoded (raw : Bytes) : Except ProtocolError ReadResult :=
  let tag := (raw.drop 9).headD 0
  if tag = 0 then .ok (.hit ⟨stampOf raw, ⟨replacementUtf8 (raw.drop 10), false⟩⟩)
  else if tag = 1 then .ok (.hit ⟨stampOf raw, ⟨raw.drop 10, true⟩⟩)
  else .error .payloadEncoding

theorem outcome_decoded (tracked : Bool) :
    outcome tracked (decoded raw) =
      (decodePayload ((raw.drop 9).headD 0) (raw.drop 10)).map (trusted · (stampOf raw)) := by
  have htext : decodeUtf8 (replacementUtf8 (raw.drop 10)) = decodeUtf8 (raw.drop 10) := by
    rw [replacementUtf8, decodeUtf8_encodeUtf8]
  rw [decoded]
  generalize (raw.drop 9).headD 0 = tag
  by_cases h0 : tag = 0
  · simp [h0, outcome_hit, decodePayload, htext, Except.map]
  · by_cases h1 : tag = 1
    · simp [h1, outcome_hit, decodePayload, Except.map]
    · simp [outcome, decodePayload, Except.map, h0, h1, wireError]

theorem read_eq (tracked : Bool) (raw watermark : Option Bytes) :
    read tracked raw watermark = classify raw tracked watermark := by
  have hdecode : decodeFrame raw tracked watermark =
      decided (fun reason fence => .ok (.miss reason fence)) decoded tracked raw watermark := by
    rw [decodeFrame, marker_eq]
    cases raw with
    | none => rfl
    | some frame =>
      dsimp only
      rw [unsupported_eq]
      rfl
  have hread : read tracked raw watermark = outcome tracked (decodeFrame raw tracked watermark) := rfl
  rw [hread, hdecode]
  refine classify_of_decided (outcome tracked) ?_ ?_ raw
  · intro reason fence h
    simp only [outcome, normalize_miss h, classified]
  · intro frame _
    exact outcome_decoded frame tracked

end Rust

namespace Python

theorem watermark_bind (watermark : Option Bytes) :
    Python.watermark watermark = watermark.bind watermarkValue := by
  cases watermark with
  | none => rfl
  | some bytes => rw [watermark_eq, Option.bind_some]

theorem core_miss (h : KeptMiss tracked reason fence) :
    core tracked (.miss reason fence) = .miss reason fence := by
  have hfence : (if (tracked && fence.all (· ≤ maxSafeInteger)) = true then fence else none) =
      fence := by
    cases fence with
    | none => simp
    | some ms =>
      obtain ⟨htracked, hle⟩ := h.safe ms rfl
      simp [htracked, hle]
  simp only [core, hfence, if_neg h.fenced]

/-- A decoded result, behind the core. -/
def outcome (tracked : Bool) (decoded : Except DecodeError ReadResult) :
    Except WireError Classified :=
  match decoded with
  | .error .redisPayloadEncodingError => .error .payloadEncoding
  | .ok result => .ok (core tracked result)

def portable : Payload → PortablePayload
  | .str value => .text (scalars (KeyAgreement.Python.utf16Units value))
  | .bytes value => .binary value

theorem outcome_frame (tracked : Bool) (createdAtMs : ℕ) (payload : Payload) :
    outcome tracked (.ok (.frame createdAtMs payload)) =
      .ok (trusted (portable payload) createdAtMs) := by
  rw [outcome, core.eq_def, trusted_eq]
  dsimp only
  split
  · rfl
  · cases payload <;> rfl

theorem outcome_decodedFrame (tracked : Bool) (frame : Bytes) :
    outcome tracked (decodedFrame frame) =
      (decodePayload ((frame.drop 9).headD 0) (frame.drop 10)).map (trusted · (stampOf frame)) := by
  have htext := KeyAgreement.Python.utf16Units_codePoints (decodeUtf8 (frame.drop 10))
  rw [decodedFrame, stampOf]
  generalize (frame.drop 9).headD 0 = tag
  by_cases h0 : tag = 0
  · simp [h0, outcome_frame, portable, decodePayload, htext, Except.map]
  · by_cases h1 : tag = 1
    · simp [h1, outcome_frame, portable, decodePayload, Except.map]
    · simp [outcome, decodePayload, Except.map, h0, h1]

theorem decodeTrackedRead_eq (raw watermark : Option Bytes) :
    decodeTrackedRead raw watermark =
      decided (fun reason fence => .ok (.miss reason fence)) decodedFrame true raw watermark := by
  rw [decodeTrackedRead.eq_def, watermark_bind]
  cases raw with
  | none => rfl
  | some frame =>
    rw [decided]
    change (if (!isSupported frame) = true then _ else _) = _
    split
    · rfl
    · cases watermark with
      | none => simp [markerOf, stampOf]
      | some bytes => cases hvalue : watermarkValue bytes <;> simp [markerOf, hvalue, stampOf]

theorem read_eq (tracked : Bool) (raw watermark : Option Bytes) :
    read tracked raw watermark = classify raw tracked watermark := by
  have hread : read tracked raw watermark = outcome tracked (decided (fun reason fence =>
      .ok (.miss reason fence)) decodedFrame tracked raw watermark) := by
    cases tracked with
    | false => cases raw <;> rfl
    | true =>
      rw [← decodeTrackedRead_eq]
      rfl
  rw [hread]
  refine classify_of_decided (outcome tracked) ?_ ?_ raw
  · intro reason fence h
    simp only [outcome, core_miss h]
  · intro frame _
    exact outcome_decodedFrame tracked frame

end Python

/-! ### Encoders and round trips -/

variable {stamp : ℕ}

theorem stampOf_encodeFrame (h : stamp ≤ maxSafeInteger) :
    stampOf (encodeFrame payload stamp) = stamp := by
  have htake : ((encodeFrame payload stamp).drop 1).take 8 = bigEndian 8 stamp := by
    simp [encodeFrame]
  have hmax : maxSafeInteger < 256 ^ 8 := by decide
  rw [stampOf, htake, readBigEndian_bigEndian (by omega)]

theorem decode_encodeFrame (h : stamp ≤ maxSafeInteger) :
    isSupported (encodeFrame payload stamp) = true ∧
      (decodePayload (((encodeFrame payload stamp).drop 9).headD 0)
        ((encodeFrame payload stamp).drop 10)).map (trusted · stamp) = .ok (.hit payload stamp) := by
  have hdrop : (encodeFrame payload stamp).drop 9 = payload.tag :: payload.bytes := by
    simp [encodeFrame]
  have hbytes : (encodeFrame payload stamp).drop 10 = payload.bytes := by
    rw [show 10 = 9 + 1 from rfl, ← List.drop_drop, hdrop]
    rfl
  constructor
  · simp only [isSupported, encodeFrame, List.length_cons, List.length_append, length_bigEndian,
      List.head?_cons, BEq.rfl, Bool.and_true, decide_eq_true_eq]
    omega
  · rw [hdrop, hbytes]
    cases payload with
    | text value | binary bytes =>
      simp [PortablePayload.tag, PortablePayload.bytes, decodePayload, trusted, h, Except.map]

theorem classify_encodeFrame_untracked (h : stamp ≤ maxSafeInteger)
    (watermark : Option Bytes) :
    classify (some (encodeFrame payload stamp)) false watermark = .ok (.hit payload stamp) := by
  obtain ⟨hsupported, hdecode⟩ := decode_encodeFrame payload h
  rw [classify_eq]
  dsimp only
  rw [if_pos hsupported, classifyFrame, stampOf_encodeFrame payload h, hdecode]
  simp [markerOf]

theorem classify_encodeFrame_tracked (h : stamp ≤ maxSafeInteger)
    (watermark : Option Bytes) :
    classify (some (encodeFrame payload stamp)) true watermark = .ok (.hit payload stamp) ↔
      0 < stamp ∧ ∀ bytes, watermark = some bytes → ∃ w, watermarkValue bytes = some w ∧ w < stamp := by
  obtain ⟨hsupported, hdecode⟩ := decode_encodeFrame payload h
  rw [classify_eq]
  dsimp only
  rw [if_pos hsupported, classifyFrame, stampOf_encodeFrame payload h, hdecode]
  cases watermark with
  | none =>
    by_cases hzero : stamp = 0
    · simp [markerOf, hzero]
    · simp [markerOf, hzero, Nat.pos_of_ne_zero hzero]
  | some bytes =>
    cases hvalue : watermarkValue bytes with
    | none => simp [markerOf, hvalue]
    | some w =>
      by_cases hzero : stamp = 0
      · simp [markerOf, hvalue, hzero]
      · by_cases hfenced : stamp ≤ w
        · simp [markerOf, hvalue, hzero, hfenced]
        · simp [markerOf, hvalue, hzero, hfenced, Nat.pos_of_ne_zero hzero, Nat.not_le.mp hfenced]

theorem TypeScript.encodeFrame_eq (h : stamp ≤ maxSafeInteger) :
    TypeScript.encodeFrame payload stamp = .ok (FramePorts.encodeFrame payload stamp) := by
  rw [TypeScript.encodeFrame, encodeRedisFrame, JsValue.natural?_ofInt h]
  cases payload with
  | text value | binary bytes =>
    simp [TypeScript.payload, frameBytes, FramePorts.encodeFrame, payloadEncoding, payloadBytes,
      PortablePayload.tag, PortablePayload.bytes, redisFrameVersion, redisFrameTimestampBytes,
      redisEncodingUtf8, redisEncodingBinary]

theorem Go.encodeFrame_eq (h : stamp ≤ maxSafeInteger) :
    Go.encodeFrame (Go.frame payload stamp) = .ok (FramePorts.encodeFrame payload stamp) := by
  have hbeyond : ¬ maxSafeInteger < stamp := by omega
  cases payload with
  | text value | binary bytes =>
    simp [Go.encodeFrame, Go.frame, hbeyond, FramePorts.encodeFrame, PortablePayload.tag,
      PortablePayload.bytes, replacementUtf8_eq]

theorem Rust.encodeFrame_eq (h : stamp ≤ maxSafeInteger) :
    Rust.encodeFrame (Rust.frame payload stamp) = .ok (FramePorts.encodeFrame payload stamp) := by
  have hbeyond : ¬ maxSafeInteger < stamp := by omega
  cases payload with
  | text value | binary bytes =>
    simp [Rust.encodeFrame, Rust.frame, hbeyond, FramePorts.encodeFrame, PortablePayload.tag,
      PortablePayload.bytes, Rust.replacementUtf8]

theorem Python.encodeFrame_eq (h : stamp ≤ maxSafeInteger) :
    Python.encodeFrame (Python.payload payload) stamp = .ok (FramePorts.encodeFrame payload stamp) := by
  have hbeyond : ¬ maxSafeInteger < stamp := by omega
  cases payload with
  | text value | binary bytes =>
    simp [Python.encodeFrame, Python.payload, hbeyond, FramePorts.encodeFrame, PortablePayload.tag,
      PortablePayload.bytes, Python.isBytes, Python.payloadBytes, Python.utf8Bytes,
      KeyAgreement.Python.utf16Units_codePoints]

theorem watermarkValue_eq_some_iff (w : ℕ) : watermarkValue raw = some w ↔
    raw ≠ [] ∧ (∀ b ∈ raw, 48 ≤ b.toNat ∧ b.toNat ≤ 57) ∧ value (codes raw) = w ∧
      w ≤ maxSafeInteger := by
  have hdigits : isDigits (codes raw) = true ↔
      raw ≠ [] ∧ ∀ b ∈ raw, 48 ≤ b.toNat ∧ b.toNat ≤ 57 := by
    rw [isDigits_iff]
    simp [codes, isDigit]
  rw [watermarkValue]
  constructor
  · intro h
    split at h
    · rename_i hvalid
      have hvalue : value (codes raw) = w := Option.some.inj h
      exact ⟨(hdigits.mp hvalid.1).1, (hdigits.mp hvalid.1).2, hvalue, hvalue ▸ hvalid.2⟩
    · cases h
  · intro h
    have hvalid : isDigits (codes raw) = true ∧ value (codes raw) ≤ maxSafeInteger :=
      ⟨hdigits.mpr ⟨h.1, h.2.1⟩, h.2.2.1.symm ▸ h.2.2.2⟩
    rw [if_pos hvalid, h.2.2.1]

/-- A frame stamped past the safe integers is never served and never fenced. -/
theorem classify_of_unsafe_stamp (hsupported : isSupported frame = true)
    (hstamp : maxSafeInteger < stampOf frame) (htag : (frame.drop 9).headD 0 ≤ 1) (tracked : Bool)
    (watermark : Option Bytes) :
    classify (some frame) tracked watermark = .ok (.miss .unclassified none) := by
  have hdecoded : (decodePayload ((frame.drop 9).headD 0) (frame.drop 10)).map
      (trusted · (stampOf frame)) = .ok (.miss .unclassified none) := by
    have htrusted : ∀ payload, trusted payload (stampOf frame) = .miss .unclassified none := by
      intro payload
      rw [trusted, if_neg (Nat.not_le.mpr hstamp)]
    rw [decodePayload]
    by_cases hzero : (frame.drop 9).headD 0 = 0
    · rw [if_pos hzero]
      exact congrArg Except.ok (htrusted _)
    · have hone : (frame.drop 9).headD 0 = 1 := by
        by_contra hne
        exact absurd htag (UInt8.not_le.mpr (one_lt_of_ne hzero hne))
      rw [if_neg hzero, if_pos hone]
      exact congrArg Except.ok (htrusted _)
  have hunfenced : (markerOf tracked watermark).1.any (stampOf frame ≤ ·) = false := by
    cases hmarker : (markerOf tracked watermark).1 with
    | none => rfl
    | some w =>
      have hsafe : w ≤ maxSafeInteger := (markerOf_safe hmarker).2
      simp only [Option.any_some, decide_eq_false_iff_not]
      omega
  have hpositive : stampOf frame ≠ 0 := by omega
  rw [classify_eq]
  dsimp only
  rw [if_pos hsupported, classifyFrame]
  split
  · rename_i hmarker
    have hinvalid := hmarker.2.resolve_right hpositive
    cases tracked with
    | false => exact absurd hmarker.1 (by decide)
    | true =>
      cases watermark with
      | none => simp [markerOf] at hinvalid
      | some bytes =>
        cases hvalue : watermarkValue bytes with
        | none => simp [markerOf, hvalue]
        | some w => simp [markerOf, hvalue] at hinvalid
  · rw [if_neg (by simp [hunfenced]), hdecoded]

/-- The four encoders write one frame, which reads back as it was written. On every raw value
and watermark the four readers give one classification, and the four watermark parsers are one
function. -/
theorem frame_agreement :
    (∀ payload stamp, stamp ≤ maxSafeInteger →
      TypeScript.encodeFrame payload stamp = .ok (encodeFrame payload stamp) ∧
      Go.encodeFrame (Go.frame payload stamp) = .ok (encodeFrame payload stamp) ∧
      Rust.encodeFrame (Rust.frame payload stamp) = .ok (encodeFrame payload stamp) ∧
      Python.encodeFrame (Python.payload payload) stamp = .ok (encodeFrame payload stamp) ∧
      ∀ watermark,
        classify (some (encodeFrame payload stamp)) false watermark = .ok (.hit payload stamp) ∧
        (classify (some (encodeFrame payload stamp)) true watermark = .ok (.hit payload stamp) ↔
          0 < stamp ∧
            ∀ bytes, watermark = some bytes → ∃ w, watermarkValue bytes = some w ∧ w < stamp)) ∧
    (∀ (key : CacheKeys.DialCacheKey) (raw watermark : Option (List UInt8)),
      TypeScript.read key raw watermark = classify raw key.trackForInvalidation watermark ∧
      Go.read key.trackForInvalidation raw watermark =
        classify raw key.trackForInvalidation watermark ∧
      Rust.read key.trackForInvalidation raw watermark =
        classify raw key.trackForInvalidation watermark ∧
      Python.read key.trackForInvalidation raw watermark =
        classify raw key.trackForInvalidation watermark) ∧
    (∀ frame, isSupported frame = true → maxSafeInteger < stampOf frame →
      (frame.drop 9).headD 0 ≤ 1 → ∀ tracked watermark,
        classify (some frame) tracked watermark = .ok (.miss .unclassified none)) ∧
    ∀ raw : List UInt8,
      parseRedisWatermark raw = watermarkValue raw ∧
      (Go.parseWatermark (some raw)).1 = watermarkValue raw ∧
      (Go.parseWatermark (some raw)).2 = (watermarkValue raw).isSome ∧
      (Rust.parseWatermarkDigits raw).toOption = watermarkValue raw ∧
      Python.watermark (some raw) = watermarkValue raw ∧
      ∀ w, watermarkValue raw = some w ↔
        raw ≠ [] ∧ (∀ b ∈ raw, 48 ≤ b.toNat ∧ b.toNat ≤ 57) ∧ value (codes raw) = w ∧
          w ≤ maxSafeInteger := by
  constructor
  · intro payload stamp h
    exact ⟨TypeScript.encodeFrame_eq payload h, Go.encodeFrame_eq payload h,
      Rust.encodeFrame_eq payload h, Python.encodeFrame_eq payload h, fun watermark =>
        ⟨classify_encodeFrame_untracked payload h watermark,
          classify_encodeFrame_tracked payload h watermark⟩⟩
  constructor
  · intro key raw watermark
    exact ⟨TypeScript.read_eq key raw watermark, Go.read_eq _ raw watermark,
      Rust.read_eq _ raw watermark, Python.read_eq _ raw watermark⟩
  constructor
  · intro frame hsupported hstamp htag tracked watermark
    exact classify_of_unsafe_stamp hsupported hstamp htag tracked watermark
  · intro raw
    refine ⟨TypeScript.parse_eq raw, ?_, ?_, ?_, Python.watermark_eq raw,
      watermarkValue_eq_some_iff raw⟩
    · rw [Go.parseWatermark_eq]
      cases watermarkValue raw <;> rfl
    · rw [Go.parseWatermark_eq]
      cases watermarkValue raw <;> rfl
    · rw [Rust.parseWatermarkDigits_eq]
      cases watermarkValue raw <;> rfl

/-- A text frame above its watermark, and a frame stamped `2 ^ 53` that every port refuses. -/
theorem frame_agreement_accented :
    Go.encodeFrame (Go.frame (.text ['é']) 5) = .ok [1, 0, 0, 0, 0, 0, 0, 0, 5, 0, 0xC3, 0xA9] ∧
    classify (some [1, 0, 0, 0, 0, 0, 0, 0, 5, 0, 0xC3, 0xA9]) true (some [48, 51]) =
      .ok (.hit (.text ['é']) 5) ∧
    classify (some [1, 0, 0x20, 0, 0, 0, 0, 0, 0, 1, 7]) true (some [48, 51]) =
      .ok (.miss .unclassified none) := by
  have hround := frame_agreement.1 (.text ['é']) 5 (by decide)
  have hframe : encodeFrame (.text ['é']) 5 = [1, 0, 0, 0, 0, 0, 0, 0, 5, 0, 0xC3, 0xA9] := by
    decide +kernel
  rw [hframe] at hround
  constructor
  · exact hround.2.1
  constructor
  · apply ((hround.2.2.2.2 (some [48, 51])).2).mpr
    refine ⟨by decide, ?_⟩
    intro bytes hbytes
    rw [← Option.some.inj hbytes]
    exact ⟨3, by decide +kernel, by decide⟩
  · exact frame_agreement.2.2.1 [1, 0, 0x20, 0, 0, 0, 0, 0, 0, 1, 7] (by decide +kernel)
      (by decide +kernel) (by decide +kernel) true (some [48, 51])

end DialCache.FramePorts
