import DialCache.Utf8Prefixes
import DialCache.FramePorts

/-!
# Clamped log text

Every logged key, pointer and value is clamped to a number of UTF-8 bytes. A clamped text ends
with a marker behind the scalars that fit. Each port finds the cut its own way: TypeScript
encodes twice into one buffer and decodes it again, Rust and Go go back to the first byte of
a scalar, Python decodes cut bytes and ignores their end. A Rust preview does it while the
text is still being written.
-/

namespace DialCache.LogClamps

open UnicodeText CacheKeys Utf8Replacement Utf8Prefixes PortableKeys

/-- `...[truncated]`. -/
def marker : Text := "...[truncated]".toList

def markerBytes : Bytes := encodeUtf8 marker

def byteOrderMark : Char := Char.ofNat 0xFEFF

/-- What clamping is for: text that fits is kept, other text is cut behind the scalars that
fit before the marker. -/
def clamped (limit : ℕ) (s : Text) : Text :=
  if byteLength s ≤ limit then s else fitting (limit - 14) s ++ marker

theorem byteLength_marker : byteLength marker = 14 := by decide +kernel

theorem length_markerBytes : markerBytes.length = 14 := byteLength_marker

variable {limit : ℕ} {s : Text}

theorem length_le (h : byteLength s ≤ limit) :
    (encodeUtf8 s).length ≤ limit := h

theorem not_length_le (h : limit < byteLength s) :
    ¬ (encodeUtf8 s).length ≤ limit := Nat.not_le.mpr h

theorem clamped_of_le (h : byteLength s ≤ limit) : clamped limit s = s :=
  if_pos h

theorem clamped_of_lt (h : limit < byteLength s) :
    clamped limit s = fitting (limit - 14) s ++ marker := if_neg (Nat.not_le.mpr h)

/-- The cut is behind the longest prefix that leaves room for the marker. -/
theorem clamped_longest (h : limit < byteLength s) :
    ∃ p, clamped limit s = p ++ marker ∧ p <+: s ∧ byteLength p ≤ limit - 14 ∧
      ∀ q, q <+: s → byteLength q ≤ limit - 14 → q <+: p :=
  ⟨fitting (limit - 14) s, clamped_of_lt h, fitting_isPrefix _ s, byteLength_fitting_le _ s,
    fun _ hq hfits => isPrefix_fitting hq hfits⟩

theorem byteLength_clamped_le (hlimit : 14 ≤ limit) (s : Text) :
    byteLength (clamped limit s) ≤ limit := by
  rcases Nat.lt_or_ge limit (byteLength s) with h | h
  · have hfits := byteLength_fitting_le (limit - 14) s
    rw [clamped_of_lt h, byteLength_append, byteLength_marker]
    omega
  · rwa [clamped_of_le h]

theorem clamped_clamped (hlimit : 14 ≤ limit) (s : Text) :
    clamped limit (clamped limit s) = clamped limit s :=
  clamped_of_le (byteLength_clamped_le hlimit s)

/-- A leading part that fits is kept. -/
theorem isPrefix_clamped {p : Text} (hp : p <+: s) (hfits : byteLength p ≤ limit - 14) :
    p <+: clamped limit s := by
  rcases Nat.lt_or_ge limit (byteLength s) with h | h
  · rw [clamped_of_lt h]
    exact (isPrefix_fitting hp hfits).trans (List.prefix_append _ marker)
  · rwa [clamped_of_le h]

/-! ### TypeScript -/

namespace TypeScript

/-- `TextEncoder.encodeInto`: the code units read and the bytes written. It stops at the first
scalar that does not fit. -/
def encodeInto (value : JsString) (capacity : ℕ) : ℕ × Bytes :=
  ((units (fitting capacity (scalars value))).length, encodeUtf8 (fitting capacity (scalars value)))

/-- Bytes written into a buffer at an offset. -/
def setBytes (buffer data : Bytes) (offset : ℕ) : Bytes :=
  buffer.take offset ++ data ++ buffer.drop (offset + data.length)

/-- The decoder removes one byte order mark at the start of its input. -/
def withoutByteOrderMark : Text → Text
  | [] => []
  | c :: cs => if c = byteOrderMark then cs else c :: cs

/-- `new TextDecoder("utf-8", { fatal: true }).decode`. -/
def decodeFatal (bytes : Bytes) : Except String JsString :=
  if encodeUtf8 (decodeUtf8 bytes) = bytes then .ok (units (withoutByteOrderMark (decodeUtf8 bytes)))
  else .error "TypeError"

def clampUtf8 (value : JsString) (maxBytes : ℕ) : Except String JsString :=
  let encoded := encodeInto value maxBytes
  let bytes := setBytes (List.replicate maxBytes 0) encoded.2 0
  if encoded.1 = value.length then .ok value
  else
    let content := encodeInto value (maxBytes - markerBytes.length)
    let written := content.2.length
    -- `bytes.set` does not write past the end.
    if maxBytes < written + markerBytes.length then .error "RangeError"
    else
      let bytes := setBytes (setBytes bytes content.2 0) markerBytes written
      decodeFatal (bytes.take (written + markerBytes.length))

theorem length_unitsOf_pos (c : Char) : 0 < (unitsOf c).length := by
  unfold unitsOf
  split
  · exact Nat.one_pos
  · exact Nat.two_pos

theorem length_units_append_lt (cs : Text) (c : Char) (rest : Text) :
    (units cs).length < (units (cs ++ c :: rest)).length := by
  have hpos := length_unitsOf_pos c
  simp only [units, List.flatMap_append, List.flatMap_cons, List.length_append]
  omega

theorem length_unitsOf_loneScalar (u : UInt16) : (unitsOf (loneScalar u)).length = 1 := by
  have hsmall : (loneScalar u).toNat < 0x10000 := by
    rw [loneScalar]
    split
    · decide
    · rename_i h
      rw [Bool.or_eq_true, not_or] at h
      have hu := u.toNat_lt
      have hvalid : u.toNat < 0xD800 ∨ (0xDFFF < u.toNat ∧ u.toNat < 0x110000) := by
        simp only [isHighSurrogate, isLowSurrogate, Bool.and_eq_true, decide_eq_true_eq] at h
        omega
      rw [toNat_ofNat_valid hvalid]
      omega
  rw [unitsOf, if_pos hsmall]
  rfl

theorem length_unitsOf_pairScalar {u v : UInt16} (hu : isHighSurrogate u = true)
    (hv : isLowSurrogate v = true) : (unitsOf (pairScalar u v)).length = 2 := by
  simp only [isHighSurrogate, isLowSurrogate, Bool.and_eq_true, decide_eq_true_eq] at hu hv
  have hlarge : ¬ (pairScalar u v).toNat < 0x10000 := by
    rw [pairScalar, toNat_ofNat_valid (by omega)]
    omega
  rw [unitsOf, if_neg hlarge]
  rfl

/-- Replacing unpaired surrogates keeps the number of code units. -/
theorem length_units_scalars (value : JsString) : (units (scalars value)).length = value.length := by
  induction value using scalars.induct with
  | case1 => rfl
  | case2 u =>
    rw [scalars, units, List.flatMap_singleton, length_unitsOf_loneScalar]
    rfl
  | case3 u v vs h ih =>
    rw [Bool.and_eq_true] at h
    rw [scalars, if_pos (by rw [h.1, h.2]; rfl), units, List.flatMap_cons, List.length_append,
      length_unitsOf_pairScalar h.1 h.2]
    rw [units] at ih
    rw [ih]
    simp only [List.length_cons]
    omega
  | case4 u v vs h ih =>
    rw [scalars, if_neg h, units, List.flatMap_cons, List.length_append, length_unitsOf_loneScalar]
    rw [units] at ih
    rw [ih]
    simp only [List.length_cons]
    omega

theorem encodeInto_whole_iff (value : JsString) (capacity : ℕ) :
    (encodeInto value capacity).1 = value.length ↔ byteLength (scalars value) ≤ capacity := by
  rw [encodeInto, ← length_units_scalars value]
  constructor
  · intro h
    by_contra hlt
    obtain ⟨c, rest, hcs, -⟩ := exists_cut (Nat.not_le.mp hlt)
    have hshort := length_units_append_lt (fitting capacity (scalars value)) c rest
    rw [← hcs] at hshort
    dsimp only at h
    omega
  · intro h
    dsimp only
    rw [fitting_eq_self h]

theorem take_setBytes (buffer content : Bytes) :
    (setBytes (setBytes buffer content 0) markerBytes content.length).take
      (content.length + markerBytes.length) = content ++ markerBytes := by
  have hfront : (setBytes buffer content 0).take content.length = content := by
    rw [setBytes, List.take_zero, List.nil_append]
    exact List.take_left
  rw [setBytes, hfront, ← List.length_append]
  exact List.take_left

/-- Clamping cuts at the scalars that fit, and loses a byte order mark in front. -/
theorem clampUtf8_eq {maxBytes : ℕ} (hmax : 14 ≤ maxBytes) (value : JsString) :
    clampUtf8 value maxBytes = .ok (if byteLength (scalars value) ≤ maxBytes then value
      else units (withoutByteOrderMark (fitting (maxBytes - 14) (scalars value) ++ marker))) := by
  unfold clampUtf8
  dsimp only
  by_cases h : byteLength (scalars value) ≤ maxBytes
  · rw [if_pos ((encodeInto_whole_iff value maxBytes).mpr h), if_pos h]
  · have hfits := byteLength_fitting_le (maxBytes - 14) (scalars value)
    have hroom : ¬ maxBytes < (encodeInto value (maxBytes - markerBytes.length)).2.length +
        markerBytes.length := by
      rw [length_markerBytes]
      change ¬ maxBytes < byteLength (fitting (maxBytes - 14) (scalars value)) + 14
      omega
    rw [if_neg (mt (encodeInto_whole_iff value maxBytes).mp h), if_neg hroom, take_setBytes,
      if_neg h, length_markerBytes]
    have hbytes : (encodeInto value (maxBytes - 14)).2 ++ markerBytes =
        encodeUtf8 (fitting (maxBytes - 14) (scalars value) ++ marker) :=
      (encodeUtf8_append _ marker).symm
    rw [hbytes, decodeFatal, decodeUtf8_encodeUtf8, if_pos rfl]

end TypeScript

/-! ### Rust -/

namespace Rust

/-- `str::is_char_boundary`. -/
def isCharBoundary (value : Bytes) (index : ℕ) : Bool :=
  if index = 0 then true
  else match value[index]? with
    | none => index = value.length
    | some b => !isContinuation b

/-- `clamp_utf8` on the bytes of a `str`. -/
def clampUtf8 (value : Bytes) (maxBytes : ℕ) : Bytes :=
  if value.length ≤ maxBytes then value
  else value.take (boundary (isCharBoundary value) (maxBytes - markerBytes.length)) ++ markerBytes

theorem clampUtf8_eq {maxBytes : ℕ} (hmax : 14 ≤ maxBytes) (s : Text) :
    clampUtf8 (encodeUtf8 s) maxBytes = encodeUtf8 (clamped maxBytes s) := by
  rcases Nat.lt_or_ge maxBytes (byteLength s) with h | h
  · have hcut : maxBytes - 14 < byteLength s := by omega
    have hmarks : boundary (isCharBoundary (encodeUtf8 s)) (maxBytes - 14) =
        boundary (startsAt (encodeUtf8 s)) (maxBytes - 14) := by
      apply boundary_congr
      intro n hn hle
      have hin : n < (encodeUtf8 s).length := Nat.lt_of_le_of_lt hle hcut
      rw [isCharBoundary, if_neg (Nat.ne_of_gt hn), startsAt, List.getElem?_eq_getElem hin]
      rfl
    rw [clampUtf8, if_neg (not_length_le h), length_markerBytes, hmarks, boundary_startsAt hcut,
      take_byteLength_fitting, clamped_of_lt h, encodeUtf8_append]
    rfl
  · rw [clampUtf8, if_pos (length_le h), clamped_of_le h]

/-! Streamed previews. -/

def shadowLogValueMaxBytes : ℕ := 8192

/-- The logged prefix of a serialization that is still being written. -/
structure JsonPrefix where
  bytes : Bytes
  truncated : Bool

namespace JsonPrefix

def new : JsonPrefix := ⟨[], false⟩

/-- One `write` with the number of bytes it reports; `none` is the panic of a subtraction that
overflows. -/
def write (p : JsonPrefix) (chunk : Bytes) : Option (ℕ × JsonPrefix) :=
  if p.bytes.length ≤ shadowLogValueMaxBytes then
    let retained := min chunk.length (shadowLogValueMaxBytes - p.bytes.length)
    some (chunk.length, ⟨p.bytes ++ chunk.take retained, p.truncated || retained < chunk.length⟩)
  else none

/-- All chunks of a serialization in order, with what each write reports. -/
def writeAll (p : JsonPrefix) : List Bytes → Option (List ℕ × JsonPrefix)
  | [] => some ([], p)
  | chunk :: chunks => do
    let (reported, p') ← p.write chunk
    let (rest, p'') ← p'.writeAll chunks
    return (reported :: rest, p'')

/-- `String::from_utf8`. -/
def fromUtf8 (bytes : Bytes) : Option Bytes :=
  if validUpTo bytes = bytes.length then some bytes else none

/-- The bytes before a partial character at the end. -/
def validStart (bytes : Bytes) : Bytes :=
  if validUpTo bytes = bytes.length then bytes else bytes.take (validUpTo bytes)

/-- The preview; `none` is the panic of `expect`. -/
def finish (p : JsonPrefix) : Option Bytes := do
  let bytes := if p.truncated then p.bytes.take (shadowLogValueMaxBytes - markerBytes.length)
    else p.bytes
  let text ← fromUtf8 (validStart bytes)
  return if p.truncated then text ++ markerBytes else text

theorem fromUtf8_encodeUtf8 (s : Text) : fromUtf8 (encodeUtf8 s) = some (encodeUtf8 s) :=
  if_pos (validUpTo_encodeUtf8 s)

theorem validStart_encodeUtf8 (s : Text) : validStart (encodeUtf8 s) = encodeUtf8 s :=
  if_pos (validUpTo_encodeUtf8 s)

theorem validStart_take (h : limit < byteLength s) :
    validStart ((encodeUtf8 s).take limit) = encodeUtf8 (fitting limit s) := by
  have hkept : ((encodeUtf8 s).take limit).take (byteLength (fitting limit s)) =
      encodeUtf8 (fitting limit s) := by
    rw [List.take_take, Nat.min_eq_left (byteLength_fitting_le limit s), take_byteLength_fitting]
  rw [validStart, validUpTo_take h]
  split
  · rename_i hwhole
    rw [← hkept, hwhole, List.take_length]
  · exact hkept

/-- A prefix after the bytes `seen`. -/
def Keeps (seen : Bytes) (p : JsonPrefix) : Prop :=
  p.bytes = seen.take shadowLogValueMaxBytes ∧
    p.truncated = decide (shadowLogValueMaxBytes < seen.length)

variable {seen : Bytes} {p : JsonPrefix}

theorem Keeps.length_le (h : Keeps seen p) : p.bytes.length ≤ shadowLogValueMaxBytes := by
  rw [h.1, List.length_take]
  exact Nat.min_le_left _ _

theorem write_keeps (h : Keeps seen p) (chunk : Bytes) :
    ∃ p', p.write chunk = some (chunk.length, p') ∧ Keeps (seen ++ chunk) p' := by
  have hle := h.length_le
  obtain ⟨hbytes, htruncated⟩ := h
  rw [write, if_pos hle]
  apply Exists.intro _
  constructor
  · rfl
  constructor
  · dsimp only
    rw [hbytes, List.take_append, List.length_take]
    congr 1
    rw [List.take_eq_take_iff]
    omega
  · dsimp only
    rw [htruncated, hbytes, List.length_take, List.length_append, Bool.eq_iff_iff, Bool.or_eq_true,
      decide_eq_true_eq, decide_eq_true_eq, decide_eq_true_eq]
    omega

theorem writeAll_keeps (h : Keeps seen p) (chunks : List Bytes) :
    ∃ p', p.writeAll chunks = some (chunks.map List.length, p') ∧ Keeps (seen ++ chunks.flatten) p' := by
  induction chunks generalizing seen p with
  | nil =>
    apply Exists.intro p
    rw [List.flatten_nil, List.append_nil]
    exact ⟨rfl, h⟩
  | cons chunk chunks ih =>
    obtain ⟨p₁, hwrite, hkeeps⟩ := write_keeps h chunk
    obtain ⟨p₂, hrest, hkeeps'⟩ := ih hkeeps
    apply Exists.intro p₂
    constructor
    · simp only [writeAll, hwrite, hrest, Option.bind_eq_bind, Option.bind_some]
      rfl
    · rw [List.flatten_cons, ← List.append_assoc]
      exact hkeeps'

theorem keeps_new : Keeps [] new := ⟨rfl, rfl⟩

/-- The preview of a whole text is the clamped text. -/
theorem finish_eq (h : Keeps (encodeUtf8 s) p) :
    p.finish = some (clampUtf8 (encodeUtf8 s) shadowLogValueMaxBytes) := by
  obtain ⟨hbytes, htruncated⟩ := h
  rw [clampUtf8_eq (by decide)]
  rcases Nat.lt_or_ge shadowLogValueMaxBytes (byteLength s) with hlong | hshort
  · have hcut : shadowLogValueMaxBytes - 14 < byteLength s := by
      rw [shadowLogValueMaxBytes] at hlong ⊢
      omega
    have hflag : p.truncated = true := by
      rw [htruncated]
      exact decide_eq_true hlong
    have hcontent : p.bytes.take (shadowLogValueMaxBytes - markerBytes.length) =
        (encodeUtf8 s).take (shadowLogValueMaxBytes - 14) := by
      rw [hbytes, List.take_take, length_markerBytes, Nat.min_eq_left (Nat.sub_le _ _)]
    simp only [finish, hflag, if_true, hcontent, validStart_take hcut, fromUtf8_encodeUtf8]
    rw [clamped_of_lt hlong, encodeUtf8_append]
    rfl
  · have hflag : p.truncated = false := by
      rw [htruncated]
      exact decide_eq_false (Nat.not_lt.mpr hshort)
    have hwhole : p.bytes = encodeUtf8 s := by
      rw [hbytes]
      exact List.take_of_length_le hshort
    simp only [finish, hflag, hwhole, Bool.false_eq_true, if_false, validStart_encodeUtf8,
      fromUtf8_encodeUtf8]
    rw [clamped_of_le hshort]
    rfl

/-- However a text is split into writes, its streamed preview is the clamped text. The buffer
stays within the cap, every write takes its chunk whole and nothing panics. -/
theorem streamed_preview (s : Text) (chunks : List (List UInt8)) (h : chunks.flatten = encodeUtf8 s) :
    (∀ written, written <+: chunks → ∃ p, new.writeAll written = some (written.map List.length, p) ∧
      p.bytes.length ≤ shadowLogValueMaxBytes) ∧
    ∃ p, new.writeAll chunks = some (chunks.map List.length, p) ∧
      p.finish = some (clampUtf8 (encodeUtf8 s) shadowLogValueMaxBytes) := by
  constructor
  · intro written _
    obtain ⟨p, hwrite, hkeeps⟩ := writeAll_keeps keeps_new written
    exact ⟨p, hwrite, hkeeps.length_le⟩
  · obtain ⟨p, hwrite, hkeeps⟩ := writeAll_keeps keeps_new chunks
    rw [List.nil_append, h] at hkeeps
    exact ⟨p, hwrite, finish_eq hkeeps⟩

/-- Two chunks that split a character. -/
theorem streamed_preview_split : ([[0xC3], [0xA9]] : List (List UInt8)).flatten = encodeUtf8 ['é'] ∧
    ∃ p, new.writeAll [[0xC3], [0xA9]] = some ([1, 1], p) ∧
      p.finish = some (clampUtf8 (encodeUtf8 ['é']) shadowLogValueMaxBytes) :=
  ⟨by decide, (streamed_preview ['é'] [[0xC3], [0xA9]] (by decide)).2⟩

end JsonPrefix

end Rust

/-! ### Go -/

namespace Go

/-- `utf8.RuneStart` of the byte at an index. -/
def runeStart (value : Bytes) (index : ℕ) : Bool :=
  match value[index]? with
  | none => false
  | some b => !isContinuation b

def clampLogUtf8 (value : Bytes) (maximum : ℕ) : Bytes :=
  let value := replacementUtf8 value
  if value.length ≤ maximum then value
  else value.take (boundary (runeStart value) (maximum - markerBytes.length)) ++ markerBytes

/-- Clamping works on the text that the bytes decode to. -/
theorem clampLogUtf8_eq {maximum : ℕ} (hmax : 14 ≤ maximum) (value : Bytes) :
    clampLogUtf8 value maximum = encodeUtf8 (clamped maximum (decodeUtf8 value)) := by
  unfold clampLogUtf8
  dsimp only
  rw [replacementUtf8_eq]
  generalize decodeUtf8 value = s
  rcases Nat.lt_or_ge maximum (byteLength s) with h | h
  · have hcut : maximum - 14 < byteLength s := by omega
    have hmarks : boundary (runeStart (encodeUtf8 s)) (maximum - 14) =
        boundary (startsAt (encodeUtf8 s)) (maximum - 14) := by
      apply boundary_congr
      intro n _ hle
      have hin : n < (encodeUtf8 s).length := Nat.lt_of_le_of_lt hle hcut
      rw [runeStart, startsAt, List.getElem?_eq_getElem hin]
      rfl
    rw [if_neg (not_length_le h), length_markerBytes, hmarks, boundary_startsAt hcut,
      take_byteLength_fitting, clamped_of_lt h, encodeUtf8_append]
    rfl
  · rw [if_pos (length_le h), clamped_of_le h]

end Go

/-! ### Python -/

namespace Python

open KeyAgreement.Python FramePorts.Python

def clampUtf8 (value : PyString) (limit : ℕ) : PyString :=
  let encoded := utf8Bytes value
  if encoded.length ≤ limit then value
  else codePoints (decodeIgnore (encoded.take (limit - markerBytes.length))) ++ codePoints marker

theorem clampUtf8_eq (hlimit : 14 ≤ limit) (value : PyString) :
    clampUtf8 value limit = if byteLength (scalars (utf16Units value)) ≤ limit then value
      else codePoints (clamped limit (scalars (utf16Units value))) := by
  unfold clampUtf8 utf8Bytes
  dsimp only
  generalize scalars (utf16Units value) = s
  rcases Nat.lt_or_ge limit (byteLength s) with h | h
  · have hcut : limit - 14 < byteLength s := by omega
    rw [if_neg (not_length_le h), if_neg (Nat.not_le.mpr h), length_markerBytes,
      decodeIgnore_take hcut, clamped_of_lt h, codePoints, codePoints, codePoints, List.map_append]
  · rw [if_pos (length_le h), if_pos h]

theorem clampUtf8_codePoints (hlimit : 14 ≤ limit) (s : Text) :
    clampUtf8 (codePoints s) limit = codePoints (clamped limit s) := by
  rw [clampUtf8_eq hlimit, utf16Units_codePoints, scalars_units]
  rcases Nat.lt_or_ge limit (byteLength s) with h | h
  · rw [if_neg (Nat.not_le.mpr h)]
  · rw [if_pos h, clamped_of_le h]

end Python

/-! ### The law -/

theorem withoutByteOrderMark_cut (limit : ℕ) :
    TypeScript.withoutByteOrderMark (fitting limit s ++ marker) = fitting limit s ++ marker ↔
      ¬ (s.head? = some byteOrderMark ∧ 3 ≤ limit) := by
  cases s with
  | nil =>
    have hkeep : TypeScript.withoutByteOrderMark marker = marker := by decide +kernel
    exact iff_of_true hkeep (by simp)
  | cons c cs =>
    have hmark : (String.utf8EncodeChar byteOrderMark).length = 3 := by decide +kernel
    rcases Nat.lt_or_ge limit (String.utf8EncodeChar c).length with h | h
    · have hkeep : TypeScript.withoutByteOrderMark marker = marker := by decide +kernel
      rw [fitting_cons_of_lt h, List.nil_append]
      apply iff_of_true hkeep
      intro hlost
      obtain rfl := Option.some.inj hlost.1
      omega
    · rw [fitting_cons_of_le h, List.cons_append, TypeScript.withoutByteOrderMark, List.head?_cons,
        Option.some.injEq]
      by_cases hc : c = byteOrderMark
      · rw [if_pos hc]
        rw [hc, hmark] at h
        apply iff_of_false
        · intro hsame
          have hlength := congrArg List.length hsame
          rw [List.length_cons] at hlength
          omega
        · exact not_not.mpr ⟨hc, h⟩
      · rw [if_neg hc]
        exact iff_of_true rfl (fun hlost => hc hlost.1)

theorem units_inj {t : Text} (h : units s = units t) : s = t := by
  rw [← scalars_units s, h, scalars_units]

/-- What the ports owe for one text and one limit. -/
structure ClampingLaw (limit : ℕ) (s : Text) : Prop where
  typescript : TypeScript.clampUtf8 (units s) limit = .ok (units (clamped limit s))
  rust : Rust.clampUtf8 (encodeUtf8 s) limit = encodeUtf8 (clamped limit s)
  python : Python.clampUtf8 (KeyAgreement.Python.codePoints s) limit =
    KeyAgreement.Python.codePoints (clamped limit s)
  go : Go.clampLogUtf8 (encodeUtf8 s) limit = encodeUtf8 (clamped limit s)
  kept : byteLength s ≤ limit → clamped limit s = s
  longest : limit < byteLength s → ∃ p, clamped limit s = p ++ marker ∧ p <+: s ∧
    byteLength p ≤ limit - 14 ∧ ∀ q, q <+: s → byteLength q ≤ limit - 14 → q <+: p
  bounded : byteLength (clamped limit s) ≤ limit
  idempotent : clamped limit (clamped limit s) = clamped limit s
  leading : ∀ p, p <+: s → byteLength p ≤ limit - 14 → p <+: clamped limit s

theorem typescript_clamps_iff (hlimit : 14 ≤ limit) (s : Text) :
    TypeScript.clampUtf8 (units s) limit = .ok (units (clamped limit s)) ↔
      ¬ (s.head? = some byteOrderMark ∧ 17 ≤ limit ∧ limit < byteLength s) := by
  rw [TypeScript.clampUtf8_eq hlimit, scalars_units]
  rcases Nat.lt_or_ge limit (byteLength s) with h | h
  · rw [if_neg (Nat.not_le.mpr h), clamped_of_lt h]
    have hcut := withoutByteOrderMark_cut (s := s) (limit - 14)
    constructor
    · intro hsame hlost
      exact hcut.mp (units_inj (Except.ok.inj hsame)) ⟨hlost.1, by omega⟩
    · intro hkept
      rw [hcut.mpr (fun hlost => hkept ⟨hlost.1, by omega, h⟩)]
  · rw [if_pos h, clamped_of_le h]
    exact iff_of_true rfl (fun hlost => absurd hlost.2.2 (Nat.not_lt.mpr h))

/-- The ports clamp alike unless TypeScript drops a byte order mark in front of a text that it
has to cut. -/
theorem clampingLaw_iff {limit : ℕ} (hlimit : 14 ≤ limit) (s : Text) :
    ClampingLaw limit s ↔ ¬ (s.head? = some byteOrderMark ∧ 17 ≤ limit ∧ limit < byteLength s) := by
  constructor
  · intro h
    exact (typescript_clamps_iff hlimit s).mp h.typescript
  · intro h
    have hgo := Go.clampLogUtf8_eq hlimit (encodeUtf8 s)
    rw [decodeUtf8_encodeUtf8] at hgo
    exact {
      typescript := (typescript_clamps_iff hlimit s).mpr h
      rust := Rust.clampUtf8_eq hlimit s
      python := Python.clampUtf8_codePoints hlimit s
      go := hgo
      kept := clamped_of_le
      longest := clamped_longest
      bounded := byteLength_clamped_le hlimit s
      idempotent := clamped_clamped hlimit s
      leading := fun p hp hfits => isPrefix_clamped hp hfits }

/-- A text that begins with a byte order mark and is one byte too long. -/
def markedText : Text := byteOrderMark :: List.replicate 15 'a'

theorem clampingLaw_iff_plain : ClampingLaw 17 (List.replicate 20 'a') :=
  (clampingLaw_iff (by decide) _).mpr (by decide +kernel)

/-- The marker alone is left of a text whose byte order mark fits. -/
theorem typescript_drops_byteOrderMark :
    TypeScript.clampUtf8 (units markedText) 17 = .ok (units marker) ∧
      Rust.clampUtf8 (encodeUtf8 markedText) 17 = encodeUtf8 (byteOrderMark :: marker) ∧
      [byteOrderMark] <+: markedText ∧ byteLength [byteOrderMark] ≤ 17 - 14 ∧
      ¬ [byteOrderMark] <+: marker ∧ ¬ ClampingLaw 17 markedText := by
  refine ⟨by decide +kernel, by decide +kernel, by decide +kernel, by decide +kernel,
    by decide +kernel, ?_⟩
  intro h
  have hbad := h.typescript
  revert hbad
  decide +kernel

end DialCache.LogClamps
