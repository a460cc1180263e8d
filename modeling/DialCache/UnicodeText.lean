import Mathlib.Data.List.Basic

/-!
# UTF-16 strings and UTF-8 bytes

A UTF-16 string is a list of code units and need not be well formed. `scalars` reads it
with U+FFFD in place of every unpaired surrogate, and `units` writes scalars back.
UTF-8 bytes are read by the standard decoder with replacement and without removal
of a byte order mark, run one byte at a time: `Pending` is an incomplete sequence
together with the range that its next continuation byte must meet.
-/

namespace DialCache

abbrev Bytes := List UInt8

end DialCache

namespace DialCache.UnicodeText

def replacement : Char := '�'

def isHighSurrogate (u : UInt16) : Bool := 0xD800 ≤ u.toNat && u.toNat ≤ 0xDBFF

def isLowSurrogate (u : UInt16) : Bool := 0xDC00 ≤ u.toNat && u.toNat ≤ 0xDFFF

/-- The supplementary scalar of a surrogate pair. -/
def pairScalar (high low : UInt16) : Char :=
  Char.ofNat (0x10000 + (high.toNat - 0xD800) * 0x400 + (low.toNat - 0xDC00))

/-- A code unit that is not part of a surrogate pair. -/
def loneScalar (u : UInt16) : Char :=
  if isHighSurrogate u || isLowSurrogate u then replacement else Char.ofNat u.toNat

/-- The scalars of a UTF-16 string, with U+FFFD for each unpaired surrogate. -/
def scalars : List UInt16 → List Char
  | [] => []
  | [u] => [loneScalar u]
  | u :: v :: vs =>
    if isHighSurrogate u && isLowSurrogate v then pairScalar u v :: scalars vs
    else loneScalar u :: scalars (v :: vs)

/-- The UTF-16 code units of one scalar. -/
def unitsOf (c : Char) : List UInt16 :=
  if c.toNat < 0x10000 then [UInt16.ofNat c.toNat]
  else
    [UInt16.ofNat (0xD800 + (c.toNat - 0x10000) / 0x400),
      UInt16.ofNat (0xDC00 + (c.toNat - 0x10000) % 0x400)]

def units (cs : List Char) : List UInt16 := cs.flatMap unitsOf

/-- Replace every unpaired surrogate by U+FFFD. -/
def toWellFormed (s : List UInt16) : List UInt16 := units (scalars s)

def isWellFormed (s : List UInt16) : Bool := toWellFormed s == s

variable (c : Char)

theorem toNat_valid : c.toNat < 0xD800 ∨ (0xDFFF < c.toNat ∧ c.toNat < 0x110000) :=
  c.valid

@[simp] theorem ofNat_toNat : Char.ofNat c.toNat = c := Char.ofNat_toNat c

variable {n : ℕ}

theorem toNat_ofNat_of_lt (h : n < 0xD800) : (Char.ofNat n).toNat = n := by
  have hv : n.isValidChar := Or.inl h
  rw [Char.ofNat, dif_pos hv]
  rfl

theorem scalars_cons_of_not_high {u : UInt16} (h : isHighSurrogate u = false)
    (us : List UInt16) : scalars (u :: us) = loneScalar u :: scalars us := by
  cases us with
  | nil => simp [scalars]
  | cons v vs => simp [scalars, h]

theorem scalars_unitsOf (us : List UInt16) : scalars (unitsOf c ++ us) = c :: scalars us := by
  have hv := toNat_valid c
  by_cases hc : c.toNat < 0x10000
  · have hu : (UInt16.ofNat c.toNat).toNat = c.toNat := by
      simp only [UInt16.toNat_ofNat']
      omega
    have hh : isHighSurrogate (UInt16.ofNat c.toNat) = false := by
      simp only [isHighSurrogate, hu, Bool.and_eq_false_iff, decide_eq_false_iff_not]
      omega
    have hl : isLowSurrogate (UInt16.ofNat c.toNat) = false := by
      simp only [isLowSurrogate, hu, Bool.and_eq_false_iff, decide_eq_false_iff_not]
      omega
    have hs : loneScalar (UInt16.ofNat c.toNat) = c := by simp [loneScalar, hh, hl, hu]
    simp only [unitsOf, hc, if_true, List.cons_append, List.nil_append]
    rw [scalars_cons_of_not_high hh, hs]
  · have hu : (UInt16.ofNat (0xD800 + (c.toNat - 0x10000) / 0x400)).toNat =
        0xD800 + (c.toNat - 0x10000) / 0x400 := by
      simp only [UInt16.toNat_ofNat']
      omega
    have hw : (UInt16.ofNat (0xDC00 + (c.toNat - 0x10000) % 0x400)).toNat =
        0xDC00 + (c.toNat - 0x10000) % 0x400 := by
      simp only [UInt16.toNat_ofNat']
      omega
    have hh : isHighSurrogate (UInt16.ofNat (0xD800 + (c.toNat - 0x10000) / 0x400)) = true := by
      simp only [isHighSurrogate, hu, Bool.and_eq_true, decide_eq_true_eq]
      omega
    have hl : isLowSurrogate (UInt16.ofNat (0xDC00 + (c.toNat - 0x10000) % 0x400)) = true := by
      simp only [isLowSurrogate, hw, Bool.and_eq_true, decide_eq_true_eq]
      omega
    have hp : 0x10000 + (0xD800 + (c.toNat - 0x10000) / 0x400 - 0xD800) * 0x400 +
        (0xDC00 + (c.toNat - 0x10000) % 0x400 - 0xDC00) = c.toNat := by omega
    simp only [unitsOf, hc, if_false, List.cons_append, List.nil_append, scalars, hh, hl,
      Bool.and_self, if_true]
    simp only [pairScalar, hu, hw, hp, ofNat_toNat]

variable (cs : List Char)

/-- Writing scalars as UTF-16 loses nothing. -/
@[simp] theorem scalars_units : scalars (units cs) = cs := by
  induction cs with
  | nil => simp [units, scalars]
  | cons c cs ih =>
    have h := scalars_unitsOf c (units cs)
    rw [ih] at h
    simpa [units] using h

@[simp] theorem toWellFormed_units : toWellFormed (units cs) = units cs := by
  simp [toWellFormed]

/-- The UTF-8 bytes of a scalar sequence. -/
def encodeUtf8 (cs : List Char) : Bytes := cs.flatMap String.utf8EncodeChar

/-- An incomplete sequence: continuation bytes still owed, the range of the next one,
and the bits collected so far. -/
structure Pending where
  owed : ℕ
  lower : ℕ
  upper : ℕ
  codePoint : ℕ
  deriving DecidableEq, Repr

/-- One byte between sequences. -/
def start (b : UInt8) : List Char × Option Pending :=
  let n := b.toNat
  if n ≤ 0x7F then ([Char.ofNat n], none)
  else if 0xC2 ≤ n ∧ n ≤ 0xDF then ([], some ⟨1, 0x80, 0xBF, n % 0x20⟩)
  else if 0xE0 ≤ n ∧ n ≤ 0xEF then
    ([], some ⟨2, if n = 0xE0 then 0xA0 else 0x80, if n = 0xED then 0x9F else 0xBF, n % 0x10⟩)
  else if 0xF0 ≤ n ∧ n ≤ 0xF4 then
    ([], some ⟨3, if n = 0xF0 then 0x90 else 0x80, if n = 0xF4 then 0x8F else 0xBF, n % 0x08⟩)
  else ([replacement], none)

/-- One byte in any decoder state. A byte outside the pending range ends the sequence
with U+FFFD and is read again as a first byte. -/
def feed : Option Pending → UInt8 → List Char × Option Pending
  | none, b => start b
  | some p, b =>
    if p.lower ≤ b.toNat ∧ b.toNat ≤ p.upper then
      let codePoint := p.codePoint * 0x40 + b.toNat % 0x40
      if p.owed ≤ 1 then ([Char.ofNat codePoint], none)
      else ([], some ⟨p.owed - 1, 0x80, 0xBF, codePoint⟩)
    else (replacement :: (start b).1, (start b).2)

/-- Decode from a given state; an incomplete sequence at the end is one U+FFFD. -/
def decodeFrom : Option Pending → Bytes → List Char
  | none, [] => []
  | some _, [] => [replacement]
  | state, b :: bs => (feed state b).1 ++ decodeFrom (feed state b).2 bs

def decodeUtf8 (bytes : Bytes) : List Char := decodeFrom none bytes

@[simp] theorem decodeFrom_cons (state : Option Pending) (b : UInt8) (bs : Bytes) :
    decodeFrom state (b :: bs) = (feed state b).1 ++ decodeFrom (feed state b).2 bs := by
  cases state <;> rfl

theorem toNat_byte (h : n < 256) : (UInt8.ofNat n).toNat = n := by
  simp only [UInt8.toNat_ofNat']
  omega

theorem feed_start_ascii (h : n ≤ 0x7F) : feed none (UInt8.ofNat n) = ([Char.ofNat n], none) := by
  simp [feed, start, toNat_byte (show n < 256 by omega), h]

theorem feed_start_two (h : 0xC2 ≤ n ∧ n ≤ 0xDF) :
    feed none (UInt8.ofNat n) = ([], some ⟨1, 0x80, 0xBF, n % 0x20⟩) := by
  have hn : ¬ n ≤ 0x7F := by omega
  simp [feed, start, toNat_byte (show n < 256 by omega), h, hn]

theorem feed_start_three (h : 0xE0 ≤ n ∧ n ≤ 0xEF) :
    feed none (UInt8.ofNat n) = ([], some ⟨2, if n = 0xE0 then 0xA0 else 0x80,
      if n = 0xED then 0x9F else 0xBF, n % 0x10⟩) := by
  have hn : ¬ n ≤ 0x7F := by omega
  have h2 : ¬ n ≤ 0xDF := by omega
  simp [feed, start, toNat_byte (show n < 256 by omega), h, hn, h2]

theorem feed_start_four (h : 0xF0 ≤ n ∧ n ≤ 0xF4) :
    feed none (UInt8.ofNat n) = ([], some ⟨3, if n = 0xF0 then 0x90 else 0x80,
      if n = 0xF4 then 0x8F else 0xBF, n % 0x08⟩) := by
  have hn : ¬ n ≤ 0x7F := by omega
  have h2 : ¬ n ≤ 0xDF := by omega
  have h3 : ¬ n ≤ 0xEF := by omega
  simp [feed, start, toNat_byte (show n < 256 by omega), h, hn, h2, h3]

theorem feed_last {lower upper codePoint : ℕ} (hn : n < 256) (h : lower ≤ n ∧ n ≤ upper) :
    feed (some ⟨1, lower, upper, codePoint⟩) (UInt8.ofNat n) =
      ([Char.ofNat (codePoint * 0x40 + n % 0x40)], none) := by
  simp [feed, toNat_byte hn, h]

theorem feed_inner (owed : ℕ) {lower upper codePoint : ℕ} (hn : n < 256)
    (h : lower ≤ n ∧ n ≤ upper) :
    feed (some ⟨owed + 2, lower, upper, codePoint⟩) (UInt8.ofNat n) =
      ([], some ⟨owed + 1, 0x80, 0xBF, codePoint * 0x40 + n % 0x40⟩) := by
  simp [feed, toNat_byte hn, h]

/-- The decoder reads the encoding of one scalar and stops between sequences. -/
theorem decodeFrom_encodeChar (bs : Bytes) :
    decodeFrom none (String.utf8EncodeChar c ++ bs) = c :: decodeFrom none bs := by
  have hv : c.val.toNat < 0xD800 ∨ (0xDFFF < c.val.toNat ∧ c.val.toNat < 0x110000) :=
    toNat_valid c
  have hc : Char.ofNat c.val.toNat = c := ofNat_toNat c
  unfold String.utf8EncodeChar
  generalize c.val.toNat = v at hv hc
  dsimp only
  split
  · rename_i h1
    simp [feed_start_ascii h1, hc]
  split
  · rename_i h1 h2
    have hlead : 0xC2 ≤ v / 64 % 0x20 + 0xc0 ∧ v / 64 % 0x20 + 0xc0 ≤ 0xDF := by omega
    have hval : (v / 64 % 0x20 + 0xc0) % 0x20 * 0x40 + (v % 0x40 + 0x80) % 0x40 = v := by omega
    simp only [List.cons_append, List.nil_append, decodeFrom_cons, feed_start_two hlead]
    rw [feed_last (by omega) (by omega), hval, hc]
    rfl
  split
  · rename_i h1 h2 h3
    have hlead : 0xE0 ≤ v / 4096 % 0x10 + 0xe0 ∧ v / 4096 % 0x10 + 0xe0 ≤ 0xEF := by omega
    have hval : ((v / 4096 % 0x10 + 0xe0) % 0x10 * 0x40 + (v / 64 % 0x40 + 0x80) % 0x40) * 0x40 +
        (v % 0x40 + 0x80) % 0x40 = v := by omega
    simp only [List.cons_append, List.nil_append, decodeFrom_cons, feed_start_three hlead]
    rw [feed_inner 0 (by omega) (by constructor <;> split <;> omega)]
    dsimp only
    rw [feed_last (by omega) (by omega), hval, hc]
    rfl
  · rename_i h1 h2 h3
    have hlead : 0xF0 ≤ v / 262144 % 0x08 + 0xf0 ∧ v / 262144 % 0x08 + 0xf0 ≤ 0xF4 := by omega
    have hval : (((v / 262144 % 0x08 + 0xf0) % 0x08 * 0x40 +
        (v / 4096 % 0x40 + 0x80) % 0x40) * 0x40 + (v / 64 % 0x40 + 0x80) % 0x40) * 0x40 +
        (v % 0x40 + 0x80) % 0x40 = v := by omega
    simp only [List.cons_append, List.nil_append, decodeFrom_cons, feed_start_four hlead]
    rw [feed_inner 1 (by omega) (by constructor <;> split <;> omega)]
    dsimp only
    rw [feed_inner 0 (by omega) (by omega)]
    dsimp only
    rw [feed_last (by omega) (by omega), hval, hc]
    rfl

/-- UTF-8 round trip on scalar sequences. -/
@[simp] theorem decodeUtf8_encodeUtf8 : decodeUtf8 (encodeUtf8 cs) = cs := by
  induction cs with
  | nil => rfl
  | cons c cs ih =>
    have h := decodeFrom_encodeChar c (encodeUtf8 cs)
    rw [show decodeFrom none (encodeUtf8 cs) = cs from ih] at h
    simpa [decodeUtf8, encodeUtf8] using h

/-- Bytes below 128 decode to themselves. -/
theorem decodeUtf8_ascii (codes : List ℕ) (h : ∀ n ∈ codes, n < 128) :
    decodeUtf8 (codes.map UInt8.ofNat) = codes.map Char.ofNat := by
  induction codes with
  | nil => rfl
  | cons n codes ih =>
    have hn := h n List.mem_cons_self
    have ht := ih (fun m hm => h m (List.mem_cons_of_mem _ hm))
    simp only [decodeUtf8, List.map_cons, decodeFrom_cons] at ht ⊢
    rw [feed_start_ascii (by omega)]
    simpa using ht

theorem units_ascii (codes : List ℕ) (h : ∀ n ∈ codes, n < 128) :
    units (codes.map Char.ofNat) = codes.map UInt16.ofNat := by
  induction codes with
  | nil => rfl
  | cons n codes ih =>
    have hn := h n List.mem_cons_self
    have ht := ih (fun m hm => h m (List.mem_cons_of_mem _ hm))
    have hc : (Char.ofNat n).toNat = n := toNat_ofNat_of_lt (by omega)
    simp only [units, List.map_cons, List.flatMap_cons] at ht ⊢
    rw [ht]
    simp [unitsOf, hc, show n < 0x10000 by omega]

end DialCache.UnicodeText
