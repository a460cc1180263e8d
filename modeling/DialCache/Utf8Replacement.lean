import DialCache.UnicodeText

/-!
# Replacement of ill-formed UTF-8

A decoder may work on whole sequences instead of single bytes: it takes the first scalar if
the bytes start with its encoding, and otherwise replaces the longest start of a sequence
that some scalar could still complete. Both kinds of decoder replace the same bytes.
-/

namespace DialCache.Utf8Replacement

open UnicodeText
open String (utf8EncodeChar)

/-- `utf8.DecodeRune`: the size of the first scalar, if the bytes start with its encoding. -/
def decodeRune (raw : Bytes) : Option ℕ :=
  match (decodeUtf8 raw).head? with
  | none => none
  | some c =>
    let encoded := utf8EncodeChar c
    if raw.take encoded.length = encoded then some encoded.length else none

/-- The length of the sequence that a first byte announces. -/
def wanted (lead : UInt8) : ℕ :=
  if 0xc2 ≤ lead.toNat ∧ lead.toNat ≤ 0xdf then 2
  else if 0xe0 ≤ lead.toNat ∧ lead.toNat ≤ 0xef then 3
  else if 0xf0 ≤ lead.toNat ∧ lead.toNat ≤ 0xf4 then 4
  else 1

/-- Whether a byte can follow after `consumed` bytes of a sequence. -/
def continues (lead : UInt8) (consumed : ℕ) (b : UInt8) : Bool :=
  !(b.toNat < 0x80 || 0xbf < b.toNat) &&
    !(consumed == 1 && (lead.toNat == 0xe0 && b.toNat < 0xa0 ||
      lead.toNat == 0xed && 0x9f < b.toNat || lead.toNat == 0xf0 && b.toNat < 0x90 ||
      lead.toNat == 0xf4 && 0x8f < b.toNat))

/-- The loop over the bytes behind a first byte. -/
def consumeFrom (lead : UInt8) : ℕ → Bytes → ℕ
  | consumed, [] => consumed
  | consumed, b :: bs =>
    if consumed < wanted lead ∧ continues lead consumed b = true then
      consumeFrom lead (consumed + 1) bs
    else consumed

theorem le_consumeFrom (lead : UInt8) (consumed : ℕ) (bs : Bytes) :
    consumed ≤ consumeFrom lead consumed bs := by
  induction bs generalizing consumed with
  | nil => exact Nat.le_refl _
  | cons b bs ih =>
    unfold consumeFrom
    split
    · have hrest := ih (consumed + 1)
      omega
    · exact Nat.le_refl _

theorem length_utf8EncodeChar_pos (c : Char) : 0 < (utf8EncodeChar c).length := by
  unfold utf8EncodeChar
  dsimp only
  repeat' split
  all_goals simp

variable {raw : Bytes}

theorem pos_of_decodeRune {size : ℕ} (h : decodeRune raw = some size) : 0 < size := by
  unfold decodeRune at h
  split at h
  · cases h
  · dsimp only at h
    split at h
    · obtain rfl := Option.some.inj h
      exact length_utf8EncodeChar_pos _
    · cases h

/-- `replacementUTF8`. -/
def replacementUtf8 (raw : Bytes) : Bytes :=
  match raw with
  | [] => []
  | lead :: rest =>
    match _h : decodeRune (lead :: rest) with
    | some size => (lead :: rest).take size ++ replacementUtf8 ((lead :: rest).drop size)
    | none =>
      utf8EncodeChar replacement ++
        replacementUtf8 ((lead :: rest).drop (consumeFrom lead 1 rest))
termination_by raw.length
decreasing_by
  · have := pos_of_decodeRune _h
    simp only [List.length_drop, List.length_cons]
    omega
  · have := le_consumeFrom lead 1 rest
    simp only [List.length_drop, List.length_cons]
    omega

/-! ### Incomplete sequences -/

variable {b : UInt8}

section Pending

variable {owed lower upper codePoint : ℕ}

/-- The pending sequence ends at a byte that does not continue it. -/
theorem decodeFrom_refused (h : ¬ (lower ≤ b.toNat ∧ b.toNat ≤ upper)) (bs : Bytes) :
    decodeFrom (some ⟨owed, lower, upper, codePoint⟩) (b :: bs) =
      replacement :: decodeFrom none (b :: bs) := by
  simp [feed, h]

theorem decodeFrom_inner (howed : 1 < owed) (h : lower ≤ b.toNat ∧ b.toNat ≤ upper)
    (bs : Bytes) : decodeFrom (some ⟨owed, lower, upper, codePoint⟩) (b :: bs) =
      decodeFrom (some ⟨owed - 1, 0x80, 0xBF, codePoint * 0x40 + b.toNat % 0x40⟩) bs := by
  simp [feed, h, show ¬ owed ≤ 1 by omega]

end Pending

variable {n : ℕ}

theorem toNat_ofNat_valid (h : n < 0xD800 ∨ (0xDFFF < n ∧ n < 0x110000)) :
    (Char.ofNat n).toNat = n := by
  have hv : n.isValidChar := h
  rw [Char.ofNat, dif_pos hv]
  rfl

/-! ### Complete sequences are encodings -/

theorem encodeChar_two (h : 0x80 ≤ n) (h' : n < 0x800) :
    utf8EncodeChar (Char.ofNat n) =
      [UInt8.ofNat (n / 64 % 0x20 + 0xc0), UInt8.ofNat (n % 0x40 + 0x80)] := by
  have hval : (Char.ofNat n).val.toNat = n := toNat_ofNat_valid (by omega)
  unfold utf8EncodeChar
  dsimp only
  rw [hval, if_neg (by omega), if_pos (by omega)]

theorem encodeChar_three (h : 0x800 ≤ n) (h' : n < 0x10000) (hs : n < 0xD800 ∨ 0xDFFF < n) :
    utf8EncodeChar (Char.ofNat n) =
      [UInt8.ofNat (n / 4096 % 0x10 + 0xe0), UInt8.ofNat (n / 64 % 0x40 + 0x80),
        UInt8.ofNat (n % 0x40 + 0x80)] := by
  have hval : (Char.ofNat n).val.toNat = n := toNat_ofNat_valid (by omega)
  unfold utf8EncodeChar
  dsimp only
  rw [hval, if_neg (by omega), if_neg (by omega), if_pos (by omega)]

theorem encodeChar_four (h : 0x10000 ≤ n) (h' : n < 0x110000) :
    utf8EncodeChar (Char.ofNat n) =
      [UInt8.ofNat (n / 262144 % 0x08 + 0xf0), UInt8.ofNat (n / 4096 % 0x40 + 0x80),
        UInt8.ofNat (n / 64 % 0x40 + 0x80), UInt8.ofNat (n % 0x40 + 0x80)] := by
  have hval : (Char.ofNat n).val.toNat = n := toNat_ofNat_valid (by omega)
  unfold utf8EncodeChar
  dsimp only
  rw [hval, if_neg (by omega), if_neg (by omega), if_neg (by omega)]

theorem ofNat_eq_byte (h : n = b.toNat) : UInt8.ofNat n = b := by
  rw [h, UInt8.ofNat_toNat]

theorem decodeRune_of_encoding {c : Char} {rest : Bytes} :
    decodeRune (utf8EncodeChar c ++ rest) = some (utf8EncodeChar c).length := by
  have hdecode : decodeUtf8 (utf8EncodeChar c ++ rest) = c :: decodeUtf8 rest :=
    decodeFrom_encodeChar c rest
  simp [decodeRune, hdecode]

theorem decodeRune_ne_none (c : Char) (tail : Bytes)
    (h : raw = utf8EncodeChar c ++ tail) : decodeRune raw ≠ none := by
  rw [h, decodeRune_of_encoding]
  simp

/-! ### One step of the sequence decoder -/

theorem continues_iff {lead : UInt8} {consumed : ℕ} : continues lead consumed b = true ↔
    (0x80 ≤ b.toNat ∧ b.toNat ≤ 0xbf) ∧
      (consumed = 1 → ¬ (lead.toNat = 0xe0 ∧ b.toNat < 0xa0) ∧
        ¬ (lead.toNat = 0xed ∧ 0x9f < b.toNat) ∧ ¬ (lead.toNat = 0xf0 ∧ b.toNat < 0x90) ∧
        ¬ (lead.toNat = 0xf4 ∧ 0x8f < b.toNat)) := by
  simp only [continues, Bool.and_eq_true, Bool.not_eq_true', Bool.or_eq_false_iff,
    decide_eq_false_iff_not, Bool.and_eq_false_imp, beq_iff_eq]
  grind

section Step

variable {lead : UInt8} {rest : Bytes}

theorem step_ascii (h : lead.toNat ≤ 0x7F) : decodeRune (lead :: rest) ≠ none := by
  have hencode : utf8EncodeChar (Char.ofNat lead.toNat) = [lead] := by
    have hval : (Char.ofNat lead.toNat).val.toNat = lead.toNat := toNat_ofNat_valid (by omega)
    unfold utf8EncodeChar
    dsimp only
    rw [hval, if_pos h, ofNat_eq_byte rfl]
  apply decodeRune_ne_none (Char.ofNat lead.toNat) rest
  rw [hencode]
  rfl

/-- A first byte of two and its continuation encode a scalar. -/
theorem encodes_two (hlead : 0xC2 ≤ lead.toNat ∧ lead.toNat ≤ 0xDF)
    (hb : 0x80 ≤ b.toNat ∧ b.toNat ≤ 0xBF) : ∃ c, utf8EncodeChar c = [lead, b] := by
  have hchar := encodeChar_two (n := lead.toNat % 0x20 * 0x40 + b.toNat % 0x40)
    (by omega) (by omega)
  rw [ofNat_eq_byte (b := lead) (by omega), ofNat_eq_byte (b := b) (by omega)] at hchar
  exact ⟨_, hchar⟩

theorem encodes_three {c : UInt8} (hlead : 0xE0 ≤ lead.toNat ∧ lead.toNat ≤ 0xEF)
    (hb : continues lead 1 b = true) (hc : 0x80 ≤ c.toNat ∧ c.toNat ≤ 0xBF) :
    ∃ scalar, utf8EncodeChar scalar = [lead, b, c] := by
  have hrange := continues_iff.mp hb
  have hchar := encodeChar_three
    (n := (lead.toNat % 0x10 * 0x40 + b.toNat % 0x40) * 0x40 + c.toNat % 0x40)
    (by omega) (by omega) (by omega)
  rw [ofNat_eq_byte (b := lead) (by omega), ofNat_eq_byte (b := b) (by omega),
    ofNat_eq_byte (b := c) (by omega)] at hchar
  exact ⟨_, hchar⟩

theorem encodes_four {c d : UInt8} (hlead : 0xF0 ≤ lead.toNat ∧ lead.toNat ≤ 0xF4)
    (hb : continues lead 1 b = true) (hc : 0x80 ≤ c.toNat ∧ c.toNat ≤ 0xBF)
    (hd : 0x80 ≤ d.toNat ∧ d.toNat ≤ 0xBF) :
    ∃ scalar, utf8EncodeChar scalar = [lead, b, c, d] := by
  have hrange := continues_iff.mp hb
  have hchar := encodeChar_four
    (n := ((lead.toNat % 0x08 * 0x40 + b.toNat % 0x40) * 0x40 + c.toNat % 0x40) * 0x40 +
      d.toNat % 0x40) (by omega) (by omega)
  rw [ofNat_eq_byte (b := lead) (by omega), ofNat_eq_byte (b := b) (by omega),
    ofNat_eq_byte (b := c) (by omega), ofNat_eq_byte (b := d) (by omega)] at hchar
  exact ⟨_, hchar⟩

theorem step_two (hlead : 0xC2 ≤ lead.toNat ∧ lead.toNat ≤ 0xDF)
    (h : decodeRune (lead :: rest) = none) : decodeFrom none (lead :: rest) =
      replacement :: decodeFrom none ((lead :: rest).drop (consumeFrom lead 1 rest)) := by
  have hstart := feed_start_two hlead
  rw [UInt8.ofNat_toNat] at hstart
  have hwanted : wanted lead = 2 := by simp [wanted, hlead]
  rw [decodeFrom_cons, hstart, List.nil_append]
  cases rest with
  | nil => rfl
  | cons b bs =>
    by_cases hb : 0x80 ≤ b.toNat ∧ b.toNat ≤ 0xBF
    · obtain ⟨scalar, hscalar⟩ := encodes_two hlead hb
      apply absurd h
      apply decodeRune_ne_none scalar bs
      rw [hscalar]
      rfl
    · have hstop : ¬ (1 < wanted lead ∧ continues lead 1 b = true) := by
        rw [continues_iff]
        omega
      rw [decodeFrom_refused hb, consumeFrom, if_neg hstop]
      rfl

theorem step_three (hlead : 0xE0 ≤ lead.toNat ∧ lead.toNat ≤ 0xEF)
    (h : decodeRune (lead :: rest) = none) : decodeFrom none (lead :: rest) =
      replacement :: decodeFrom none ((lead :: rest).drop (consumeFrom lead 1 rest)) := by
  have hstart := feed_start_three hlead
  rw [UInt8.ofNat_toNat] at hstart
  have hwanted : wanted lead = 3 := by
    rw [wanted, if_neg (by omega), if_pos hlead]
  rw [decodeFrom_cons, hstart, List.nil_append]
  cases rest with
  | nil => rfl
  | cons b bs =>
    have hsecond : continues lead 1 b = true ↔
        (if lead.toNat = 0xE0 then 0xA0 else 0x80) ≤ b.toNat ∧
          b.toNat ≤ (if lead.toNat = 0xED then 0x9F else 0xBF) := by
      rw [continues_iff]
      split <;> split <;> omega
    rw [consumeFrom]
    by_cases hb : continues lead 1 b = true
    · have hgo : 1 < wanted lead ∧ continues lead 1 b = true := ⟨by omega, hb⟩
      rw [if_pos hgo, decodeFrom_inner (by omega) (hsecond.mp hb)]
      cases bs with
      | nil => rfl
      | cons c cs =>
        rw [consumeFrom]
        by_cases hc : 0x80 ≤ c.toNat ∧ c.toNat ≤ 0xBF
        · obtain ⟨scalar, hscalar⟩ := encodes_three hlead hb hc
          apply absurd h
          apply decodeRune_ne_none scalar cs
          rw [hscalar]
          rfl
        · have hstop : ¬ (1 + 1 < wanted lead ∧ continues lead (1 + 1) c = true) := by
            rw [continues_iff]
            omega
          rw [if_neg hstop]
          exact decodeFrom_refused hc cs
    · have hstop : ¬ (1 < wanted lead ∧ continues lead 1 b = true) := fun hgo => hb hgo.2
      rw [if_neg hstop, decodeFrom_refused (fun hrange => hb (hsecond.mpr hrange))]
      rfl

/-- Four bytes that continue each other encode a scalar. -/
theorem decodeRune_four {c d : UInt8} (hlead : 0xF0 ≤ lead.toNat ∧ lead.toNat ≤ 0xF4)
    (hb : continues lead 1 b = true) (hc : 0x80 ≤ c.toNat ∧ c.toNat ≤ 0xBF)
    (hd : 0x80 ≤ d.toNat ∧ d.toNat ≤ 0xBF) : decodeRune (lead :: b :: c :: d :: rest) ≠ none := by
  obtain ⟨scalar, hscalar⟩ := encodes_four hlead hb hc hd
  apply decodeRune_ne_none scalar rest
  rw [hscalar]
  rfl

theorem step_four (hlead : 0xF0 ≤ lead.toNat ∧ lead.toNat ≤ 0xF4)
    (h : decodeRune (lead :: rest) = none) : decodeFrom none (lead :: rest) =
      replacement :: decodeFrom none ((lead :: rest).drop (consumeFrom lead 1 rest)) := by
  have hstart := feed_start_four hlead
  rw [UInt8.ofNat_toNat] at hstart
  have hwanted : wanted lead = 4 := by
    rw [wanted, if_neg (by omega), if_neg (by omega), if_pos hlead]
  rw [decodeFrom_cons, hstart, List.nil_append]
  cases rest with
  | nil => rfl
  | cons b bs =>
    have hsecond : continues lead 1 b = true ↔
        (if lead.toNat = 0xF0 then 0x90 else 0x80) ≤ b.toNat ∧
          b.toNat ≤ (if lead.toNat = 0xF4 then 0x8F else 0xBF) := by
      rw [continues_iff]
      split <;> split <;> omega
    rw [consumeFrom]
    by_cases hb : continues lead 1 b = true
    · have hgo : 1 < wanted lead ∧ continues lead 1 b = true := ⟨by omega, hb⟩
      rw [if_pos hgo, decodeFrom_inner (by omega) (hsecond.mp hb)]
      cases bs with
      | nil => rfl
      | cons c cs =>
        rw [consumeFrom]
        by_cases hc : 0x80 ≤ c.toNat ∧ c.toNat ≤ 0xBF
        · have hthird : 1 + 1 < wanted lead ∧ continues lead (1 + 1) c = true := by
            rw [continues_iff]
            omega
          rw [if_pos hthird, decodeFrom_inner (by omega) hc]
          cases cs with
          | nil => rfl
          | cons d ds =>
            rw [consumeFrom]
            by_cases hd : 0x80 ≤ d.toNat ∧ d.toNat ≤ 0xBF
            · exact absurd h (decodeRune_four hlead hb hc hd)
            · have hstop : ¬ (1 + 1 + 1 < wanted lead ∧ continues lead (1 + 1 + 1) d = true) := by
                rw [continues_iff]
                omega
              rw [if_neg hstop]
              exact decodeFrom_refused hd ds
        · have hstop : ¬ (1 + 1 < wanted lead ∧ continues lead (1 + 1) c = true) := by
            rw [continues_iff]
            omega
          rw [if_neg hstop]
          exact decodeFrom_refused hc cs
    · have hstop : ¬ (1 < wanted lead ∧ continues lead 1 b = true) := fun hgo => hb hgo.2
      rw [if_neg hstop, decodeFrom_refused (fun hrange => hb (hsecond.mpr hrange))]
      rfl

/-- A first byte that announces nothing is replaced on its own. -/
theorem step_unassigned (hhigh : ¬ lead.toNat ≤ 0x7F)
    (htwo : ¬ (0xC2 ≤ lead.toNat ∧ lead.toNat ≤ 0xDF))
    (hthree : ¬ (0xE0 ≤ lead.toNat ∧ lead.toNat ≤ 0xEF))
    (hfour : ¬ (0xF0 ≤ lead.toNat ∧ lead.toNat ≤ 0xF4)) : decodeFrom none (lead :: rest) =
      replacement :: decodeFrom none ((lead :: rest).drop (consumeFrom lead 1 rest)) := by
  have hwanted : wanted lead = 1 := by
    rw [wanted, if_neg htwo, if_neg hthree, if_neg hfour]
  have hconsumed : consumeFrom lead 1 rest = 1 := by
    cases rest with
    | nil => rfl
    | cons b bs => rw [consumeFrom, if_neg (by omega)]
  rw [hconsumed, decodeFrom_cons]
  simp [feed, start, hhigh, htwo, hthree, hfour]

/-- What the sequence decoder replaces, the byte decoder replaces. -/
theorem decodeFrom_of_decodeRune_none (h : decodeRune (lead :: rest) = none) :
    decodeFrom none (lead :: rest) =
      replacement :: decodeFrom none ((lead :: rest).drop (consumeFrom lead 1 rest)) := by
  by_cases hhigh : lead.toNat ≤ 0x7F
  · exact absurd h (step_ascii hhigh)
  by_cases htwo : 0xC2 ≤ lead.toNat ∧ lead.toNat ≤ 0xDF
  · exact step_two htwo h
  by_cases hthree : 0xE0 ≤ lead.toNat ∧ lead.toNat ≤ 0xEF
  · exact step_three hthree h
  by_cases hfour : 0xF0 ≤ lead.toNat ∧ lead.toNat ≤ 0xF4
  · exact step_four hfour h
  · exact step_unassigned hhigh htwo hthree hfour

end Step

/-- A scalar that the sequence decoder takes is the first one of the byte decoder. -/
theorem decodeUtf8_of_decodeRune {size : ℕ} (h : decodeRune raw = some size) :
    ∃ c, raw = utf8EncodeChar c ++ raw.drop size ∧ raw.take size = utf8EncodeChar c ∧
      decodeUtf8 raw = c :: decodeUtf8 (raw.drop size) := by
  unfold decodeRune at h
  split at h
  · cases h
  · rename_i c hhead
    dsimp only at h
    split at h
    · rename_i htake
      obtain rfl := Option.some.inj h
      have hsplit : raw = utf8EncodeChar c ++ raw.drop (utf8EncodeChar c).length := by
        conv_lhs => rw [← List.take_append_drop (utf8EncodeChar c).length raw, htake]
      refine ⟨c, hsplit, htake, ?_⟩
      conv_lhs => rw [hsplit]
      exact decodeFrom_encodeChar c _
    · cases h

/-- Both decoders write the same text. -/
theorem replacementUtf8_eq (raw : Bytes) :
    replacementUtf8 raw = encodeUtf8 (decodeUtf8 raw) := by
  induction raw using replacementUtf8.induct with
  | case1 => simp [replacementUtf8, decodeUtf8, decodeFrom, encodeUtf8]
  | case2 lead rest size h ih =>
    obtain ⟨c, -, htake, hdecode⟩ := decodeUtf8_of_decodeRune h
    rw [replacementUtf8]
    split
    · rename_i size' h'
      obtain rfl := Option.some.inj (h.symm.trans h')
      rw [htake, ih, hdecode]
      rfl
    · rename_i h'
      rw [h] at h'
      cases h'
  | case3 lead rest h ih =>
    have hdecode : decodeUtf8 (lead :: rest) =
        replacement :: decodeUtf8 ((lead :: rest).drop (consumeFrom lead 1 rest)) :=
      decodeFrom_of_decodeRune_none h
    rw [replacementUtf8]
    split
    · rename_i size' h'
      rw [h] at h'
      cases h'
    · rw [ih, hdecode]
      rfl

end DialCache.Utf8Replacement
