import DialCache.FramePorts

/-!
# Four watermark parsers

A watermark is a nonempty run of ASCII digits whose value is a safe integer, with leading
zeros of any length. The ports reach this through double conversion, a 64-bit parse, checked
arithmetic and a comparison of digit strings.
-/

namespace DialCache.FramePorts

open UnicodeText JsValues DecimalText Binary64Integers RedisFrames PortableKeys Utf8Replacement
open KeyPorts

/-! ### Decoded digits -/

variable {raw : Bytes}

/-- Text without a replacement character was decoded without loss. -/
theorem encodeUtf8_decodeUtf8 (h : replacement ∉ decodeUtf8 raw) :
    encodeUtf8 (decodeUtf8 raw) = raw := by
  induction raw using replacementUtf8.induct with
  | case1 => rfl
  | case2 lead rest size hrune ih =>
    obtain ⟨c, hsplit, -, hdecode⟩ := decodeUtf8_of_decodeRune hrune
    rw [hdecode] at h ⊢
    have hrest := ih (fun hmem => h (List.mem_cons_of_mem _ hmem))
    have hcons : encodeUtf8 (c :: decodeUtf8 ((lead :: rest).drop size)) =
        String.utf8EncodeChar c ++ encodeUtf8 (decodeUtf8 ((lead :: rest).drop size)) := by
      simp [encodeUtf8]
    rw [hcons, hrest]
    exact hsplit.symm
  | case3 lead rest hrune ih =>
    have hdecode : decodeUtf8 (lead :: rest) =
        replacement :: decodeUtf8 ((lead :: rest).drop (consumeFrom lead 1 rest)) :=
      decodeFrom_of_decodeRune_none hrune
    rw [hdecode] at h
    exact absurd List.mem_cons_self h

theorem toNat_lt_of_isDigit {n : ℕ} (h : isDigit n = true) : n < 128 := by
  simp only [isDigit, Bool.and_eq_true, decide_eq_true_eq] at h
  omega

theorem codes_of_decoded_digits (h : ∀ c ∈ decodeUtf8 raw, isDigit c.toNat = true) :
    (decodeUtf8 raw).map Char.toNat = codes raw := by
  have hascii : IsAscii (decodeUtf8 raw) := fun c hc => toNat_lt_of_isDigit (h c hc)
  have hclean : replacement ∉ decodeUtf8 raw := by
    intro hmem
    have hlt := hascii _ hmem
    revert hlt
    decide
  have hraw := encodeUtf8_decodeUtf8 hclean
  rw [encodeUtf8_of_ascii hascii] at hraw
  have hcodes : codes raw = ((decodeUtf8 raw).map fun c => UInt8.ofNat c.toNat).map UInt8.toNat := by
    rw [hraw]
    rfl
  rw [hcodes, List.map_map]
  apply List.map_congr_left
  intro c hc
  have hlt := hascii c hc
  exact (toNat_byte (by omega)).symm

theorem decoded_of_digits (h : ∀ n ∈ codes raw, isDigit n = true) :
    (decodeUtf8 raw).map Char.toNat = codes raw := by
  have hlt : ∀ n ∈ codes raw, n < 128 := fun n hn => toNat_lt_of_isDigit (h n hn)
  have hraw : (codes raw).map UInt8.ofNat = raw := by
    simp [codes, List.map_map, Function.comp_def]
  have hdecode := decodeUtf8_ascii (codes raw) hlt
  rw [hraw] at hdecode
  rw [hdecode, List.map_map]
  conv_rhs => rw [← List.map_id (codes raw)]
  apply List.map_congr_left
  intro n hn
  exact toNat_char_of_lt (hlt n hn)

/-- Decoding neither makes nor loses digits. -/
theorem decoded_digits_iff (raw : Bytes) :
    (∀ c ∈ decodeUtf8 raw, isDigit c.toNat = true) ↔ ∀ n ∈ codes raw, isDigit n = true := by
  constructor
  · intro h n hn
    rw [← codes_of_decoded_digits h] at hn
    obtain ⟨c, hc, rfl⟩ := List.mem_map.mp hn
    exact h c hc
  · intro h c hc
    have hmem : c.toNat ∈ codes raw := by
      rw [← decoded_of_digits h]
      exact List.mem_map_of_mem hc
    exact h _ hmem

theorem isDigits_iff (cs : List ℕ) : isDigits cs = true ↔ cs ≠ [] ∧ ∀ n ∈ cs, isDigit n = true := by
  simp [isDigits, List.all_eq_true]

/-! ### Values of digits -/

theorem value_foldl (cs : List ℕ) (n : ℕ) :
    cs.foldl (fun n c => 10 * n + (c - 48)) n = n * 10 ^ cs.length + value cs := by
  induction cs generalizing n with
  | nil => simp [value]
  | cons c cs ih =>
    have hvalue : value (c :: cs) = (10 * 0 + (c - 48)) * 10 ^ cs.length + value cs :=
      ih (10 * 0 + (c - 48))
    rw [List.foldl_cons, ih, hvalue, List.length_cons, pow_succ]
    ring

theorem value_cons (c : ℕ) (cs : List ℕ) : value (c :: cs) = (c - 48) * 10 ^ cs.length + value cs := by
  have hfold := value_foldl cs (10 * 0 + (c - 48))
  rw [value, List.foldl_cons, hfold]
  ring

theorem value_lt {cs : List ℕ} (h : ∀ n ∈ cs, isDigit n = true) : value cs < 10 ^ cs.length := by
  induction cs with
  | nil => simp [value]
  | cons c cs ih =>
    have hrest := ih (fun n hn => h n (List.mem_cons_of_mem _ hn))
    have hdigit := h c List.mem_cons_self
    simp only [isDigit, Bool.and_eq_true, decide_eq_true_eq] at hdigit
    have hc : c - 48 ≤ 9 := by omega
    have hscaled := Nat.mul_le_mul_right (10 ^ cs.length) hc
    rw [value_cons, List.length_cons, pow_succ]
    omega

theorem value_dropWhile (raw : Bytes) :
    value (codes (raw.dropWhile (· == 48))) = value (codes raw) := by
  induction raw with
  | nil => rfl
  | cons b raw ih =>
    rw [List.dropWhile_cons]
    split
    · rename_i hzero
      have hb : b.toNat = 48 := by
        rw [beq_iff_eq.mp hzero]
        rfl
      have hcons : codes (b :: raw) = b.toNat :: codes raw := rfl
      rw [ih, hcons, value_cons, hb]
      simp
    · rfl

/-- Stripping zeros, and putting one back if nothing is left, keeps the value. -/
theorem value_stripped (raw : Bytes) :
    value (codes (if (raw.dropWhile (· == 48)).isEmpty then [48] else raw.dropWhile (· == 48))) =
      value (codes raw) := by
  split
  · rename_i hempty
    have hvalue := value_dropWhile raw
    rw [List.isEmpty_iff.mp hempty] at hvalue
    rw [← hvalue]
    rfl
  · exact value_dropWhile raw

theorem digits_dropWhile (h : ∀ n ∈ codes raw, isDigit n = true) :
    ∀ n ∈ codes (raw.dropWhile (· == 48)), isDigit n = true := by
  intro n hn
  obtain ⟨b, hb, rfl⟩ := List.mem_map.mp hn
  exact h _ (List.mem_map_of_mem ((List.dropWhile_sublist _).subset hb))

/-! ### The parsers -/

theorem isDigits_eq_false {cs : List ℕ} (h : ¬ ∀ n ∈ cs, isDigit n = true) : isDigits cs = false := by
  rw [Bool.eq_false_iff, ne_eq, isDigits_iff]
  exact fun hdigits => h hdigits.2

theorem units_digits_iff (t : Text) : (∀ n ∈ (units t).map UInt16.toNat, isDigit n = true) ↔
    ∀ c ∈ t, isDigit c.toNat = true := by
  constructor
  · intro h c hc
    have hunits : ∀ u ∈ unitsOf c, isDigit u.toNat = true := by
      intro u hu
      exact h _ (List.mem_map_of_mem (List.mem_flatMap.mpr ⟨c, hc, hu⟩))
    have hvalid := toNat_valid c
    unfold unitsOf at hunits
    split at hunits
    · have hdigit := hunits _ List.mem_cons_self
      rwa [UInt16.toNat_ofNat', Nat.mod_eq_of_lt (by omega)] at hdigit
    · have hdigit := toNat_lt_of_isDigit (hunits _ List.mem_cons_self)
      rw [UInt16.toNat_ofNat', Nat.mod_eq_of_lt (by omega)] at hdigit
      omega
  · intro h n hn
    have hascii : IsAscii t := fun c hc => toNat_lt_of_isDigit (h c hc)
    rw [units_of_ascii hascii, List.map_map] at hn
    obtain ⟨c, hc, rfl⟩ := List.mem_map.mp hn
    have hlt := hascii c hc
    simp only [Function.comp_apply, UInt16.toNat_ofNat']
    rw [Nat.mod_eq_of_lt (by omega)]
    exact h c hc

theorem units_of_digits {t : Text} (h : ∀ c ∈ t, isDigit c.toNat = true) :
    (units t).map UInt16.toNat = t.map Char.toNat := by
  have hascii : IsAscii t := fun c hc => toNat_lt_of_isDigit (h c hc)
  rw [units_of_ascii hascii, List.map_map]
  apply List.map_congr_left
  intro c hc
  have hlt := hascii c hc
  simp only [Function.comp_apply, UInt16.toNat_ofNat']
  omega

theorem TypeScript.parse_eq (raw : Bytes) : parseRedisWatermark raw = watermarkValue raw := by
  by_cases hall : ∀ n ∈ codes raw, isDigit n = true
  · have hdecoded := (decoded_digits_iff raw).mpr hall
    have htext : (units (decodeUtf8 raw)).map UInt16.toNat = codes raw := by
      rw [units_of_digits hdecoded, decoded_of_digits hall]
    have hround : nearest (value (codes raw)) ≤ maxSafeInteger ↔
        value (codes raw) ≤ maxSafeInteger := nearest_le_iff (by decide)
    simp only [parseRedisWatermark, htext, watermarkValue]
    by_cases hle : value (codes raw) ≤ maxSafeInteger
    · have hexact : nearest (value (codes raw)) = value (codes raw) := by
        apply nearest_of_lt
        have hmax : maxSafeInteger < 2 ^ 53 := by decide
        omega
      simp [hexact, hle]
    · simp [hle, mt hround.mp hle]
  · have htext : ¬ ∀ n ∈ (units (decodeUtf8 raw)).map UInt16.toNat, isDigit n = true := by
      rw [units_digits_iff, decoded_digits_iff]
      exact hall
    simp [parseRedisWatermark, watermarkValue, isDigits_eq_false htext, isDigits_eq_false hall]

theorem Go.parseWatermark_eq (raw : Bytes) : Go.parseWatermark (some raw) =
    match watermarkValue raw with
    | some total => (some total, true)
    | none => (none, false) := by
  have hany : ((decodeUtf8 raw).any fun c => c.toNat < 48 || 57 < c.toNat) = true ↔
      ¬ ∀ n ∈ codes raw, isDigit n = true := by
    rw [← decoded_digits_iff]
    simp only [List.any_eq_true, isDigit, not_forall]
    constructor
    · intro h
      obtain ⟨c, hc, hbad⟩ := h
      refine ⟨c, hc, ?_⟩
      simp only [Bool.or_eq_true, Bool.and_eq_true, decide_eq_true_eq] at hbad ⊢
      omega
    · intro h
      obtain ⟨c, hc, hbad⟩ := h
      refine ⟨c, hc, ?_⟩
      simp only [Bool.or_eq_true, Bool.and_eq_true, decide_eq_true_eq] at hbad ⊢
      omega
  by_cases hall : ∀ n ∈ codes raw, isDigit n = true
  · cases raw with
    | nil => rfl
    | cons b raw =>
      have hdigits : isDigits (codes (b :: raw)) = true := (isDigits_iff _).mpr ⟨by simp [codes], hall⟩
      have hclean : ((decodeUtf8 (b :: raw)).any fun c => c.toNat < 48 || 57 < c.toNat) = false := by
        rw [Bool.eq_false_iff, ne_eq, hany]
        exact fun h => h hall
      have hparse : Go.parseUint (if (Go.trimLeftZeros (b :: raw)).isEmpty then [48]
          else Go.trimLeftZeros (b :: raw)) =
          if value (codes (b :: raw)) < 2 ^ 64 then some (value (codes (b :: raw))) else none := by
        rw [Go.parseUint, Go.trimLeftZeros, value_stripped]
      have hmax : maxSafeInteger < 2 ^ 64 := by decide
      rw [Go.parseWatermark, hclean]
      simp only [List.isEmpty_cons, Bool.false_eq_true, if_false, watermarkValue, hdigits, true_and]
      rw [hparse]
      by_cases hle : value (codes (b :: raw)) ≤ maxSafeInteger
      · have hfits : value (codes (b :: raw)) < 2 ^ 64 := by omega
        simp only [hfits, if_true, hle, if_neg (Nat.not_lt.mpr hle)]
      · by_cases hfits : value (codes (b :: raw)) < 2 ^ 64
        · simp only [hfits, if_true, hle, if_false, if_pos (Nat.not_le.mp hle)]
        · simp only [hfits, if_false, hle]
  · have hbad := hany.mpr hall
    have hnone : watermarkValue raw = none := by simp [watermarkValue, isDigits_eq_false hall]
    rw [Go.parseWatermark, hbad, hnone]
    simp

/-- Checked arithmetic fails exactly on values past 64 bits. -/
theorem Rust.foldlM_checkedDigit (digits : Bytes) {total : ℕ} (htotal : total < 2 ^ 64) :
    digits.foldlM Rust.checkedDigit total =
      if (codes digits).foldl (fun n c => 10 * n + (c - 48)) total < 2 ^ 64 then
        .ok ((codes digits).foldl (fun n c => 10 * n + (c - 48)) total)
      else .error Rust.malformed := by
  induction digits generalizing total with
  | nil =>
    rw [if_pos (show (codes []).foldl _ total < 2 ^ 64 from htotal)]
    rfl
  | cons d digits ih =>
    have hcons : codes (d :: digits) = d.toNat :: codes digits := rfl
    have hgrow : total * 10 + (d.toNat - 48) ≤
        (codes digits).foldl (fun n c => 10 * n + (c - 48)) (10 * total + (d.toNat - 48)) := by
      rw [value_foldl]
      have hpos : 1 ≤ 10 ^ (codes digits).length := Nat.one_le_pow _ _ (by norm_num)
      have hscaled := Nat.le_mul_of_pos_right (10 * total + (d.toNat - 48)) hpos
      omega
    rw [List.foldlM_cons, hcons, List.foldl_cons]
    by_cases hsum : total * 10 + (d.toNat - 48) < 2 ^ 64
    · have hstep : Rust.checkedDigit total d = .ok (10 * total + (d.toNat - 48)) := by
        rw [Rust.checkedDigit]
        dsimp only
        rw [if_pos (by omega), if_pos hsum, Nat.mul_comm]
      rw [hstep, KeyAgreement.ok_bind, ih (by omega)]
    · have hstep : Rust.checkedDigit total d = .error Rust.malformed := by
        rw [Rust.checkedDigit]
        dsimp only
        rw [if_neg hsum, ite_self]
      rw [hstep, if_neg (by omega)]
      rfl

theorem Rust.parseWatermarkDigits_eq (raw : Bytes) : Rust.parseWatermarkDigits raw =
    match watermarkValue raw with
    | some total => .ok total
    | none => .error Rust.malformed := by
  have hdigits : (raw.isEmpty || !raw.all fun b => 48 ≤ b.toNat && b.toNat ≤ 57) =
      !isDigits (codes raw) := by
    cases raw with
    | nil => rfl
    | cons b raw =>
      simp [isDigits, codes, isDigit, List.all_map, Function.comp_def]
  rw [Rust.parseWatermarkDigits, hdigits]
  cases h : isDigits (codes raw) with
  | false => simp [watermarkValue, h]
  | true =>
    have hfold := Rust.foldlM_checkedDigit (raw.dropWhile (· == 48)) (show 0 < 2 ^ 64 by norm_num)
    have hvalue : (codes (raw.dropWhile (· == 48))).foldl (fun n c => 10 * n + (c - 48)) 0 =
        value (codes raw) := value_dropWhile raw
    rw [hvalue] at hfold
    have hmax : maxSafeInteger < 2 ^ 64 := by decide
    by_cases hle : value (codes raw) ≤ maxSafeInteger
    · rw [if_pos (by omega)] at hfold
      simp only [Bool.not_true, Bool.false_eq_true, if_false, hfold, KeyAgreement.ok_bind,
        watermarkValue, h, hle, and_self, if_true, if_neg (Nat.not_lt.mpr hle)]
    · by_cases hfits : value (codes raw) < 2 ^ 64
      · rw [if_pos hfits] at hfold
        simp only [Bool.not_true, Bool.false_eq_true, if_false, hfold, KeyAgreement.ok_bind,
          watermarkValue, hle, and_false, if_pos (Nat.not_le.mp hle)]
      · rw [if_neg hfits] at hfold
        simp only [Bool.not_true, Bool.false_eq_true, if_false, hfold, watermarkValue, hle,
          and_false]
        rfl

/-- Digit strings of one length are ordered as their values. -/
theorem lt_iff_value_lt {as bs : List ℕ} (hlength : as.length = bs.length)
    (ha : ∀ n ∈ as, isDigit n = true) (hb : ∀ n ∈ bs, isDigit n = true) :
    as < bs ↔ value as < value bs := by
  induction as generalizing bs with
  | nil =>
    cases bs with
    | nil => simp
    | cons b bs => cases hlength
  | cons a as ih =>
    cases bs with
    | nil => cases hlength
    | cons b bs =>
      have hlength' : as.length = bs.length := by simpa using hlength
      have ha' := fun n hn => ha n (List.mem_cons_of_mem _ hn)
      have hb' := fun n hn => hb n (List.mem_cons_of_mem _ hn)
      have hrest := ih hlength' ha' hb'
      have hva := value_lt ha'
      have hvb := value_lt hb'
      have hda := ha a List.mem_cons_self
      have hdb := hb b List.mem_cons_self
      simp only [isDigit, Bool.and_eq_true, decide_eq_true_eq] at hda hdb
      rw [List.cons_lt_cons_iff, hrest, value_cons, value_cons, ← hlength']
      rw [← hlength'] at hvb
      rcases Nat.lt_trichotomy a b with h | h | h
      · have hscaled := Nat.mul_le_mul_right (10 ^ as.length) (show a - 48 + 1 ≤ b - 48 by omega)
        rw [Nat.add_mul, one_mul] at hscaled
        constructor
        · intro _
          omega
        · intro _
          exact Or.inl h
      · subst h
        simp
      · have hscaled := Nat.mul_le_mul_right (10 ^ as.length) (show b - 48 + 1 ≤ a - 48 by omega)
        rw [Nat.add_mul, one_mul] at hscaled
        constructor
        · intro hor
          rcases hor with h' | ⟨h', -⟩ <;> omega
        · intro hlt
          omega

theorem stripped_head {b : UInt8} {bs : Bytes} (h : raw.dropWhile (· == 48) = b :: bs) :
    b ≠ 48 := by
  have hhead := List.head?_dropWhile_not (fun b : UInt8 => b == 48) raw
  rw [h] at hhead
  simpa using hhead

theorem Python.watermark_eq (raw : Bytes) :
    Python.watermark (some raw) = watermarkValue raw := by
  by_cases hdigits : isDigits (codes raw) = true
  · have hall := ((isDigits_iff _).mp hdigits).2
    have hvalue := value_stripped raw
    have hmaxdigits : ∀ n ∈ Python.maxSafeDigits, isDigit n = true := by decide +kernel
    have hmaxlength : Python.maxSafeDigits.length = 16 := by decide +kernel
    have hmaxvalue : value Python.maxSafeDigits = maxSafeInteger := by decide +kernel
    rw [Python.watermark, hdigits]
    simp only [Bool.not_true, Bool.false_eq_true, if_false, watermarkValue, hdigits, true_and]
    cases hstripped : raw.dropWhile (· == 48) with
    | nil =>
      rw [hstripped] at hvalue
      have hzero : value (codes raw) = 0 := by
        rw [← hvalue]
        rfl
      rw [hzero]
      rfl
    | cons b bs =>
      rw [hstripped] at hvalue
      have hdrop := digits_dropWhile hall
      rw [hstripped] at hdrop
      simp only [List.isEmpty_cons, Bool.false_eq_true, if_false] at hvalue ⊢
      rw [hvalue]
      have hlength : (codes (b :: bs)).length = bs.length + 1 := by simp [codes]
      have hupper := value_lt hdrop
      have hlower : 10 ^ bs.length ≤ value (codes (b :: bs)) := by
        have hnonzero := stripped_head hstripped
        have hdigit := hdrop b.toNat List.mem_cons_self
        simp only [isDigit, Bool.and_eq_true, decide_eq_true_eq] at hdigit
        have hb : b.toNat ≠ 48 := fun h => hnonzero (UInt8.toNat_inj.mp h)
        have hscaled := Nat.mul_le_mul_right (10 ^ bs.length) (show 1 ≤ b.toNat - 48 by omega)
        have hcons := value_cons b.toNat (codes bs)
        rw [show (codes bs).length = bs.length by simp [codes]] at hcons
        have hsplit : value (codes (b :: bs)) = (b.toNat - 48) * 10 ^ bs.length + value (codes bs) :=
          hcons
        omega
      rw [hvalue, hlength] at hupper
      rw [hvalue] at hlower
      rcases Nat.lt_trichotomy (bs.length + 1) 16 with hshort | hequal | hlong
      · have hpow : 10 ^ (bs.length + 1) ≤ 10 ^ 15 := Nat.pow_le_pow_right (by norm_num) (by omega)
        have hmax : 10 ^ 15 ≤ maxSafeInteger := by decide
        have hle : value (codes raw) ≤ maxSafeInteger := by omega
        have hkeep : (decide (16 < (codes (b :: bs)).length) || ((codes (b :: bs)).length == 16 &&
            decide (Python.maxSafeDigits < codes (b :: bs)))) = false := by
          simp only [hlength, Bool.or_eq_false_iff, decide_eq_false_iff_not, Bool.and_eq_false_imp,
            beq_iff_eq]
          omega
        rw [hkeep, if_pos hle]
        rfl
      · have horder := lt_iff_value_lt (hmaxlength.trans (hequal.symm.trans hlength.symm)) hmaxdigits
          hdrop
        rw [hmaxvalue, hvalue] at horder
        by_cases hle : value (codes raw) ≤ maxSafeInteger
        · have hnot : ¬ Python.maxSafeDigits < codes (b :: bs) := by
            rw [horder]
            omega
          simp [hlength, hequal, hnot, hle]
        · have hlt : Python.maxSafeDigits < codes (b :: bs) := by
            rw [horder]
            omega
          simp [hlength, hequal, hlt, hle]
      · have hpow : 10 ^ 16 ≤ 10 ^ bs.length := Nat.pow_le_pow_right (by norm_num) (by omega)
        have hmax : maxSafeInteger < 10 ^ 16 := by decide
        have hle : ¬ value (codes raw) ≤ maxSafeInteger := by omega
        simp [hlength, hlong, hle]
  · have hfalse : isDigits (codes raw) = false := by simpa using hdigits
    simp [Python.watermark, watermarkValue, hfalse]

end DialCache.FramePorts
