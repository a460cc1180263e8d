import DialCache.Utf8Prefixes

/-!
# Repair of ill-formed UTF-8

`Repaired` says what a repaired text is without a decoder: encodings of scalars are copied,
and elsewhere the longest start of an encoding, or else one byte, becomes U+FFFD.
`replacementUTF8` finds these parts with its table of continuation bytes.
-/

namespace DialCache.Utf8Repair

open UnicodeText Utf8Replacement Utf8Prefixes

/-- Bytes that encode scalars and nothing else. -/
def WellFormed (raw : Bytes) : Prop := ∃ cs, raw = encodeUtf8 cs

/-- Bytes that the encoding of some scalar starts with. -/
def Begins (bytes : Bytes) : Prop := ∃ c tail, String.utf8EncodeChar c = bytes ++ tail

/-- The encoding of a scalar stands at the front. -/
def ScalarFirst (raw : Bytes) : Prop := ∃ c rest, raw = String.utf8EncodeChar c ++ rest

/-- A start of an encoding that the text behind it does not prolong, or one byte that
starts no encoding. -/
structure MaximalSubpart (bad rest : Bytes) : Prop where
  nonempty : bad ≠ []
  begins : Begins bad ∨ bad.length = 1
  maximal : ∀ b more, rest = b :: more → ¬ Begins (bad ++ [b])

inductive Repaired : Bytes → Bytes → Prop
  | nil : Repaired [] []
  | scalar (c : Char) {rest out : Bytes} (tail : Repaired rest out) :
      Repaired (String.utf8EncodeChar c ++ rest) (String.utf8EncodeChar c ++ out)
  | subpart {bad rest out : Bytes} (noScalar : ¬ ScalarFirst (bad ++ rest))
      (part : MaximalSubpart bad rest) (tail : Repaired rest out) :
      Repaired (bad ++ rest) (String.utf8EncodeChar replacement ++ out)

/-! ### The table of continuation bytes -/

section Table

variable {lead : UInt8}

theorem consumeFrom_append {k : ℕ} {front : Bytes}
    (h : consumeFrom lead k front = k + front.length) (rest : Bytes) :
    consumeFrom lead k (front ++ rest) = consumeFrom lead (k + front.length) rest := by
  induction front generalizing k with
  | nil => rfl
  | cons b front ih =>
    rw [List.cons_append, consumeFrom]
    rw [consumeFrom] at h
    split at h
    · rename_i hgo
      rw [if_pos hgo, ih (by rw [h, List.length_cons]; omega), List.length_cons, Nat.add_assoc,
        Nat.add_comm 1]
    · rw [List.length_cons] at h
      omega

/-- What is accepted as a whole is accepted at its front. -/
theorem consumeFrom_front {k : ℕ} {front rest : Bytes}
    (h : consumeFrom lead k (front ++ rest) = k + (front ++ rest).length) :
    consumeFrom lead k front = k + front.length := by
  induction front generalizing k with
  | nil => rfl
  | cons b front ih =>
    rw [List.cons_append, List.length_cons] at h
    rw [consumeFrom] at h ⊢
    split at h
    · rename_i hgo
      rw [if_pos hgo, ih (by rw [h]; omega), List.length_cons]
      omega
    · omega

/-- The loop stops behind the longest accepted front. -/
theorem consumeFrom_split (lead : UInt8) (k : ℕ) (bs : Bytes) : ∃ front rest, bs = front ++ rest ∧
    consumeFrom lead k bs = k + front.length ∧ consumeFrom lead k front = k + front.length ∧
      ∀ b more, rest = b :: more → ¬ (k + front.length < wanted lead ∧
        continues lead (k + front.length) b = true) := by
  induction bs generalizing k with
  | nil =>
    refine ⟨[], [], rfl, rfl, rfl, ?_⟩
    intro b more h
    cases h
  | cons b bs ih =>
    by_cases hgo : k < wanted lead ∧ continues lead k b = true
    · obtain ⟨front, rest, hbs, hlength, hfront, hstop⟩ := ih (k + 1)
      have hshift : k + (front.length + 1) = k + 1 + front.length := by omega
      refine ⟨b :: front, rest, by rw [hbs, List.cons_append], ?_, ?_, ?_⟩
      · rw [consumeFrom, if_pos hgo, hlength, List.length_cons, hshift]
      · rw [consumeFrom, if_pos hgo, hfront, List.length_cons, hshift]
      · rw [List.length_cons, hshift]
        exact hstop
    · refine ⟨[], b :: bs, rfl, ?_, rfl, ?_⟩
      · rw [consumeFrom, if_neg hgo]
        rfl
      · intro d more h
        obtain ⟨rfl, -⟩ := List.cons.inj h
        exact hgo

/-- A first byte and bytes that the table accepts behind it. -/
def Accepted (lead : UInt8) (tail : Bytes) : Prop :=
  (0xC2 ≤ lead.toNat ∧ lead.toNat ≤ 0xF4) ∧ consumeFrom lead 1 tail = 1 + tail.length

theorem wanted_of_le (h : lead.toNat ≤ 0xC1) : wanted lead = 1 := by
  rw [wanted, if_neg (by omega), if_neg (by omega), if_neg (by omega)]

theorem wanted_of_lt (h : 0xF4 < lead.toNat) : wanted lead = 1 := by
  rw [wanted, if_neg (by omega), if_neg (by omega), if_neg (by omega)]

theorem one_le_wanted (lead : UInt8) : 1 ≤ wanted lead := by
  rw [wanted]
  repeat' split
  all_goals omega

/-- Some byte continues every incomplete sequence. -/
theorem exists_continues (lead : UInt8) (k : ℕ) : ∃ b, continues lead k b = true := by
  by_cases hthree : lead.toNat = 0xE0
  · refine ⟨0xA0, continues_iff.mpr ?_⟩
    have hbyte : (0xA0 : UInt8).toNat = 0xA0 := rfl
    omega
  by_cases hfour : lead.toNat = 0xF0
  · refine ⟨0x90, continues_iff.mpr ?_⟩
    have hbyte : (0x90 : UInt8).toNat = 0x90 := rfl
    omega
  · refine ⟨0x80, continues_iff.mpr ?_⟩
    have hbyte : (0x80 : UInt8).toNat = 0x80 := rfl
    omega

variable {tail : Bytes}

theorem accepted_snoc_iff {b : UInt8} (h : Accepted lead tail) :
    Accepted lead (tail ++ [b]) ↔
      1 + tail.length < wanted lead ∧ continues lead (1 + tail.length) b = true := by
  have hlength : (tail ++ [b]).length = tail.length + 1 := by simp
  rw [Accepted, consumeFrom_append h.2, hlength, consumeFrom]
  constructor
  · intro hall
    by_contra hstop
    rw [if_neg hstop] at hall
    omega
  · intro hgo
    rw [if_pos hgo]
    exact ⟨h.1, rfl⟩

theorem length_of_accepted (h : Accepted lead tail) : 1 + tail.length ≤ wanted lead := by
  rw [← h.2]
  exact consumeFrom_le_wanted (one_le_wanted lead) tail

/-- Accepted bytes can be completed to a sequence of the announced length. -/
theorem exists_completion (n : ℕ) (h : Accepted lead tail)
    (hn : 1 + tail.length + n = wanted lead) :
    ∃ more, Accepted lead (tail ++ more) ∧ 1 + (tail ++ more).length = wanted lead := by
  induction n generalizing tail with
  | zero => exact ⟨[], by rwa [List.append_nil], by rw [List.append_nil]; exact hn⟩
  | succ n ih =>
    obtain ⟨b, hb⟩ := exists_continues lead (1 + tail.length)
    have hnext : Accepted lead (tail ++ [b]) := (accepted_snoc_iff h).mpr ⟨by omega, hb⟩
    obtain ⟨more, hmore, hlength⟩ := ih hnext (by simp; omega)
    refine ⟨b :: more, ?_, ?_⟩
    · rwa [List.append_assoc] at hmore
    · rwa [List.append_assoc] at hlength

/-- An accepted sequence of the announced length encodes a scalar. -/
theorem encodes_of_accepted (h : Accepted lead tail) (hlength : 1 + tail.length = wanted lead) :
    ∃ c, String.utf8EncodeChar c = lead :: tail := by
  obtain ⟨hlead, hall⟩ := h
  by_cases htwo : lead.toNat ≤ 0xDF
  · have hwanted : wanted lead = 2 := by rw [wanted, if_pos ⟨hlead.1, htwo⟩]
    obtain ⟨b, rfl⟩ := List.length_eq_one_iff.mp (show tail.length = 1 by omega)
    rw [consumeFrom] at hall
    split at hall
    · rename_i hb
      exact encodes_two ⟨hlead.1, htwo⟩ (continues_iff.mp hb.2).1
    · simp at hall
  by_cases hthree : lead.toNat ≤ 0xEF
  · have hwanted : wanted lead = 3 := by
      rw [wanted, if_neg (by omega), if_pos (by omega)]
    obtain ⟨b, c, rfl⟩ := List.length_eq_two.mp (show tail.length = 2 by omega)
    rw [consumeFrom] at hall
    split at hall
    · rename_i hb
      rw [consumeFrom] at hall
      split at hall
      · rename_i hc
        exact encodes_three (by omega) hb.2 (continues_iff.mp hc.2).1
      · simp at hall
    · simp at hall
  · have hwanted : wanted lead = 4 := by
      rw [wanted, if_neg (by omega), if_neg (by omega), if_pos (by omega)]
    obtain ⟨b, c, d, rfl⟩ := List.length_eq_three.mp (show tail.length = 3 by omega)
    rw [consumeFrom] at hall
    split at hall
    · rename_i hb
      rw [consumeFrom] at hall
      split at hall
      · rename_i hc
        rw [consumeFrom] at hall
        split at hall
        · rename_i hd
          exact encodes_four (by omega) hb.2 (continues_iff.mp hc.2).1 (continues_iff.mp hd.2).1
        · simp at hall
      · simp at hall
    · simp at hall

end Table

/-! ### Encodings meet the table -/

section Encodings

variable {lead : UInt8} {tail : Bytes}

/-- A longer encoding is accepted by the table. -/
theorem accepted_of_encoding {c : Char} (h : String.utf8EncodeChar c = lead :: tail) :
    (lead.toNat ≤ 0x7F ∧ tail = []) ∨ Accepted lead tail := by
  have hv : c.val.toNat < 0xD800 ∨ (0xDFFF < c.val.toNat ∧ c.val.toNat < 0x110000) :=
    toNat_valid c
  have hbyte : ∀ n, n < 256 → (UInt8.ofNat n).toNat = n := fun n hn => UInt8.toNat_ofNat_of_lt' hn
  unfold String.utf8EncodeChar at h
  generalize c.val.toNat = v at hv h
  dsimp only at h
  split at h
  · obtain ⟨rfl, rfl⟩ := List.cons.inj h
    exact Or.inl ⟨by rw [hbyte _ (by omega)]; omega, rfl⟩
  right
  split at h
  · obtain ⟨rfl, rfl⟩ := List.cons.inj h
    have hlead := hbyte (v / 64 % 0x20 + 0xc0) (by omega)
    have hlast := hbyte (v % 0x40 + 0x80) (by omega)
    refine ⟨by omega, ?_⟩
    have hwanted : wanted (UInt8.ofNat (v / 64 % 0x20 + 0xc0)) = 2 := by
      rw [wanted, if_pos (by omega)]
    rw [consumeFrom, if_pos ⟨by omega, continues_iff.mpr (by omega)⟩]
    rfl
  split at h
  · obtain ⟨rfl, rfl⟩ := List.cons.inj h
    have hlead := hbyte (v / 4096 % 0x10 + 0xe0) (by omega)
    have hnext := hbyte (v / 64 % 0x40 + 0x80) (by omega)
    have hlast := hbyte (v % 0x40 + 0x80) (by omega)
    refine ⟨by omega, ?_⟩
    have hwanted : wanted (UInt8.ofNat (v / 4096 % 0x10 + 0xe0)) = 3 := by
      rw [wanted, if_neg (by omega), if_pos (by omega)]
    rw [consumeFrom, if_pos ⟨by omega, continues_iff.mpr (by omega)⟩, consumeFrom,
      if_pos ⟨by omega, continues_iff.mpr (by omega)⟩]
    rfl
  · obtain ⟨rfl, rfl⟩ := List.cons.inj h
    have hlead := hbyte (v / 262144 % 0x08 + 0xf0) (by omega)
    have hnext := hbyte (v / 4096 % 0x40 + 0x80) (by omega)
    have hthird := hbyte (v / 64 % 0x40 + 0x80) (by omega)
    have hlast := hbyte (v % 0x40 + 0x80) (by omega)
    refine ⟨by omega, ?_⟩
    have hwanted : wanted (UInt8.ofNat (v / 262144 % 0x08 + 0xf0)) = 4 := by
      rw [wanted, if_neg (by omega), if_neg (by omega), if_pos (by omega)]
    rw [consumeFrom, if_pos ⟨by omega, continues_iff.mpr (by omega)⟩, consumeFrom,
      if_pos ⟨by omega, continues_iff.mpr (by omega)⟩, consumeFrom,
      if_pos ⟨by omega, continues_iff.mpr (by omega)⟩]
    rfl

/-- The table describes the starts of encodings. -/
theorem begins_cons_iff :
    Begins (lead :: tail) ↔ (lead.toNat ≤ 0x7F ∧ tail = []) ∨ Accepted lead tail := by
  constructor
  · intro h
    obtain ⟨c, more, hc⟩ := h
    rw [List.cons_append] at hc
    rcases accepted_of_encoding hc with hascii | haccepted
    · exact Or.inl ⟨hascii.1, (List.append_eq_nil_iff.mp hascii.2).1⟩
    · exact Or.inr ⟨haccepted.1, consumeFrom_front haccepted.2⟩
  · intro h
    rcases h with ⟨hascii, rfl⟩ | haccepted
    · have hne : decodeRune [lead] ≠ none := step_ascii hascii
      obtain ⟨size, hsize⟩ := Option.ne_none_iff_exists'.mp hne
      obtain ⟨c, hsplit, -, -⟩ := decodeUtf8_of_decodeRune hsize
      obtain ⟨b, bs, hbytes⟩ := List.exists_cons_of_length_pos (length_utf8EncodeChar_pos c)
      rw [hbytes, List.cons_append] at hsplit
      obtain ⟨hb, hnil⟩ := List.cons.inj hsplit
      exact ⟨c, bs, by rw [hbytes, hb]; rfl⟩
    · have hlength := length_of_accepted haccepted
      obtain ⟨more, hmore, hwhole⟩ := exists_completion (wanted lead - (1 + tail.length))
        haccepted (by omega)
      obtain ⟨c, hc⟩ := encodes_of_accepted hmore hwhole
      exact ⟨c, more, hc⟩

end Encodings

theorem Begins.front {front more : Bytes} (h : Begins (front ++ more)) : Begins front := by
  obtain ⟨c, tail, hc⟩ := h
  exact ⟨c, more ++ tail, by rw [hc, List.append_assoc]⟩

/-! ### The repaired text -/

theorem decodeRune_eq_none_iff (raw : Bytes) : decodeRune raw = none ↔ ¬ ScalarFirst raw := by
  constructor
  · intro h hfirst
    obtain ⟨c, rest, hraw⟩ := hfirst
    exact decodeRune_ne_none c rest hraw h
  · intro h
    by_contra hne
    obtain ⟨size, hsize⟩ := Option.ne_none_iff_exists'.mp hne
    obtain ⟨c, hsplit, -, -⟩ := decodeUtf8_of_decodeRune hsize
    exact h ⟨c, _, hsplit⟩

/-- What the loop replaces is a maximal subpart. -/
theorem maximalSubpart_of_decodeRune_none {lead : UInt8} {rest : Bytes}
    (h : decodeRune (lead :: rest) = none) : ∃ front more, rest = front ++ more ∧
      consumeFrom lead 1 rest = 1 + front.length ∧ MaximalSubpart (lead :: front) more := by
  have hhigh : ¬ lead.toNat ≤ 0x7F := fun hascii => step_ascii hascii h
  obtain ⟨front, more, hrest, hlength, hfront, hstop⟩ := consumeFrom_split lead 1 rest
  refine ⟨front, more, hrest, hlength, ?_⟩
  by_cases hlead : 0xC2 ≤ lead.toNat ∧ lead.toNat ≤ 0xF4
  · refine ⟨List.cons_ne_nil _ _, Or.inl (begins_cons_iff.mpr (Or.inr ⟨hlead, hfront⟩)), ?_⟩
    intro b tail hmore hbegins
    rw [List.cons_append] at hbegins
    rcases begins_cons_iff.mp hbegins with hascii | haccepted
    · exact hhigh hascii.1
    · exact hstop b tail hmore ((accepted_snoc_iff ⟨hlead, hfront⟩).mp haccepted)
  · -- the byte announces no sequence, so the loop takes it alone
    have hwanted : wanted lead = 1 := by
      by_cases hlow : lead.toNat ≤ 0xC1
      · exact wanted_of_le hlow
      · exact wanted_of_lt (by omega)
    have hbound := consumeFrom_le_wanted (Nat.le_of_eq hwanted.symm) front
    have hnil : front = [] := List.eq_nil_of_length_eq_zero (by omega)
    subst hnil
    refine ⟨List.cons_ne_nil _ _, Or.inr rfl, ?_⟩
    intro b tail _ hbegins
    rcases begins_cons_iff.mp (Begins.front hbegins) with hascii | haccepted
    · exact hhigh hascii.1
    · exact hlead haccepted.1

theorem repaired_replacementUtf8 (raw : Bytes) : Repaired raw (replacementUtf8 raw) := by
  induction raw using replacementUtf8.induct with
  | case1 =>
    rw [replacementUtf8]
    exact Repaired.nil
  | case2 lead rest size h ih =>
    obtain ⟨c, hsplit, htake, -⟩ := decodeUtf8_of_decodeRune h
    rw [replacementUtf8]
    split
    · rename_i size' h'
      obtain rfl := Option.some.inj (h.symm.trans h')
      have hscalar := Repaired.scalar c ih
      rwa [← hsplit, ← htake] at hscalar
    · rename_i h'
      rw [h] at h'
      cases h'
  | case3 lead rest h ih =>
    obtain ⟨front, more, hrest, hlength, hpart⟩ := maximalSubpart_of_decodeRune_none h
    have hsplit : lead :: rest = (lead :: front) ++ more := by rw [hrest, List.cons_append]
    have hdrop : (lead :: rest).drop (consumeFrom lead 1 rest) = more := by
      rw [hlength, hsplit]
      exact List.drop_left' (by rw [List.length_cons, Nat.add_comm])
    rw [replacementUtf8]
    split
    · rename_i size' h'
      rw [h] at h'
      cases h'
    · rw [hdrop] at ih ⊢
      have hfirst := (decodeRune_eq_none_iff _).mp h
      rw [hsplit] at hfirst ⊢
      exact Repaired.subpart hfirst hpart ih

/-- Two maximal subparts at the front of a text are the same. -/
theorem MaximalSubpart.eq {bad rest bad' rest' : Bytes} (h : MaximalSubpart bad rest)
    (h' : MaximalSubpart bad' rest') (hraw : bad ++ rest = bad' ++ rest') :
    bad = bad' ∧ rest = rest' := by
  have hshort : ∀ {a b r s : Bytes}, MaximalSubpart a r → MaximalSubpart b s →
      ∀ {more}, b = a ++ more → r = more ++ s → more = [] := by
    intro a b r s ha hb more hprolonged hrest
    cases more with
    | nil => rfl
    | cons x xs =>
      rcases hb.begins with hbegins | hone
      · rw [hprolonged, ← List.singleton_append, ← List.append_assoc] at hbegins
        exact absurd hbegins.front (ha.maximal x _ hrest)
      · have hpos := List.length_pos_iff.mpr ha.nonempty
        rw [hprolonged, List.length_append, List.length_cons] at hone
        omega
  rcases List.append_eq_append_iff.mp hraw with ⟨more, hbad, hrest⟩ | ⟨more, hbad, hrest⟩
  · obtain rfl := hshort h h' hbad hrest
    exact ⟨by rw [hbad, List.append_nil], by rw [hrest, List.nil_append]⟩
  · obtain rfl := hshort h' h hbad hrest
    exact ⟨by rw [hbad, List.append_nil], by rw [hrest, List.nil_append]⟩

theorem eq_of_scalars {c d : Char} {rest rest' : Bytes}
    (h : String.utf8EncodeChar c ++ rest = String.utf8EncodeChar d ++ rest') :
    c = d ∧ rest = rest' := by
  have hread := decodeFrom_encodeChar c rest
  rw [h, decodeFrom_encodeChar d rest'] at hread
  obtain ⟨rfl, -⟩ := List.cons.inj hread
  exact ⟨rfl, List.append_cancel_left h⟩

variable {raw : Bytes}

theorem Repaired.eq_nil {out : Bytes} (h : Repaired raw out) (hraw : raw = []) : out = [] := by
  cases h with
  | nil => rfl
  | scalar c tail =>
    have hpos := length_utf8EncodeChar_pos c
    rw [(List.append_eq_nil_iff.mp hraw).1] at hpos
    exact absurd hpos (Nat.lt_irrefl 0)
  | subpart noScalar part tail => exact absurd (List.append_eq_nil_iff.mp hraw).1 part.nonempty

/-- A text has one repair. -/
theorem Repaired.unique {out : Bytes} (h : Repaired raw out) :
    ∀ {raw' out'}, Repaired raw' out' → raw = raw' → out = out' := by
  induction h with
  | nil =>
    intro raw' out' h' hraw
    exact (h'.eq_nil hraw.symm).symm
  | scalar c tail ih =>
    intro raw' out' h' hraw
    cases h' with
    | nil =>
      have hpos := length_utf8EncodeChar_pos c
      rw [(List.append_eq_nil_iff.mp hraw).1] at hpos
      exact absurd hpos (Nat.lt_irrefl 0)
    | scalar d tail' =>
      obtain ⟨rfl, hrest⟩ := eq_of_scalars hraw
      rw [ih tail' hrest]
    | subpart noScalar part tail' => exact absurd ⟨c, _, hraw.symm⟩ noScalar
  | subpart noScalar part tail ih =>
    intro raw' out' h' hraw
    cases h' with
    | nil => exact absurd (List.append_eq_nil_iff.mp hraw).1 part.nonempty
    | scalar d tail' => exact absurd ⟨d, _, hraw⟩ noScalar
    | subpart noScalar' part' tail' => rw [ih tail' (part.eq part' hraw).2]

/-! ### Laws of the repair -/

theorem replacementUtf8_append (h : WellFormed raw) (rest : Bytes) :
    replacementUtf8 (raw ++ rest) = raw ++ replacementUtf8 rest := by
  obtain ⟨cs, rfl⟩ := h
  rw [replacementUtf8_eq, decodeUtf8_encodeUtf8_append, encodeUtf8_append, replacementUtf8_eq]

theorem replacementUtf8_of_wellFormed (h : WellFormed raw) : replacementUtf8 raw = raw := by
  obtain ⟨cs, rfl⟩ := h
  rw [replacementUtf8_eq, decodeUtf8_encodeUtf8]

theorem wellFormed_replacementUtf8 (raw : Bytes) : WellFormed (replacementUtf8 raw) :=
  ⟨decodeUtf8 raw, replacementUtf8_eq raw⟩

/-- `replacementUTF8` returns the one repair of its input, which is what the standard
decoder reads, written as UTF-8. -/
theorem replacementUtf8_law (raw : List UInt8) :
    (decodeRune raw = none ↔ ¬ ScalarFirst raw) ∧
      (∀ out, Repaired raw out ↔ replacementUtf8 raw = out) ∧
      replacementUtf8 raw = encodeUtf8 (decodeUtf8 raw) ∧
      WellFormed (replacementUtf8 raw) ∧
      (replacementUtf8 raw = raw ↔ WellFormed raw) ∧
      replacementUtf8 (replacementUtf8 raw) = replacementUtf8 raw ∧
      (WellFormed raw → ∀ rest,
        replacementUtf8 (raw ++ rest) = replacementUtf8 raw ++ replacementUtf8 rest) := by
  refine ⟨decodeRune_eq_none_iff raw, ?_, replacementUtf8_eq raw, wellFormed_replacementUtf8 raw,
    ?_, replacementUtf8_of_wellFormed (wellFormed_replacementUtf8 raw), ?_⟩
  · intro out
    constructor
    · intro h
      exact (repaired_replacementUtf8 raw).unique h rfl
    · intro h
      rw [← h]
      exact repaired_replacementUtf8 raw
  · constructor
    · intro h
      rw [← h]
      exact wellFormed_replacementUtf8 raw
    · exact replacementUtf8_of_wellFormed
  · intro h rest
    rw [replacementUtf8_append h, replacementUtf8_of_wellFormed h]

end DialCache.Utf8Repair
