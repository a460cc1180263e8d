import DialCache.Utf8Replacement

/-!
# Prefixes of UTF-8 text

Text can be cut to a number of bytes by counting whole scalars (`fitting`), by searching the
bytes backwards for the first byte of a scalar (`boundary`), by keeping the valid start of
the bytes (`validUpTo`) or by decoding the cut bytes and ignoring what is ill formed
(`decodeIgnore`). A cut leaves at most a part of one scalar behind, and all four agree.
-/

namespace DialCache.Utf8Prefixes

open UnicodeText Utf8Replacement
open String (utf8EncodeChar)

def byteLength (cs : List Char) : ℕ := (encodeUtf8 cs).length

@[simp] theorem byteLength_nil : byteLength [] = 0 := rfl

theorem encodeUtf8_cons (c : Char) (cs : List Char) :
    encodeUtf8 (c :: cs) = utf8EncodeChar c ++ encodeUtf8 cs := by
  simp [encodeUtf8]

theorem encodeUtf8_append (cs ds : List Char) :
    encodeUtf8 (cs ++ ds) = encodeUtf8 cs ++ encodeUtf8 ds := by
  simp [encodeUtf8]

@[simp] theorem byteLength_cons (c : Char) (cs : List Char) :
    byteLength (c :: cs) = (utf8EncodeChar c).length + byteLength cs := by
  rw [byteLength, encodeUtf8_cons, List.length_append, byteLength]

@[simp] theorem byteLength_append (cs ds : List Char) :
    byteLength (cs ++ ds) = byteLength cs + byteLength ds := by
  rw [byteLength, encodeUtf8_append, List.length_append, byteLength, byteLength]

variable {p cs : List Char}

theorem byteLength_le_of_isPrefix (h : p <+: cs) : byteLength p ≤ byteLength cs := by
  obtain ⟨rest, rfl⟩ := h
  rw [byteLength_append]
  exact Nat.le_add_right _ _

/-! ### Whole scalars -/

/-- The longest prefix of whole scalars with at most `limit` bytes. -/
def fitting : ℕ → List Char → List Char
  | _, [] => []
  | limit, c :: cs =>
    let size := (utf8EncodeChar c).length
    if size ≤ limit then c :: fitting (limit - size) cs else []

variable {limit : ℕ} {c : Char}

theorem fitting_cons_of_le (h : (utf8EncodeChar c).length ≤ limit) (cs : List Char) :
    fitting limit (c :: cs) =
      c :: fitting (limit - (utf8EncodeChar c).length) cs := if_pos h

theorem fitting_cons_of_lt (h : limit < (utf8EncodeChar c).length) (cs : List Char) :
    fitting limit (c :: cs) = [] := if_neg (Nat.not_le.mpr h)

theorem fitting_isPrefix (limit : ℕ) (cs : List Char) : fitting limit cs <+: cs := by
  induction cs generalizing limit with
  | nil => exact List.nil_prefix
  | cons c cs ih =>
    rcases Nat.lt_or_ge limit (utf8EncodeChar c).length with h | h
    · rw [fitting_cons_of_lt h]
      exact List.nil_prefix
    · rw [fitting_cons_of_le h, List.prefix_cons_inj]
      exact ih _

theorem byteLength_fitting_le (limit : ℕ) (cs : List Char) : byteLength (fitting limit cs) ≤ limit := by
  induction cs generalizing limit with
  | nil => exact Nat.zero_le _
  | cons c cs ih =>
    rcases Nat.lt_or_ge limit (utf8EncodeChar c).length with h | h
    · rw [fitting_cons_of_lt h]
      exact Nat.zero_le _
    · have hrest := ih (limit - (utf8EncodeChar c).length)
      rw [fitting_cons_of_le h, byteLength_cons]
      omega

/-- Every prefix that fits is part of the longest one. -/
theorem isPrefix_fitting (h : p <+: cs) (hfits : byteLength p ≤ limit) :
    p <+: fitting limit cs := by
  induction p generalizing limit cs with
  | nil => exact List.nil_prefix
  | cons c p ih =>
    obtain ⟨rest, rfl⟩ := h
    rw [byteLength_cons] at hfits
    rw [List.cons_append, fitting_cons_of_le (by omega), List.prefix_cons_inj]
    exact ih (List.prefix_append p rest) (by omega)

theorem fitting_eq_self (h : byteLength cs ≤ limit) : fitting limit cs = cs := by
  have hwhole := isPrefix_fitting List.prefix_rfl h
  exact (fitting_isPrefix limit cs).eq_of_length_le hwhole.length_le

/-- What follows a prefix that does not fit changes nothing. -/
theorem fitting_append (h : limit < byteLength p) (rest : List Char) :
    fitting limit (p ++ rest) = fitting limit p := by
  induction p generalizing limit with
  | nil => exact absurd h (Nat.not_lt_zero limit)
  | cons c p ih =>
    rw [List.cons_append]
    rcases Nat.lt_or_ge limit (utf8EncodeChar c).length with hc | hc
    · rw [fitting_cons_of_lt hc, fitting_cons_of_lt hc]
    · rw [byteLength_cons] at h
      rw [fitting_cons_of_le hc, fitting_cons_of_le hc, ih (by omega)]

/-- Text behind the part that fits is longer than the rest of the limit. -/
theorem exists_cut (h : limit < byteLength cs) :
    ∃ c rest, cs = fitting limit cs ++ c :: rest ∧
      limit < byteLength (fitting limit cs) + (utf8EncodeChar c).length := by
  induction cs generalizing limit with
  | nil => exact absurd h (Nat.not_lt_zero limit)
  | cons c cs ih =>
    rcases Nat.lt_or_ge limit (utf8EncodeChar c).length with hc | hc
    · rw [fitting_cons_of_lt hc]
      exact ⟨c, cs, rfl, by rw [byteLength_nil, Nat.zero_add]; exact hc⟩
    · rw [byteLength_cons] at h
      have hrest : limit - (utf8EncodeChar c).length < byteLength cs := by omega
      obtain ⟨d, rest, hcs, hlimit⟩ := ih hrest
      rw [fitting_cons_of_le hc, byteLength_cons]
      exact ⟨d, rest, by rw [List.cons_append, ← hcs], by omega⟩

/-- Cut bytes are the encoding of the scalars that fit and a part of the next one. -/
theorem take_encodeUtf8 (h : limit < byteLength cs) :
    ∃ c k, k < (utf8EncodeChar c).length ∧
      (encodeUtf8 cs).take limit = encodeUtf8 (fitting limit cs) ++ (utf8EncodeChar c).take k := by
  obtain ⟨c, rest, hcs, hlimit⟩ := exists_cut h
  have hle := byteLength_fitting_le limit cs
  have hk : limit - byteLength (fitting limit cs) < (utf8EncodeChar c).length := by omega
  apply Exists.intro c
  apply Exists.intro (limit - byteLength (fitting limit cs))
  constructor
  · exact hk
  · conv_lhs => rw [hcs]
    rw [encodeUtf8_append, encodeUtf8_cons, List.take_append, List.take_of_length_le hle]
    change _ ++ List.take (limit - byteLength (fitting limit cs)) _ = _
    rw [List.take_append_of_le_length (Nat.le_of_lt hk)]

/-! ### First bytes -/

/-- A byte that continues a sequence. -/
def isContinuation (b : UInt8) : Bool := 0x80 ≤ b.toNat && b.toNat < 0xC0

theorem isContinuation_byte {n : ℕ} (h : n < 256) :
    isContinuation (UInt8.ofNat n) = true ↔ 0x80 ≤ n ∧ n < 0xC0 := by
  rw [isContinuation, toNat_byte h, Bool.and_eq_true, decide_eq_true_eq, decide_eq_true_eq]

theorem isContinuation_byte_eq_false {n : ℕ} (h : n < 256) (hn : ¬ (0x80 ≤ n ∧ n < 0xC0)) :
    isContinuation (UInt8.ofNat n) = false := by
  rw [Bool.eq_false_iff, ne_eq, isContinuation_byte h]
  exact hn

/-- A sequence is a first byte and continuation bytes. -/
theorem utf8EncodeChar_shape (c : Char) : ∃ lead tail, utf8EncodeChar c = lead :: tail ∧
    isContinuation lead = false ∧ ∀ b ∈ tail, isContinuation b = true := by
  have hv : c.val.toNat < 0xD800 ∨ (0xDFFF < c.val.toNat ∧ c.val.toNat < 0x110000) :=
    toNat_valid c
  have hnext : ∀ n, isContinuation (UInt8.ofNat (n % 0x40 + 0x80)) = true := by
    intro n
    rw [isContinuation_byte (by omega)]
    omega
  unfold utf8EncodeChar
  generalize c.val.toNat = v at hv
  dsimp only
  split
  · exact ⟨_, [], rfl, isContinuation_byte_eq_false (by omega) (by omega), nofun⟩
  split
  · refine ⟨_, _, rfl, isContinuation_byte_eq_false (by omega) (by omega), ?_⟩
    simp only [List.mem_singleton, forall_eq, hnext]
  split
  all_goals
    refine ⟨_, _, rfl, isContinuation_byte_eq_false (by omega) (by omega), ?_⟩
    simp only [List.mem_cons, List.not_mem_nil, or_false, forall_eq_or_imp, forall_eq, hnext, and_self]

/-- The last position up to a limit that is marked, or zero. -/
def boundary (marked : ℕ → Bool) : ℕ → ℕ
  | 0 => 0
  | n + 1 => if marked (n + 1) then n + 1 else boundary marked n

theorem boundary_succ (marked : ℕ → Bool) (n : ℕ) :
    boundary marked (n + 1) = if marked (n + 1) = true then n + 1 else boundary marked n := rfl

variable {marked : ℕ → Bool}

theorem boundary_of_unmarked (h : ∀ n, 0 < n → n ≤ limit → marked n = false) :
    boundary marked limit = 0 := by
  induction limit with
  | zero => rfl
  | succ n ih =>
    rw [boundary_succ, h (n + 1) (Nat.succ_pos n) (Nat.le_refl _), if_neg Bool.false_ne_true]
    apply ih
    intro m hm hle
    exact h m hm (Nat.le_succ_of_le hle)

theorem boundary_add {size : ℕ} (hsize : 0 < size) (h : marked size = true) (limit : ℕ) :
    boundary marked (size + limit) = size + boundary (fun n => marked (size + n)) limit := by
  induction limit with
  | zero =>
    cases size with
    | zero => exact absurd hsize (Nat.lt_irrefl 0)
    | succ size =>
      rw [Nat.add_zero, boundary_succ, h, if_pos rfl]
      rfl
  | succ n ih =>
    rw [← Nat.add_assoc, boundary_succ, boundary_succ, ← Nat.add_assoc]
    split
    · rfl
    · exact ih

theorem boundary_congr {marked' : ℕ → Bool} (h : ∀ n, 0 < n → n ≤ limit → marked n = marked' n) :
    boundary marked limit = boundary marked' limit := by
  induction limit with
  | zero => rfl
  | succ n ih =>
    have hrest := ih (fun m hm hle => h m hm (Nat.le_succ_of_le hle))
    rw [boundary_succ, boundary_succ, h (n + 1) (Nat.succ_pos n) (Nat.le_refl _), hrest]

/-- Whether a scalar starts at a position of the bytes. -/
def startsAt (bytes : Bytes) (n : ℕ) : Bool := (bytes[n]?.map fun b => !isContinuation b).getD false

theorem startsAt_append_right (front back : Bytes) (n : ℕ) :
    startsAt (front ++ back) (front.length + n) = startsAt back n := by
  rw [startsAt, List.getElem?_append_right (Nat.le_add_right _ _), Nat.add_sub_cancel_left, startsAt]

/-- Going back to the first byte of a scalar keeps the scalars that fit. -/
theorem boundary_startsAt (h : limit < byteLength cs) :
    boundary (startsAt (encodeUtf8 cs)) limit = byteLength (fitting limit cs) := by
  induction cs generalizing limit with
  | nil => exact absurd h (Nat.not_lt_zero limit)
  | cons c cs ih =>
    have hpos := length_utf8EncodeChar_pos c
    rw [encodeUtf8_cons]
    rcases Nat.lt_or_ge limit (utf8EncodeChar c).length with hc | hc
    · rw [fitting_cons_of_lt hc, byteLength_nil]
      apply boundary_of_unmarked
      intro n hn hle
      obtain ⟨lead, tail, hshape, -, htail⟩ := utf8EncodeChar_shape c
      rw [hshape, List.length_cons] at hc
      obtain ⟨m, rfl⟩ := Nat.exists_eq_succ_of_ne_zero (Nat.ne_of_gt hn)
      have hm : m < tail.length := by omega
      rw [startsAt, hshape, List.cons_append, Nat.succ_eq_add_one, List.getElem?_cons_succ,
        List.getElem?_append_left hm, List.getElem?_eq_getElem hm, Option.map_some,
        htail _ (List.getElem_mem hm)]
      rfl
    · rw [byteLength_cons] at h
      obtain ⟨rest, rfl⟩ := Nat.exists_eq_add_of_le hc
      have hrest : rest < byteLength cs := by omega
      have hfirst : startsAt (utf8EncodeChar c ++ encodeUtf8 cs)
          (utf8EncodeChar c).length = true := by
        have hzero := startsAt_append_right (utf8EncodeChar c) (encodeUtf8 cs) 0
        rw [Nat.add_zero] at hzero
        rw [hzero]
        cases cs with
        | nil => exact absurd hrest (Nat.not_lt_zero rest)
        | cons d ds =>
          obtain ⟨lead, tail, hshape, hlead, -⟩ := utf8EncodeChar_shape d
          rw [startsAt, encodeUtf8_cons, hshape, List.cons_append, List.getElem?_cons_zero,
            Option.map_some, hlead]
          rfl
      rw [boundary_add hpos hfirst, fitting_cons_of_le hc, byteLength_cons, Nat.add_sub_cancel_left,
        ← ih hrest]
      congr 1
      apply boundary_congr
      intro n _ _
      exact startsAt_append_right _ _ n

/-! ### Cut sequences -/

/-- The decoder after all bytes: what it has written, and its state. -/
def feedAll : Option Pending → Bytes → List Char × Option Pending
  | state, [] => ([], state)
  | state, b :: bs => ((feed state b).1 ++ (feedAll (feed state b).2 bs).1, (feedAll (feed state b).2 bs).2)

variable (state : Option Pending)

theorem decodeFrom_append (front back : Bytes) :
    decodeFrom state (front ++ back) =
      (feedAll state front).1 ++ decodeFrom (feedAll state front).2 back := by
  induction front generalizing state with
  | nil => rfl
  | cons b bs ih => rw [List.cons_append, decodeFrom_cons, ih, feedAll, List.append_assoc]

theorem start_written_or_pending (b : UInt8) : (start b).1 ≠ [] ∨ (start b).2 ≠ none := by
  unfold start
  dsimp only
  repeat' split
  all_goals simp

theorem feed_written_or_pending (b : UInt8) : (feed state b).1 ≠ [] ∨ (feed state b).2 ≠ none := by
  cases state with
  | none => exact start_written_or_pending b
  | some p =>
    rw [feed]
    split
    · dsimp only
      split
      · simp
      · simp
    · simp

theorem decodeFrom_pending_ne_nil {state : Option Pending} (h : state ≠ none) (bytes : Bytes) :
    decodeFrom state bytes ≠ [] := by
  induction bytes generalizing state with
  | nil =>
    cases state with
    | none => exact absurd rfl h
    | some p => exact List.cons_ne_nil _ _
  | cons b bs ih =>
    rw [decodeFrom_cons]
    rcases feed_written_or_pending state b with hwritten | hpending
    · exact List.append_ne_nil_of_left_ne_nil hwritten _
    · exact List.append_ne_nil_of_right_ne_nil _ (ih hpending)

theorem decodeFrom_ne_nil {bytes : Bytes} (h : bytes ≠ []) : decodeFrom state bytes ≠ [] := by
  cases bytes with
  | nil => exact absurd rfl h
  | cons b bs =>
    rw [decodeFrom_cons]
    rcases feed_written_or_pending state b with hwritten | hpending
    · exact List.append_ne_nil_of_left_ne_nil hwritten _
    · exact List.append_ne_nil_of_right_ne_nil _ (decodeFrom_pending_ne_nil hpending bs)

theorem decodeUtf8_encodeUtf8_append (cs : List Char) (bytes : Bytes) :
    decodeUtf8 (encodeUtf8 cs ++ bytes) = cs ++ decodeUtf8 bytes := by
  induction cs with
  | nil => rfl
  | cons c cs ih =>
    rw [encodeUtf8_cons, List.append_assoc, decodeUtf8, decodeFrom_encodeChar]
    rw [decodeUtf8] at ih
    rw [ih, List.cons_append]

section Cut

variable {c : Char} {k : ℕ}

/-- A part of a sequence is read as one replacement. -/
theorem decodeUtf8_cut (hk : k < (utf8EncodeChar c).length) (hpos : 0 < k) :
    decodeUtf8 ((utf8EncodeChar c).take k) = [replacement] := by
  have hfront : (utf8EncodeChar c).take k ≠ [] := by
    rw [ne_eq, List.take_eq_nil_iff]
    intro h
    rcases h with h | h
    · omega
    · rw [h] at hk
      exact absurd hk (Nat.not_lt_zero k)
  have hback : (utf8EncodeChar c).drop k ≠ [] := by
    rw [ne_eq, List.drop_eq_nil_iff]
    omega
  have hwhole := decodeFrom_append none ((utf8EncodeChar c).take k)
    ((utf8EncodeChar c).drop k)
  rw [List.take_append_drop] at hwhole
  have hone : decodeFrom none (utf8EncodeChar c) = [c] := by
    have hread := decodeFrom_encodeChar c []
    rwa [List.append_nil] at hread
  have hrest := decodeFrom_ne_nil
    (feedAll none ((utf8EncodeChar c).take k)).2 hback
  -- The one scalar is written behind the cut, so nothing is written before it.
  have hnothing : (feedAll none ((utf8EncodeChar c).take k)).1 = [] := by
    rw [hone] at hwhole
    cases hwritten : (feedAll none ((utf8EncodeChar c).take k)).1 with
    | nil => rfl
    | cons d ds =>
      rw [hwritten, List.cons_append] at hwhole
      have htail := (List.cons.inj hwhole).2
      exact absurd (List.append_eq_nil_iff.mp htail.symm).2 hrest
  have hcut := decodeFrom_append none ((utf8EncodeChar c).take k) []
  rw [List.append_nil, hnothing, List.nil_append] at hcut
  rw [decodeUtf8, hcut]
  cases hstate : (feedAll none ((utf8EncodeChar c).take k)).2 with
  | none =>
    rw [hstate] at hcut
    exact absurd hcut (decodeFrom_ne_nil none hfront)
  | some p => rfl

theorem decodeRune_cut (hk : k < (utf8EncodeChar c).length) :
    decodeRune ((utf8EncodeChar c).take k) = none := by
  by_cases hpos : 0 < k
  · rw [decodeRune, decodeUtf8_cut hk hpos]
    dsimp only [List.head?_cons]
    rw [if_neg]
    intro hwhole
    -- The cut bytes would be the encoding of the replacement character.
    have hcut : (utf8EncodeChar c).take k = utf8EncodeChar replacement := by
      have hdecode := decodeUtf8_cut hk hpos
      have hsplit := List.take_append_drop (utf8EncodeChar replacement).length
        ((utf8EncodeChar c).take k)
      rw [hwhole] at hsplit
      have hread := decodeFrom_encodeChar replacement
        (((utf8EncodeChar c).take k).drop (utf8EncodeChar replacement).length)
      rw [hsplit] at hread
      rw [decodeUtf8, hread] at hdecode
      have hnil : ((utf8EncodeChar c).take k).drop
          (utf8EncodeChar replacement).length = [] := by
        by_contra hne
        exact decodeFrom_ne_nil none hne (List.cons.inj hdecode).2
      rw [hnil, List.append_nil] at hsplit
      exact hsplit.symm
    have hread := decodeFrom_encodeChar replacement ((utf8EncodeChar c).drop k)
    rw [← hcut, List.take_append_drop] at hread
    have hone := decodeFrom_encodeChar c []
    rw [List.append_nil] at hone
    rw [hone] at hread
    have hback : (utf8EncodeChar c).drop k ≠ [] := by
      rw [ne_eq, List.drop_eq_nil_iff]
      omega
    exact decodeFrom_ne_nil none hback (List.cons.inj hread).2.symm
  · rw [Nat.eq_zero_of_not_pos hpos]
    rfl

end Cut

/-! ### Lengths of decoded bytes -/

theorem consumeFrom_le_wanted {lead : UInt8} {consumed : ℕ} (h : consumed ≤ wanted lead)
    (bs : Bytes) : consumeFrom lead consumed bs ≤ wanted lead := by
  induction bs generalizing consumed with
  | nil => exact h
  | cons b bs ih =>
    unfold consumeFrom
    split
    · rename_i hgo
      exact ih hgo.1
    · exact h

theorem wanted_le_or_four (lead : UInt8) :
    (1 ≤ wanted lead ∧ wanted lead ≤ 3) ∨ (0xF0 ≤ lead.toNat ∧ lead.toNat ≤ 0xF4) := by
  unfold wanted
  split
  · omega
  split
  · omega
  split
  · right
    assumption
  · omega

/-- An ill-formed sequence is at most as long as its replacement. -/
theorem consumeFrom_le_three {lead : UInt8} {rest : Bytes}
    (h : decodeRune (lead :: rest) = none) : consumeFrom lead 1 rest ≤ 3 := by
  rcases wanted_le_or_four lead with hwanted | hlead
  · exact Nat.le_trans (consumeFrom_le_wanted hwanted.1 rest) hwanted.2
  cases rest with
  | nil => exact (by decide : 1 ≤ 3)
  | cons b bs =>
    unfold consumeFrom
    split
    · rename_i hb
      cases bs with
      | nil => exact (by decide : 2 ≤ 3)
      | cons c cs =>
        unfold consumeFrom
        split
        · rename_i hc
          cases cs with
          | nil => exact Nat.le_refl 3
          | cons d ds =>
            unfold consumeFrom
            split
            · rename_i hd
              exact absurd h (decodeRune_four hlead hb.2 (continues_iff.mp hc.2).1
                (continues_iff.mp hd.2).1)
            · exact Nat.le_refl 3
        · exact (by decide : 2 ≤ 3)
    · exact (by decide : 1 ≤ 3)

/-- Decoding does not shorten. -/
theorem length_le_byteLength_decodeUtf8 (raw : Bytes) :
    raw.length ≤ byteLength (decodeUtf8 raw) := by
  induction raw using replacementUtf8.induct with
  | case1 => exact Nat.zero_le _
  | case2 lead rest size h ih =>
    obtain ⟨c, hraw, htake, hdecode⟩ := decodeUtf8_of_decodeRune h
    have hlength := congrArg List.length hraw
    rw [List.length_append] at hlength
    rw [hdecode, byteLength_cons]
    omega
  | case3 lead rest h ih =>
    have hdecode : decodeUtf8 (lead :: rest) =
        replacement :: decodeUtf8 ((lead :: rest).drop (consumeFrom lead 1 rest)) :=
      decodeFrom_of_decodeRune_none h
    have hconsumed := consumeFrom_le_three h
    have hthree : (utf8EncodeChar replacement).length = 3 := rfl
    rw [List.length_drop] at ih
    rw [hdecode, byteLength_cons]
    omega

/-- What the decoder writes before the end lacks at most one replacement. -/
theorem length_le_byteLength_feedAll (raw : Bytes) :
    raw.length ≤ byteLength (feedAll none raw).1 + 3 := by
  have hall := length_le_byteLength_decodeUtf8 raw
  have hsplit := decodeFrom_append none raw []
  rw [List.append_nil] at hsplit
  rw [decodeUtf8, hsplit, byteLength_append] at hall
  have hrest : byteLength (decodeFrom (feedAll none raw).2 []) ≤ 3 := by
    cases (feedAll none raw).2 with
    | none => exact Nat.zero_le _
    | some p => exact Nat.le_refl 3
  omega

/-! ### Valid starts -/

theorem decodeRune_nil : decodeRune [] = none := rfl

theorem length_drop_lt {raw : Bytes} {size : ℕ} (h : decodeRune raw = some size) :
    (raw.drop size).length < raw.length := by
  have hpos := pos_of_decodeRune h
  cases raw with
  | nil =>
    rw [decodeRune_nil] at h
    cases h
  | cons b bs =>
    rw [List.length_drop, List.length_cons]
    omega

/-- `Utf8Error::valid_up_to`: the bytes before the first ill-formed sequence. -/
def validUpTo (raw : Bytes) : ℕ :=
  match _h : decodeRune raw with
  | some size => size + validUpTo (raw.drop size)
  | none => 0
termination_by raw.length
decreasing_by exact length_drop_lt _h

theorem validUpTo_encodeChar (c : Char) (bytes : Bytes) :
    validUpTo (utf8EncodeChar c ++ bytes) =
      (utf8EncodeChar c).length + validUpTo bytes := by
  rw [validUpTo]
  split
  · rename_i size h
    rw [decodeRune_of_encoding] at h
    obtain rfl := Option.some.inj h
    rw [List.drop_left]
  · rename_i h
    rw [decodeRune_of_encoding] at h
    cases h

theorem validUpTo_encodeUtf8_append (cs : List Char) (bytes : Bytes) :
    validUpTo (encodeUtf8 cs ++ bytes) = byteLength cs + validUpTo bytes := by
  induction cs with
  | nil => exact (Nat.zero_add _).symm
  | cons c cs ih =>
    rw [encodeUtf8_cons, List.append_assoc, validUpTo_encodeChar, ih, byteLength_cons, Nat.add_assoc]

theorem validUpTo_cut {k : ℕ} (hk : k < (utf8EncodeChar c).length) :
    validUpTo ((utf8EncodeChar c).take k) = 0 := by
  rw [validUpTo]
  split
  · rename_i size h
    rw [decodeRune_cut hk] at h
    cases h
  · rfl

theorem validUpTo_encodeUtf8 (cs : List Char) : validUpTo (encodeUtf8 cs) = byteLength cs := by
  have hall := validUpTo_encodeUtf8_append cs []
  have hnil : validUpTo [] = 0 := by
    rw [validUpTo]
    split
    · rename_i size h
      rw [decodeRune_nil] at h
      cases h
    · rfl
  rwa [List.append_nil, hnil, Nat.add_zero] at hall

/-- The valid start of cut bytes holds the scalars that fit. -/
theorem validUpTo_take (h : limit < byteLength cs) :
    validUpTo ((encodeUtf8 cs).take limit) = byteLength (fitting limit cs) := by
  obtain ⟨c, k, hk, htake⟩ := take_encodeUtf8 h
  rw [htake, validUpTo_encodeUtf8_append, validUpTo_cut hk, Nat.add_zero]

/-! ### Ignoring ill-formed sequences -/

/-- Decode and leave out every ill-formed sequence. -/
def decodeIgnore (raw : Bytes) : List Char :=
  match raw with
  | [] => []
  | lead :: rest =>
    match _h : decodeRune (lead :: rest) with
    | some size => (decodeUtf8 ((lead :: rest).take size)) ++ decodeIgnore ((lead :: rest).drop size)
    | none => decodeIgnore ((lead :: rest).drop (consumeFrom lead 1 rest))
termination_by raw.length
decreasing_by
  · exact length_drop_lt _h
  · have := le_consumeFrom lead 1 rest
    simp only [List.length_drop, List.length_cons]
    omega

theorem decodeIgnore_encodeChar (c : Char) (bytes : Bytes) :
    decodeIgnore (utf8EncodeChar c ++ bytes) = c :: decodeIgnore bytes := by
  obtain ⟨lead, tail, hshape, -, -⟩ := utf8EncodeChar_shape c
  have hraw : utf8EncodeChar c ++ bytes = lead :: (tail ++ bytes) := by
    rw [hshape, List.cons_append]
  have hrune : decodeRune (utf8EncodeChar c ++ bytes) = some (utf8EncodeChar c).length :=
    decodeRune_of_encoding
  have hone : decodeUtf8 (utf8EncodeChar c) = [c] := by
    have hread := decodeFrom_encodeChar c []
    rwa [List.append_nil] at hread
  rw [hraw] at hrune
  rw [hraw, decodeIgnore]
  split
  · rename_i size h
    obtain rfl := Option.some.inj (hrune.symm.trans h)
    rw [← hraw, List.take_left, List.drop_left, hone]
    rfl
  · rename_i h
    rw [hrune] at h
    cases h

theorem decodeIgnore_encodeUtf8_append (cs : List Char) (bytes : Bytes) :
    decodeIgnore (encodeUtf8 cs ++ bytes) = cs ++ decodeIgnore bytes := by
  induction cs with
  | nil => rfl
  | cons c cs ih =>
    rw [encodeUtf8_cons, List.append_assoc, decodeIgnore_encodeChar, ih, List.cons_append]

theorem decodeIgnore_cut {k : ℕ} (hk : k < (utf8EncodeChar c).length) :
    decodeIgnore ((utf8EncodeChar c).take k) = [] := by
  have hrune := decodeRune_cut hk
  by_cases hpos : 0 < k
  · have hdecode := decodeUtf8_cut hk hpos
    generalize (utf8EncodeChar c).take k = cut at hrune hdecode
    cases cut with
    | nil => rw [decodeIgnore]
    | cons lead rest =>
      rw [decodeIgnore]
      split
      · rename_i size h
        rw [hrune] at h
        cases h
      · -- The whole part is one ill-formed sequence.
        rw [decodeUtf8, decodeFrom_of_decodeRune_none hrune] at hdecode
        have hnil : (lead :: rest).drop (consumeFrom lead 1 rest) = [] := by
          by_contra hne
          exact decodeFrom_ne_nil none hne (List.cons.inj hdecode).2
        rw [hnil, decodeIgnore]
  · rw [Nat.eq_zero_of_not_pos hpos, List.take_zero, decodeIgnore]

/-- Decoding cut bytes without their ill-formed end gives the scalars that fit. -/
theorem decodeIgnore_take (h : limit < byteLength cs) :
    decodeIgnore ((encodeUtf8 cs).take limit) = fitting limit cs := by
  obtain ⟨c, k, hk, htake⟩ := take_encodeUtf8 h
  rw [htake, decodeIgnore_encodeUtf8_append, decodeIgnore_cut hk, List.append_nil]

theorem take_byteLength_fitting (limit : ℕ) (cs : List Char) :
    (encodeUtf8 cs).take (byteLength (fitting limit cs)) = encodeUtf8 (fitting limit cs) := by
  obtain ⟨rest, hrest⟩ := fitting_isPrefix limit cs
  have hbytes : encodeUtf8 cs = encodeUtf8 (fitting limit cs) ++ encodeUtf8 rest := by
    rw [← encodeUtf8_append, hrest]
  rw [hbytes]
  exact List.take_left

end DialCache.Utf8Prefixes
