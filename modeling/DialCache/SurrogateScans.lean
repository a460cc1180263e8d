import DialCache.JsonGrammar

/-!
# Scans for unpaired surrogate escapes

Two scans of a JSON text reject the escapes that its decoder would silently replace. Both
walk over the bytes by index; an index out of range is a fault of the model. `Scans` says
what a scan does at each element of a literal, and both scans meet it.
-/

namespace DialCache.SurrogateScans

open JsonGrammar

inductive Fault
  | outOfRange
  deriving DecidableEq, Repr

variable (raw : Bytes)

def byteAt (i : ℕ) : Except Fault UInt8 :=
  match raw[i]? with
  | some b => .ok b
  | none => .error .outOfRange

def slice (start stop : ℕ) : Except Fault Bytes :=
  if start ≤ stop ∧ stop ≤ raw.length then .ok ((raw.drop start).take (stop - start))
  else .error .outOfRange

/-- The digits of `strconv.ParseUint` for base 16 and 16 bits, read from the left. -/
def parseDigits (n : ℕ) : Bytes → ℕ × Option String
  | [] => (n, none)
  | b :: bs =>
    match hexDigit b with
    | none => (0, some "invalid syntax")
    | some d =>
      if 0xFFFF < n * 16 + d then (0xFFFF, some "value out of range")
      else parseDigits (n * 16 + d) bs

def parseUint (digits : Bytes) : ℕ × Option String :=
  if digits = [] then (0, some "invalid syntax") else parseDigits 0 digits

/-- What the body of a scan loop does: it moves the index and goes on, or returns an error. -/
inductive Step (σ : Type)
  | next (skip : ℕ) (state : σ)
  | reject (error : String)

/-- A loop over the indices that leave more than `slack` bytes, with the increment of the
loop after each turn. -/
def scanLoop {σ : Type} (slack : ℕ) (turn : Bytes → ℕ → σ → Except Fault (Step σ))
    (raw : Bytes) (i : ℕ) (state : σ) : Except Fault (Option String) :=
  if i + slack < raw.length then
    match turn raw i state with
    | .error fault => .error fault
    | .ok (.reject error) => .ok (some error)
    | .ok (.next skip state) => scanLoop slack turn raw (i + skip + 1) state
  else .ok none
termination_by raw.length - i

def isHighUnit (u : ℕ) : Bool := 0xD800 ≤ u && u ≤ 0xDBFF

def isLowUnit (u : ℕ) : Bool := 0xDC00 ≤ u && u ≤ 0xDFFF

section Validate

def unpaired : String := "JSON string contains an unpaired UTF-16 surrogate"

/-- The two bytes that open an escape of a code unit. -/
def opensUnit (i : ℕ) : Except Fault Bool := do
  let b ← byteAt raw i
  if b ≠ backslash then return false
  else
    let c ← byteAt raw (i + 1)
    return c == 0x75

/-- What follows an escaped high surrogate whose last digit stands at `i`; the index moves by
11 from the start of that escape. -/
def validateLow (i : ℕ) (inString : Bool) : Except Fault (Step Bool) :=
  if raw.length ≤ i + 6 then return .reject unpaired
  else do
    let opens ← opensUnit raw (i + 1)
    if !opens then return .reject unpaired
    else
      let digits ← slice raw (i + 3) (i + 7)
      let low := parseUint digits
      if low.2.isSome || !isLowUnit low.1 then return .reject unpaired
      else return .next 11 inString

def validateTurn (i : ℕ) (inString : Bool) : Except Fault (Step Bool) := do
  let b ← byteAt raw i
  if b = quote then return .next 0 (!inString)
  else if !inString || b ≠ backslash then return .next 0 inString
  else
    let c ← byteAt raw (i + 1)
    if c ≠ 0x75 then return .next 1 inString
    else
      let digits ← slice raw (i + 2) (i + 6)
      let unit := (parseUint digits).1
      if isHighUnit unit then validateLow raw (i + 5) inString
      else if isLowUnit unit then return .reject unpaired
      else return .next 5 inString

/-- `validateJSONScalarStrings`. -/
def validateJsonScalarStrings : Except Fault (Option String) :=
  scanLoop 0 validateTurn raw 0 false

end Validate

section Identity

def isolatedHigh : String := "isolated high surrogate in identity"

def isolatedLow : String := "isolated low surrogate in identity"

/-- What follows an escaped high surrogate that starts at `i`. -/
def identityLow (i : ℕ) : Except Fault (Step Unit) :=
  if raw.length ≤ i + 11 then return .reject isolatedHigh
  else do
    let mark ← slice raw (i + 6) (i + 8)
    if mark ≠ [backslash, 0x75] then return .reject isolatedHigh
    else
      let digits ← slice raw (i + 8) (i + 12)
      let low := parseUint digits
      if low.2.isSome || !isLowUnit low.1 then return .reject isolatedHigh
      else return .next 11 ()

def identityUnit (i : ℕ) : ℕ × Option String → Except Fault (Step Unit)
  | (_, some error) => return .reject error
  | (unit, none) =>
    if isHighUnit unit then identityLow raw i
    else if isLowUnit unit then return .reject isolatedLow
    else return .next 5 ()

def identityTurn (i : ℕ) (_ : Unit) : Except Fault (Step Unit) := do
  let b ← byteAt raw i
  if b ≠ backslash then return .next 0 ()
  else
    let c ← byteAt raw (i + 1)
    if c = backslash then return .next 1 ()
    else if c ≠ 0x75 then return .next 0 ()
    else
      let digits ← slice raw (i + 2) (i + 6)
      identityUnit raw i (parseUint digits)

/-- The scan of `Identity.UnmarshalJSON`. -/
def identityScan : Except Fault (Option String) :=
  scanLoop 5 identityTurn raw 0 ()

end Identity

theorem ok_bind {α β : Type} (a : α) (f : α → Except Fault β) : (Except.ok a >>= f) = f a := rfl

/-! ### Positions and suffixes -/

section Shift

variable {front rest : Bytes}

theorem byteAt_shift (i : ℕ) : byteAt (front ++ rest) (front.length + i) = byteAt rest i := by
  rw [byteAt, byteAt, List.getElem?_append_right (Nat.le_add_right _ _), Nat.add_sub_cancel_left]

theorem slice_shift (start stop : ℕ) :
    slice (front ++ rest) (front.length + start) (front.length + stop) = slice rest start stop := by
  have hbounds : (front.length + start ≤ front.length + stop ∧
      front.length + stop ≤ (front ++ rest).length) ↔ (start ≤ stop ∧ stop ≤ rest.length) := by
    rw [List.length_append]
    omega
  have hdrop : (front ++ rest).drop (front.length + start) = rest.drop start := by
    rw [List.drop_append, List.drop_of_length_le (Nat.le_add_right _ _), List.nil_append,
      Nat.add_sub_cancel_left]
  rw [slice, slice, hdrop, Nat.add_sub_add_left]
  simp only [hbounds]

theorem length_shift (i : ℕ) : (front ++ rest).length ≤ front.length + i ↔ rest.length ≤ i := by
  rw [List.length_append]
  omega

theorem validateTurn_shift (i : ℕ) (inString : Bool) :
    validateTurn (front ++ rest) (front.length + i) inString = validateTurn rest i inString := by
  simp only [validateTurn, validateLow, opensUnit, Nat.add_assoc, byteAt_shift, slice_shift,
    length_shift]

theorem identityTurn_shift (i : ℕ) (state : Unit) :
    identityTurn (front ++ rest) (front.length + i) state = identityTurn rest i state := by
  have hunit : ∀ parsed, identityUnit (front ++ rest) (front.length + i) parsed =
      identityUnit rest i parsed := by
    intro parsed
    rcases parsed with ⟨unit, _ | error⟩
    · simp only [identityUnit, identityLow, Nat.add_assoc, slice_shift, length_shift]
    · rfl
  simp only [identityTurn, Nat.add_assoc, byteAt_shift, slice_shift, hunit]

/-- A loop whose turns read the suffix only continues on the suffix. -/
theorem scanLoop_shift {σ : Type} {slack : ℕ}
    {turn : Bytes → ℕ → σ → Except Fault (Step σ)}
    (hturn : ∀ i state, turn (front ++ rest) (front.length + i) state = turn rest i state) (i : ℕ)
    (state : σ) :
    scanLoop slack turn (front ++ rest) (front.length + i) state =
      scanLoop slack turn rest i state := by
  induction hn : rest.length - i using Nat.strongRecOn generalizing i state with
  | _ n ih =>
    rw [scanLoop, scanLoop.eq_def slack turn rest, hturn]
    by_cases hmore : i + slack < rest.length
    · rw [if_pos hmore, if_pos (by rw [List.length_append]; omega)]
      rcases turn rest i state with fault | ⟨skip, next⟩ | error
      · rfl
      · dsimp only
        rw [Nat.add_assoc, Nat.add_assoc, ih (rest.length - (i + (skip + 1))) (by omega) _ _ rfl,
          Nat.add_assoc]
      · rfl
    · rw [if_neg hmore, if_neg (by rw [List.length_append]; omega)]

end Shift

/-- The scan of a suffix. -/
def validateFrom (inString : Bool) (raw : Bytes) : Except Fault (Option String) :=
  scanLoop 0 validateTurn raw 0 inString

variable {inString : Bool}

theorem validateFrom_next (piece : Bytes) {rest : Bytes} {after : Bool} {skip : ℕ}
    (hpiece : piece.length = skip + 1)
    (hturn : validateTurn (piece ++ rest) 0 inString = .ok (.next skip after)) :
    validateFrom inString (piece ++ rest) = validateFrom after rest := by
  rw [validateFrom, scanLoop, if_pos (by rw [List.length_append]; omega), hturn]
  dsimp only
  rw [Nat.zero_add, ← hpiece]
  exact scanLoop_shift validateTurn_shift 0 after

theorem identityScan_next (piece : Bytes) {rest : Bytes} {skip : ℕ} (hpiece : piece.length = skip + 1)
    (hlong : 5 < (piece ++ rest).length)
    (hturn : identityTurn (piece ++ rest) 0 () = .ok (.next skip ())) :
    identityScan (piece ++ rest) = identityScan rest := by
  rw [identityScan, scanLoop, if_pos (by omega), hturn]
  dsimp only
  rw [Nat.zero_add, ← hpiece]
  exact scanLoop_shift identityTurn_shift 0 ()

variable {raw : Bytes}

theorem identityScan_short (h : raw.length ≤ 5) : identityScan raw = .ok none := by
  rw [identityScan, scanLoop, if_neg (by omega)]

/-- A byte that is no backslash is passed, also when the loop has ended before it. -/
theorem identityScan_byte {b : UInt8} (h : b ≠ backslash) (rest : Bytes) :
    identityScan (b :: rest) = identityScan rest := by
  by_cases hlong : 5 < (b :: rest).length
  · refine identityScan_next [b] rfl hlong ?_
    change (if b ≠ backslash then _ else _) = _
    rw [if_pos h]
    rfl
  · rw [List.length_cons] at hlong
    rw [identityScan_short (by rw [List.length_cons]; omega), identityScan_short (by omega)]

/-! ### Escapes -/

def unitValue (d₀ d₁ d₂ d₃ : HexDigit) : ℕ :=
  ((d₀.value * 16 + d₁.value) * 16 + d₂.value) * 16 + d₃.value

/-- Four digits are read as the code unit. -/
theorem parseUint_digits (d₀ d₁ d₂ d₃ : HexDigit) :
    parseUint [d₀.byte, d₁.byte, d₂.byte, d₃.byte] =
      (unitValue d₀ d₁ d₂ d₃, none) := by
  have h₀ := d₀.value_lt
  have h₁ := d₁.value_lt
  have h₂ := d₂.value_lt
  have h₃ := d₃.value_lt
  rw [parseUint, if_neg (List.cons_ne_nil _ _)]
  simp only [parseDigits, d₀.valid, d₁.valid, d₂.valid, d₃.valid]
  rw [if_neg (by omega), if_neg (by omega), if_neg (by omega), if_neg (by omega), Nat.zero_mul,
    Nat.zero_add]
  rfl

theorem isHighUnit_iff {u : ℕ} : isHighUnit u = true ↔ 0xD800 ≤ u ∧ u ≤ 0xDBFF := by
  simp [isHighUnit]

theorem isLowUnit_iff {u : ℕ} : isLowUnit u = true ↔ 0xDC00 ≤ u ∧ u ≤ 0xDFFF := by
  simp [isLowUnit]

/-- What a scan does with the suffixes of a text. -/
structure Scans (scan : Bool → Bytes → Except Fault (Option String)) : Prop where
  nil : scan false [] = .ok none
  outside : ∀ {b rest}, Outside b → scan false (b :: rest) = scan false rest
  opens : ∀ rest, scan false (quote :: rest) = scan true rest
  closes : ∀ rest, scan true (quote :: rest) = scan false rest
  passes : ∀ {e : Element} rest, ¬ e.IsHigh → ¬ e.IsLow → scan true (e.bytes ++ rest) = scan true rest
  low : ∀ {e : Element} rest, e.IsLow → ∃ text, scan true (e.bytes ++ rest) = .ok (some text)
  pair : ∀ {e f : Element} rest, e.IsHigh → f.IsLow →
    scan true (e.bytes ++ (f.bytes ++ rest)) = scan true rest
  high : ∀ {e f : Element} rest, e.IsHigh → ¬ f.IsLow →
    ∃ text, scan true (e.bytes ++ (f.bytes ++ rest)) = .ok (some text)
  last : ∀ {e : Element} rest, e.IsHigh → ∃ text, scan true (e.bytes ++ quote :: rest) = .ok (some text)

/-- The answer of a scan: an error if something is isolated, and else what is given. -/
def Answers (isolated : Prop) (answer otherwise : Except Fault (Option String)) : Prop :=
  (isolated ∧ ∃ text, answer = .ok (some text)) ∨ (¬ isolated ∧ answer = otherwise)

variable {e : Element}

section Generic

variable {scan : Bool → Bytes → Except Fault (Option String)}

theorem not_low_of_high (h : e.IsHigh) : ¬ e.IsLow := by
  obtain ⟨u, hu, hrange⟩ := h
  rintro ⟨v, hv, hrange'⟩
  rw [hu] at hv
  obtain rfl := Option.some.inj hv
  omega

variable {s : Literal}

theorem isolatedAt_zero : Literal.IsolatedAt (e :: s) 0 ↔
    (e.IsHigh ∧ ¬ ∃ f, s[0]? = some f ∧ f.IsLow) ∨ e.IsLow := by
  simp [Literal.IsolatedAt]

/-- The element before the first one matters to the first one only. -/
theorem isolatedAt_succ {k : ℕ} (h : e.IsHigh → 0 < k) :
    Literal.IsolatedAt (e :: s) (k + 1) ↔ s.IsolatedAt k := by
  have hbefore : (∃ j f, k + 1 = j + 1 ∧ (e :: s)[j]? = some f ∧ f.IsHigh) ↔
      ∃ j f, k = j + 1 ∧ s[j]? = some f ∧ f.IsHigh := by
    constructor
    · rintro ⟨j, f, hj, hf, hhigh⟩
      cases j with
      | zero =>
        obtain rfl := Option.some.inj hf
        exact absurd (h hhigh) (by omega)
      | succ j => exact ⟨j, f, by omega, hf, hhigh⟩
    · rintro ⟨j, f, rfl, hf, hhigh⟩
      exact ⟨j + 1, f, rfl, hf, hhigh⟩
  rw [Literal.IsolatedAt, Literal.IsolatedAt, hbefore, List.getElem?_cons_succ,
    List.getElem?_cons_succ]

/-- Behind a passed element a literal has the isolated escapes of the rest. -/
theorem isolated_cons (hhigh : ¬ e.IsHigh) (hlow : ¬ e.IsLow) :
    Literal.Isolated (e :: s) ↔ s.Isolated := by
  constructor
  · rintro ⟨k, hk⟩
    cases k with
    | zero =>
      rcases isolatedAt_zero.mp hk with hfirst | hfirst
      · exact absurd hfirst.1 hhigh
      · exact absurd hfirst hlow
    | succ k => exact ⟨k, (isolatedAt_succ fun h => absurd h hhigh).mp hk⟩
  · rintro ⟨k, hk⟩
    exact ⟨k + 1, (isolatedAt_succ fun h => absurd h hhigh).mpr hk⟩

theorem isolated_pair {f : Element} (he : e.IsHigh) (hf : f.IsLow) :
    Literal.Isolated (e :: f :: s) ↔ s.Isolated := by
  have hnot : ¬ f.IsHigh := fun h => not_low_of_high h hf
  have hshift : ∀ k, Literal.IsolatedAt (e :: f :: s) (k + 1 + 1) ↔ s.IsolatedAt k := by
    intro k
    rw [isolatedAt_succ fun _ => Nat.succ_pos k, isolatedAt_succ fun h => absurd h hnot]
  constructor
  · rintro ⟨k, hk⟩
    rcases k with _ | _ | k
    · rcases isolatedAt_zero.mp hk with hfirst | hfirst
      · exact absurd ⟨f, rfl, hf⟩ hfirst.2
      · exact absurd hfirst (not_low_of_high he)
    · rcases hk with ⟨g, hg, hhigh, -⟩ | ⟨g, hg, -, hbefore⟩
      · obtain rfl := Option.some.inj hg
        exact absurd hhigh hnot
      · exact absurd ⟨0, e, rfl, rfl, he⟩ hbefore
    · exact ⟨k, (hshift k).mp hk⟩
  · rintro ⟨k, hk⟩
    exact ⟨k + 1 + 1, (hshift k).mpr hk⟩

/-- The elements of a literal up to its closing quote. -/
theorem Scans.elements (h : Scans scan) (s : Literal) (rest : Bytes) :
    Answers s.Isolated (scan true (s.inner ++ quote :: rest)) (scan false rest) := by
  induction hn : s.length using Nat.strongRecOn generalizing s with
  | _ n ih =>
    cases s with
    | nil =>
      right
      refine ⟨?_, h.closes rest⟩
      rintro ⟨k, ⟨e, he, -⟩ | ⟨e, he, -⟩⟩ <;> cases he
    | cons e s =>
      have hinner : Literal.inner (e :: s) = e.bytes ++ Literal.inner s := rfl
      rw [hinner, List.append_assoc]
      rw [List.length_cons] at hn
      by_cases hlow : e.IsLow
      · exact Or.inl ⟨⟨0, isolatedAt_zero.mpr (Or.inr hlow)⟩, h.low _ hlow⟩
      by_cases hhigh : e.IsHigh
      · cases s with
        | nil =>
          refine Or.inl ⟨⟨0, isolatedAt_zero.mpr (Or.inl ⟨hhigh, ?_⟩)⟩, h.last rest hhigh⟩
          rintro ⟨f, hf, -⟩
          cases hf
        | cons f s =>
          have hinner' : Literal.inner (f :: s) = f.bytes ++ Literal.inner s := rfl
          rw [hinner', List.append_assoc]
          by_cases hnext : f.IsLow
          · rw [h.pair _ hhigh hnext, Answers, isolated_pair hhigh hnext]
            rw [List.length_cons] at hn
            exact ih s.length (by omega) s rfl
          · refine Or.inl ⟨⟨0, isolatedAt_zero.mpr (Or.inl ⟨hhigh, ?_⟩)⟩, h.high _ hhigh hnext⟩
            rintro ⟨g, hg, hglow⟩
            obtain rfl := Option.some.inj hg
            exact hnext hglow
      · rw [h.passes _ hhigh hlow, Answers, isolated_cons hhigh hlow]
        exact ih s.length (by omega) s rfl

theorem Scans.pieces (h : Scans scan) {found : List Literal} (hraw : Pieces raw found) :
    Answers (∃ s ∈ found, s.Isolated) (scan false raw) (.ok none) := by
  induction hraw with
  | nil => exact Or.inr ⟨by simp, h.nil⟩
  | outside hb _ ih => rwa [h.outside hb]
  | @literal s rest others htail ih =>
    have hbytes : s.bytes ++ rest = quote :: (s.inner ++ quote :: rest) := by
      rw [Literal.bytes, List.cons_append, List.append_assoc, List.singleton_append]
    rw [hbytes, h.opens, Answers, List.exists_mem_cons_iff]
    rcases h.elements s _ with ⟨hisolated, herror⟩ | ⟨hnone, hrest⟩
    · exact Or.inl ⟨Or.inl hisolated, herror⟩
    · rw [hrest]
      rcases ih with ⟨hisolated, herror⟩ | ⟨hnone', hok⟩
      · exact Or.inl ⟨Or.inr hisolated, herror⟩
      · exact Or.inr ⟨fun hor => hor.elim hnone hnone', hok⟩

end Generic

/-! ### Both scans -/

theorem validateFrom_reject {error : String} (h : raw ≠ [])
    (hturn : validateTurn raw 0 inString = .ok (.reject error)) :
    validateFrom inString raw = .ok (some error) := by
  have hpos := List.length_pos_iff.mpr h
  rw [validateFrom, scanLoop, if_pos (by omega), hturn]

theorem identityScan_reject {error : String} (h : 5 < raw.length)
    (hturn : identityTurn raw 0 () = .ok (.reject error)) :
    identityScan raw = .ok (some error) := by
  rw [identityScan, scanLoop, if_pos (by omega), hturn]

section Turns

variable (d₀ d₁ d₂ d₃ : HexDigit) {rest : Bytes}

theorem ne_unit_of_mem {b : UInt8} (h : b ∈ shortEscapes) : b ≠ 0x75 := by
  rintro rfl
  exact absurd h (by decide)

theorem slice_unit (rest : Bytes) : slice ((Element.unit d₀ d₁ d₂ d₃).bytes ++ rest) 2 6 =
    .ok [d₀.byte, d₁.byte, d₂.byte, d₃.byte] := by
  rw [slice, if_pos ⟨by omega, by simp [Element.bytes]⟩]
  rfl

theorem validateTurn_unit (rest : Bytes) : validateTurn ((Element.unit d₀ d₁ d₂ d₃).bytes ++ rest) 0 true =
    if isHighUnit (unitValue d₀ d₁ d₂ d₃) then
      validateLow ((Element.unit d₀ d₁ d₂ d₃).bytes ++ rest) 5 true
    else if isLowUnit (unitValue d₀ d₁ d₂ d₃) then
      .ok (.reject unpaired)
    else .ok (.next 5 true) := by
  have hturn : validateTurn ((Element.unit d₀ d₁ d₂ d₃).bytes ++ rest) 0 true =
      (slice ((Element.unit d₀ d₁ d₂ d₃).bytes ++ rest) 2 6 >>= fun digits =>
        if isHighUnit (parseUint digits).1 then
          validateLow ((Element.unit d₀ d₁ d₂ d₃).bytes ++ rest) 5 true
        else if isLowUnit (parseUint digits).1 then .ok (.reject unpaired)
        else .ok (.next 5 true)) := rfl
  rw [hturn, slice_unit]
  change (if isHighUnit (parseUint _).1 then _ else if isLowUnit (parseUint _).1 then _ else _) = _
  rw [parseUint_digits]

theorem identityTurn_unit (rest : Bytes) : identityTurn ((Element.unit d₀ d₁ d₂ d₃).bytes ++ rest) 0 () =
    if isHighUnit (unitValue d₀ d₁ d₂ d₃) then
      identityLow ((Element.unit d₀ d₁ d₂ d₃).bytes ++ rest) 0
    else if isLowUnit (unitValue d₀ d₁ d₂ d₃) then
      .ok (.reject isolatedLow)
    else .ok (.next 5 ()) := by
  have hturn : identityTurn ((Element.unit d₀ d₁ d₂ d₃).bytes ++ rest) 0 () =
      (slice ((Element.unit d₀ d₁ d₂ d₃).bytes ++ rest) 2 6 >>= fun digits =>
        identityUnit ((Element.unit d₀ d₁ d₂ d₃).bytes ++ rest) 0 (parseUint digits)) := rfl
  rw [hturn, slice_unit]
  change identityUnit _ 0 (parseUint _) = _
  rw [parseUint_digits]
  rfl

/-- The bytes behind an escape open no other one. -/
def NoUnit (rest : Bytes) : Prop :=
  ∃ b tail, rest = b :: tail ∧ (b ≠ backslash ∨ ∃ c tail', tail = c :: tail' ∧ c ≠ 0x75)

theorem validateLow_noUnit (h : NoUnit rest) :
    validateLow ((Element.unit d₀ d₁ d₂ d₃).bytes ++ rest) 5 true = .ok (.reject unpaired) := by
  rw [validateLow]
  split
  · rfl
  obtain ⟨b, tail, rfl, hb⟩ := h
  have hopens : opensUnit ((Element.unit d₀ d₁ d₂ d₃).bytes ++ b :: tail) 6 = .ok false := by
    change (if b ≠ backslash then _ else _) = _
    by_cases hescape : b = backslash
    · obtain ⟨c, tail', rfl, hc⟩ := hb.resolve_left (fun hne => hne hescape)
      rw [if_neg (fun hne => hne hescape)]
      change Except.ok (c == 0x75) = _
      rw [beq_eq_false_iff_ne.mpr hc]
    · rw [if_pos hescape]
      rfl
  rw [hopens]
  rfl

theorem identityLow_noUnit (h : NoUnit rest) :
    identityLow ((Element.unit d₀ d₁ d₂ d₃).bytes ++ rest) 0 = .ok (.reject isolatedHigh) := by
  rw [identityLow]
  split
  · rfl
  rename_i hlong
  obtain ⟨b, tail, rfl, hb⟩ := h
  cases tail with
  | nil => simp [Element.bytes] at hlong
  | cons c tail =>
    have hslice : slice ((Element.unit d₀ d₁ d₂ d₃).bytes ++ b :: c :: tail) 6 8 = .ok [b, c] := by
      rw [slice, if_pos ⟨by omega, by simp [Element.bytes]⟩]
      rfl
    have hmark : [b, c] ≠ [backslash, 0x75] := by
      intro hmark
      obtain ⟨rfl, hc⟩ := List.cons.inj hmark
      obtain ⟨rfl, -⟩ := List.cons.inj hc
      rcases hb with hb | ⟨c', tail', heq, hc'⟩
      · exact hb rfl
      · obtain ⟨rfl, -⟩ := List.cons.inj heq
        exact hc' rfl
    rw [hslice]
    change (if [b, c] ≠ [backslash, 0x75] then _ else _) = _
    rw [if_pos hmark]
    rfl

variable (e₀ e₁ e₂ e₃ : HexDigit)

theorem slice_nextUnit : slice ((Element.unit d₀ d₁ d₂ d₃).bytes ++
    ((Element.unit e₀ e₁ e₂ e₃).bytes ++ rest)) 8 12 =
      .ok [e₀.byte, e₁.byte, e₂.byte, e₃.byte] := by
  rw [slice, if_pos ⟨by omega, by simp [Element.bytes]⟩]
  rfl

theorem validateLow_unit :
    validateLow ((Element.unit d₀ d₁ d₂ d₃).bytes ++ ((Element.unit e₀ e₁ e₂ e₃).bytes ++ rest)) 5
        true =
      if isLowUnit (unitValue e₀ e₁ e₂ e₃) then
        .ok (.next 11 true)
      else .ok (.reject unpaired) := by
  have hopens : opensUnit ((Element.unit d₀ d₁ d₂ d₃).bytes ++
      ((Element.unit e₀ e₁ e₂ e₃).bytes ++ rest)) (5 + 1) = .ok true := rfl
  rw [validateLow, if_neg (by simp [Element.bytes]), hopens, ok_bind, if_neg (by decide),
    slice_nextUnit, ok_bind]
  dsimp only
  rw [parseUint_digits]
  cases isLowUnit (unitValue e₀ e₁ e₂ e₃) <;> rfl

theorem identityLow_unit :
    identityLow ((Element.unit d₀ d₁ d₂ d₃).bytes ++ ((Element.unit e₀ e₁ e₂ e₃).bytes ++ rest))
        0 =
      if isLowUnit (unitValue e₀ e₁ e₂ e₃) then
        .ok (.next 11 ())
      else .ok (.reject isolatedHigh) := by
  have hmark : slice ((Element.unit d₀ d₁ d₂ d₃).bytes ++
      ((Element.unit e₀ e₁ e₂ e₃).bytes ++ rest)) 6 8 = .ok [backslash, 0x75] := by
    rw [slice, if_pos ⟨by omega, by simp [Element.bytes]⟩]
    rfl
  rw [identityLow, if_neg (by simp [Element.bytes]), hmark, ok_bind, if_neg (fun hne => hne rfl),
    slice_nextUnit, ok_bind]
  dsimp only
  rw [parseUint_digits]
  cases isLowUnit (unitValue e₀ e₁ e₂ e₃) <;> rfl

end Turns

/-- An element that is no escaped low surrogate starts no such escape. -/
theorem noUnit_or_unit (e : Element) (rest : Bytes) :
    NoUnit (e.bytes ++ rest) ∨ ∃ d₀ d₁ d₂ d₃, e = .unit d₀ d₁ d₂ d₃ := by
  cases e with
  | plain b printable noQuote noEscape => exact Or.inl ⟨b, rest, rfl, Or.inl noEscape⟩
  | short b known =>
    exact Or.inl ⟨backslash, b :: rest, rfl, Or.inr ⟨b, rest, rfl, ne_unit_of_mem known⟩⟩
  | unit d₀ d₁ d₂ d₃ => exact Or.inr ⟨d₀, d₁, d₂, d₃, rfl⟩

theorem noUnit_quote (rest : Bytes) : NoUnit (quote :: rest) :=
  ⟨quote, rest, rfl, Or.inl (by decide)⟩

theorem unit_of_high (h : e.IsHigh) : ∃ d₀ d₁ d₂ d₃, e = .unit d₀ d₁ d₂ d₃ ∧
    isHighUnit (unitValue d₀ d₁ d₂ d₃) = true := by
  obtain ⟨u, hu, hrange⟩ := h
  cases e with
  | plain => cases hu
  | short => cases hu
  | unit d₀ d₁ d₂ d₃ =>
    obtain rfl := Option.some.inj hu
    exact ⟨d₀, d₁, d₂, d₃, rfl, isHighUnit_iff.mpr hrange⟩

theorem isLow_unit_iff {d₀ d₁ d₂ d₃ : HexDigit} : (Element.unit d₀ d₁ d₂ d₃).IsLow ↔
    isLowUnit (unitValue d₀ d₁ d₂ d₃) = true := by
  rw [isLowUnit_iff]
  constructor
  · rintro ⟨u, hu, hrange⟩
    obtain rfl := Option.some.inj hu
    exact hrange
  · intro hrange
    exact ⟨_, rfl, hrange⟩

theorem isHigh_unit_iff {d₀ d₁ d₂ d₃ : HexDigit} : (Element.unit d₀ d₁ d₂ d₃).IsHigh ↔
    isHighUnit (unitValue d₀ d₁ d₂ d₃) = true := by
  rw [isHighUnit_iff]
  constructor
  · rintro ⟨u, hu, hrange⟩
    obtain rfl := Option.some.inj hu
    exact hrange
  · intro hrange
    exact ⟨_, rfl, hrange⟩

theorem unit_of_low (h : e.IsLow) : ∃ d₀ d₁ d₂ d₃, e = .unit d₀ d₁ d₂ d₃ := by
  obtain ⟨u, hu, -⟩ := h
  cases e with
  | plain => cases hu
  | short => cases hu
  | unit d₀ d₁ d₂ d₃ => exact ⟨d₀, d₁, d₂, d₃, rfl⟩

theorem validateFrom_byte {b : UInt8} (h : Outside b) (rest : Bytes) :
    validateFrom inString (b :: rest) = validateFrom inString rest := by
  refine validateFrom_next [b] rfl ?_
  change (if b = quote then _ else if !inString || b ≠ backslash then _ else _) = _
  rw [if_neg h.1, if_pos (by simp [h.2])]
  rfl

theorem scans_validateFrom : Scans validateFrom where
  nil := by rw [validateFrom, scanLoop, if_neg (by decide)]
  outside h := validateFrom_byte h _
  opens rest := validateFrom_next [quote] rfl rfl
  closes rest := validateFrom_next [quote] rfl rfl
  passes := by
    intro e rest hhigh hlow
    cases e with
    | plain b printable noQuote noEscape => exact validateFrom_byte ⟨noQuote, noEscape⟩ rest
    | short b known =>
      refine validateFrom_next [backslash, b] rfl ?_
      change (if b ≠ 0x75 then _ else _) = _
      rw [if_pos (ne_unit_of_mem known)]
      rfl
    | unit d₀ d₁ d₂ d₃ =>
      refine validateFrom_next _ rfl ?_
      rw [isHigh_unit_iff] at hhigh
      rw [isLow_unit_iff] at hlow
      rw [validateTurn_unit, if_neg hhigh, if_neg hlow]
      rfl
  low := by
    intro e rest hlow
    obtain ⟨d₀, d₁, d₂, d₃, rfl⟩ := unit_of_low hlow
    have hhigh : ¬ (Element.unit d₀ d₁ d₂ d₃).IsHigh := fun h => not_low_of_high h hlow
    rw [isHigh_unit_iff] at hhigh
    rw [isLow_unit_iff] at hlow
    refine ⟨unpaired, validateFrom_reject (List.cons_ne_nil _ _) ?_⟩
    rw [validateTurn_unit, if_neg hhigh, if_pos hlow]
  pair := by
    intro e f rest hhigh hlow
    obtain ⟨d₀, d₁, d₂, d₃, rfl, hunit⟩ := unit_of_high hhigh
    obtain ⟨e₀, e₁, e₂, e₃, rfl⟩ := unit_of_low hlow
    rw [isLow_unit_iff] at hlow
    have hturn := validateTurn_unit d₀ d₁ d₂ d₃ ((Element.unit e₀ e₁ e₂ e₃).bytes ++ rest)
    rw [if_pos hunit, validateLow_unit, if_pos hlow, ← List.append_assoc] at hturn
    rw [← List.append_assoc]
    exact validateFrom_next _ rfl hturn
  high := by
    intro e f rest hhigh hnot
    obtain ⟨d₀, d₁, d₂, d₃, rfl, hunit⟩ := unit_of_high hhigh
    refine ⟨unpaired, validateFrom_reject (List.cons_ne_nil _ _) ?_⟩
    rw [validateTurn_unit, if_pos hunit]
    rcases noUnit_or_unit f rest with hnone | ⟨e₀, e₁, e₂, e₃, rfl⟩
    · exact validateLow_noUnit d₀ d₁ d₂ d₃ hnone
    · rw [isLow_unit_iff] at hnot
      rw [validateLow_unit, if_neg hnot]
  last := by
    intro e rest hhigh
    obtain ⟨d₀, d₁, d₂, d₃, rfl, hunit⟩ := unit_of_high hhigh
    refine ⟨unpaired, validateFrom_reject (List.cons_ne_nil _ _) ?_⟩
    rw [validateTurn_unit, if_pos hunit, validateLow_noUnit d₀ d₁ d₂ d₃ (noUnit_quote rest)]

theorem length_unit (d₀ d₁ d₂ d₃ : HexDigit) (rest : Bytes) :
    5 < ((Element.unit d₀ d₁ d₂ d₃).bytes ++ rest).length := by
  simp [Element.bytes]

theorem scans_identityScan : Scans fun _ => identityScan where
  nil := identityScan_short (Nat.zero_le 5)
  outside h := identityScan_byte h.2 _
  opens := identityScan_byte (by decide)
  closes := identityScan_byte (by decide)
  passes := by
    intro e rest hhigh hlow
    cases e with
    | plain b printable noQuote noEscape => exact identityScan_byte noEscape rest
    | short b known =>
      by_cases hescape : b = backslash
      · subst hescape
        by_cases hlong : 5 < ([backslash, backslash] ++ rest).length
        · exact identityScan_next [backslash, backslash] rfl hlong rfl
        · have hshort : ([backslash, backslash] ++ rest).length ≤ 5 := by omega
          have hrest : rest.length ≤ 5 := by
            rw [List.length_append] at hshort
            omega
          change identityScan ([backslash, backslash] ++ rest) = _
          rw [identityScan_short hshort, identityScan_short hrest]
      · -- the escaped byte is read again as a byte of its own
        change identityScan ([backslash] ++ b :: rest) = _
        rw [← identityScan_byte hescape rest]
        by_cases hlong : 5 < ([backslash] ++ b :: rest).length
        · refine identityScan_next [backslash] rfl hlong ?_
          change (if b = backslash then _ else if b ≠ 0x75 then _ else _) = _
          rw [if_neg hescape, if_pos (ne_unit_of_mem known)]
          rfl
        · have hshort : ([backslash] ++ b :: rest).length ≤ 5 := by omega
          have hrest : (b :: rest).length ≤ 5 := by
            rw [List.length_append] at hshort
            omega
          rw [identityScan_short hshort, identityScan_short hrest]
    | unit d₀ d₁ d₂ d₃ =>
      refine identityScan_next _ rfl (length_unit d₀ d₁ d₂ d₃ rest) ?_
      rw [isHigh_unit_iff] at hhigh
      rw [isLow_unit_iff] at hlow
      rw [identityTurn_unit, if_neg hhigh, if_neg hlow]
      rfl
  low := by
    intro e rest hlow
    obtain ⟨d₀, d₁, d₂, d₃, rfl⟩ := unit_of_low hlow
    have hhigh : ¬ (Element.unit d₀ d₁ d₂ d₃).IsHigh := fun h => not_low_of_high h hlow
    rw [isHigh_unit_iff] at hhigh
    rw [isLow_unit_iff] at hlow
    refine ⟨isolatedLow, identityScan_reject (length_unit d₀ d₁ d₂ d₃ _) ?_⟩
    rw [identityTurn_unit, if_neg hhigh, if_pos hlow]
  pair := by
    intro e f rest hhigh hlow
    obtain ⟨d₀, d₁, d₂, d₃, rfl, hunit⟩ := unit_of_high hhigh
    obtain ⟨e₀, e₁, e₂, e₃, rfl⟩ := unit_of_low hlow
    rw [isLow_unit_iff] at hlow
    have hturn := identityTurn_unit d₀ d₁ d₂ d₃ ((Element.unit e₀ e₁ e₂ e₃).bytes ++ rest)
    rw [if_pos hunit, identityLow_unit, if_pos hlow, ← List.append_assoc] at hturn
    rw [← List.append_assoc]
    exact identityScan_next _ rfl (by simp [Element.bytes]) hturn
  high := by
    intro e f rest hhigh hnot
    obtain ⟨d₀, d₁, d₂, d₃, rfl, hunit⟩ := unit_of_high hhigh
    refine ⟨isolatedHigh, identityScan_reject (length_unit d₀ d₁ d₂ d₃ _) ?_⟩
    rw [identityTurn_unit, if_pos hunit]
    rcases noUnit_or_unit f rest with hnone | ⟨e₀, e₁, e₂, e₃, rfl⟩
    · exact identityLow_noUnit d₀ d₁ d₂ d₃ hnone
    · rw [isLow_unit_iff] at hnot
      rw [identityLow_unit, if_neg hnot]
  last := by
    intro e rest hhigh
    obtain ⟨d₀, d₁, d₂, d₃, rfl, hunit⟩ := unit_of_high hhigh
    refine ⟨isolatedHigh, identityScan_reject (length_unit d₀ d₁ d₂ d₃ _) ?_⟩
    rw [identityTurn_unit, if_pos hunit, identityLow_noUnit d₀ d₁ d₂ d₃ (noUnit_quote rest)]

/-- A scan of a JSON text runs without a fault and rejects exactly the isolated escapes. -/
theorem Scans.exact {scan : Bool → Bytes → Except Fault (Option String)} (h : Scans scan)
    {found : List Literal} (hraw : IsText raw found) :
    ∃ answer, scan false raw = .ok answer ∧
      (answer.isSome = true ↔ ∃ s ∈ found, s.Isolated) := by
  rcases h.pieces (pieces_of_isText hraw) with ⟨hisolated, text, htext⟩ | ⟨hnone, hok⟩
  · exact ⟨some text, htext, iff_of_true rfl hisolated⟩
  · exact ⟨none, hok, iff_of_false Bool.false_ne_true hnone⟩

/-- Both scans of a JSON text stay in range and return an error exactly when one of its
literals has an isolated surrogate escape. -/
theorem surrogate_scans_agree {raw : List UInt8} {found : List Literal} (h : IsText raw found) :
    ∃ validated scanned, validateJsonScalarStrings raw = .ok validated ∧
      identityScan raw = .ok scanned ∧
      (validated.isSome = true ↔ ∃ s ∈ found, s.Isolated) ∧
      (scanned.isSome = true ↔ ∃ s ∈ found, s.Isolated) := by
  obtain ⟨validated, hvalidate, hvalidated⟩ := scans_validateFrom.exact h
  obtain ⟨scanned, hscan, hscanned⟩ := scans_identityScan.exact h
  exact ⟨validated, scanned, hvalidate, hscan, hvalidated, hscanned⟩

/-- The literal of one escaped high surrogate, `"\\ud800"`. -/
def loneHigh : Literal := [.unit ⟨0x64, 13, rfl⟩ ⟨0x38, 8, rfl⟩ ⟨0x30, 0, rfl⟩ ⟨0x30, 0, rfl⟩]

theorem isText_loneHigh :
    IsText [0x22, 0x5C, 0x75, 0x64, 0x38, 0x30, 0x30, 0x22] [loneHigh] :=
  ⟨[], loneHigh.bytes, [], rfl, List.forall_mem_nil _, List.forall_mem_nil _, .string loneHigh⟩

theorem surrogate_scans_agree_loneHigh :
    IsText [0x22, 0x5C, 0x75, 0x64, 0x38, 0x30, 0x30, 0x22] [loneHigh] ∧
      ∃ validated scanned,
        validateJsonScalarStrings [0x22, 0x5C, 0x75, 0x64, 0x38, 0x30, 0x30, 0x22] = .ok validated ∧
        identityScan [0x22, 0x5C, 0x75, 0x64, 0x38, 0x30, 0x30, 0x22] = .ok scanned ∧
        (validated.isSome = true ↔ ∃ s ∈ [loneHigh], s.Isolated) ∧
        (scanned.isSome = true ↔ ∃ s ∈ [loneHigh], s.Isolated) :=
  ⟨isText_loneHigh, surrogate_scans_agree isText_loneHigh⟩

end DialCache.SurrogateScans
