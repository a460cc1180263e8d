import DialCache.JsonGrammar
import DialCache.JsonTrees
import DialCache.UnicodeText

/-!
# Writing and reading JSON texts

`text` writes a tree without spaces and with the escapes of ECMAScript. `readValue` reads one
value by recursive descent, to a bounded depth of arrays and objects; numbers stay as they are
spelled. What was written is read back.
-/

namespace DialCache.JsonReaders

open JsonGrammar JsonTrees UnicodeText

/-- A tree with its numbers as they are spelled. -/
abbrev Tree := Json Bytes Bytes

/-! ### Writing -/

def commaJoin {α : Type} (comma : α) : List (List α) → List α
  | [] => []
  | [part] => part
  | part :: parts => part ++ comma :: commaJoin comma parts

theorem commaJoin_cons {α : Type} (comma : α) (part next : List α) (parts : List (List α)) :
    commaJoin comma (part :: next :: parts) = part ++ comma :: commaJoin comma (next :: parts) := rfl

/-- The lower-case hexadecimal digit of a value. -/
def HexDigit.ofNat (n : ℕ) (h : n < 16) : HexDigit :=
  if hn : n < 10 then
    ⟨UInt8.ofNat (0x30 + n), n, by
      rw [hexDigit, toNat_byte (by omega), if_pos (by omega), Nat.add_sub_cancel_left]⟩
  else
    ⟨UInt8.ofNat (0x61 + (n - 10)), n, by
      rw [hexDigit, toNat_byte (by omega), if_neg (by omega), if_pos (by omega)]
      exact congrArg some (by omega)⟩

/-- The short escapes that are written, with what they stand for. -/
def shortOf (b : UInt8) : Option UInt8 :=
  if b = quote then some quote
  else if b = backslash then some backslash
  else if b = 0x08 then some 0x62
  else if b = 0x0C then some 0x66
  else if b = 0x0A then some 0x6E
  else if b = 0x0D then some 0x72
  else if b = 0x09 then some 0x74
  else none

/-- What the byte behind the backslash of a short escape stands for. -/
def shortValue (e : UInt8) : Option UInt8 :=
  if e = quote then some quote
  else if e = backslash then some backslash
  else if e = 0x2F then some 0x2F
  else if e = 0x62 then some 0x08
  else if e = 0x66 then some 0x0C
  else if e = 0x6E then some 0x0A
  else if e = 0x72 then some 0x0D
  else if e = 0x74 then some 0x09
  else none

variable {b : UInt8}

theorem shortValue_shortOf {e : UInt8} (h : shortOf b = some e) :
    shortValue e = some b ∧ e ∈ shortEscapes := by
  rw [shortOf] at h
  repeat' split at h
  all_goals first
    | cases h
      subst b
      decide
    | cases h

/-- How a byte of a string is written. -/
def element (b : UInt8) : Element :=
  match h : shortOf b with
  | some e => .short e (shortValue_shortOf h).2
  | none =>
    if hb : b.toNat < 0x20 then
      .unit (HexDigit.ofNat 0 (by decide)) (HexDigit.ofNat 0 (by decide))
        (HexDigit.ofNat (b.toNat / 16) (by omega)) (HexDigit.ofNat (b.toNat % 16) (by omega))
    else .plain b (by omega) (by rintro rfl; cases h) (by rintro rfl; cases h)

def literal (s : Bytes) : Literal := s.map element

def word : Option Bool → Bytes
  | none => [0x6E, 0x75, 0x6C, 0x6C]
  | some true => [0x74, 0x72, 0x75, 0x65]
  | some false => [0x66, 0x61, 0x6C, 0x73, 0x65]

def text : Tree → Bytes
  | .null => word none
  | .bool value => word (some value)
  | .number spelling => spelling
  | .string value => (literal value).bytes
  | .array items => 0x5B :: (commaJoin 0x2C (items.map text) ++ [0x5D])
  | .object members =>
    0x7B :: (commaJoin 0x2C
      (members.map fun member => (literal member.1).bytes ++ 0x3A :: text member.2) ++ [0x7D])
termination_by value => sizeOf value
decreasing_by
  · exact Json.sizeOf_item ‹_›
  · exact Json.sizeOf_member ‹_›

/-! ### Reading -/

def isSpace (b : UInt8) : Bool := b == 0x20 || b == 0x09 || b == 0x0A || b == 0x0D

def skipSpace (bytes : Bytes) : Bytes := bytes.dropWhile isSpace

def isDigit (b : UInt8) : Bool := 0x30 ≤ b.toNat && b.toNat ≤ 0x39

/-- The bytes that a number is made of. -/
def isNumberByte (b : UInt8) : Bool :=
  isDigit b || b == 0x2D || b == 0x2B || b == 0x2E || b == 0x65 || b == 0x45

def dropSign : Bytes → Bytes
  | b :: rest => if b = 0x2B ∨ b = 0x2D then rest else b :: rest
  | [] => []

def validExponent : Bytes → Bool
  | [] => true
  | e :: rest => (e == 0x65 || e == 0x45) && !(dropSign rest).isEmpty && (dropSign rest).all isDigit

def validFraction : Bytes → Bool
  | 0x2E :: b :: rest => isDigit b && validExponent (rest.dropWhile isDigit)
  | rest => validExponent rest

def validWhole : Bytes → Bool
  | [] => false
  | b :: rest =>
    if b = 0x30 then validFraction rest
    else isDigit b && validFraction (rest.dropWhile isDigit)

def validNumber : Bytes → Bool
  | b :: rest => if b = 0x2D then validWhole rest else validWhole (b :: rest)
  | [] => false

def unitValue (d₀ d₁ d₂ d₃ : UInt8) : Option ℕ := do
  let v₀ ← hexDigit d₀
  let v₁ ← hexDigit d₁
  let v₂ ← hexDigit d₂
  let v₃ ← hexDigit d₃
  return ((v₀ * 16 + v₁) * 16 + v₂) * 16 + v₃

/-- The code unit of an escape `\uXXXX` at the front, and what is behind it. -/
def readUnit : Bytes → Option (ℕ × Bytes)
  | b :: c :: d₀ :: d₁ :: d₂ :: d₃ :: rest =>
    if b = backslash ∧ c = 0x75 then (unitValue d₀ d₁ d₂ d₃).map fun u => (u, rest) else none
  | _ => none

/-- The front of a string up to the next byte or escape. An escaped surrogate without its other
half is read as U+FFFD. -/
def readPart : Bytes → Option (Bytes × Bytes)
  | [] => none
  | b :: rest =>
    if b = backslash then
      match readUnit (b :: rest) with
      | some (u, behind) =>
        if 0xD800 ≤ u ∧ u ≤ 0xDFFF then
          match readUnit behind with
          | some (low, behind') =>
            if u ≤ 0xDBFF ∧ 0xDC00 ≤ low ∧ low ≤ 0xDFFF then
              some (encodeUtf8 [Char.ofNat (0x10000 + (u - 0xD800) * 0x400 + (low - 0xDC00))], behind')
            else some (encodeUtf8 [replacement], behind)
          | none => some (encodeUtf8 [replacement], behind)
        else some (encodeUtf8 [Char.ofNat u], behind)
      | none =>
        match rest with
        | [] => none
        | e :: behind => (shortValue e).map fun value => ([value], behind)
    else if b.toNat < 0x20 then none
    else some ([b], rest)

/-- A string behind its opening quote, and the bytes behind its closing one. -/
def readString : ℕ → Bytes → Option (Bytes × Bytes)
  | 0, _ => none
  | fuel + 1, bytes =>
    if bytes.head? = some quote then some ([], bytes.tail)
    else do
      let (front, behind) ← readPart bytes
      let (value, rest) ← readString fuel behind
      return (front ++ value, rest)

def readNumber (bytes : Bytes) : Option (Tree × Bytes) :=
  let spelling := bytes.takeWhile isNumberByte
  if validNumber spelling then some (.number spelling, bytes.dropWhile isNumberByte) else none

def readWord (value : Tree) (expected bytes : Bytes) : Option (Tree × Bytes) :=
  if expected.isPrefixOf bytes then some (value, bytes.drop expected.length) else none

/-- Parts with commas between them, up to the closing byte. -/
def readParts {α : Type} (read : Bytes → Option (α × Bytes)) (close : UInt8) :
    ℕ → Bytes → Option (List α × Bytes)
  | 0, _ => none
  | fuel + 1, bytes => do
    let (part, behind) ← read bytes
    match skipSpace behind with
    | [] => none
    | b :: rest =>
      if b = close then return ([part], rest)
      else if b = 0x2C then
        let (parts, rest') ← readParts read close fuel rest
        return (part :: parts, rest')
      else none

/-- The parts of an array or an object behind its opening byte. -/
def readList {α : Type} (read : Bytes → Option (α × Bytes)) (close : UInt8)
    (bytes : Bytes) : Option (List α × Bytes) :=
  if (skipSpace bytes).head? = some close then some ([], (skipSpace bytes).tail)
  else readParts read close bytes.length bytes

def readMember (read : Bytes → Option (Tree × Bytes)) (bytes : Bytes) :
    Option ((Bytes × Tree) × Bytes) :=
  match skipSpace bytes with
  | [] => none
  | b :: rest =>
    if b = quote then do
      let (name, behind) ← readString rest.length rest
      match skipSpace behind with
      | [] => none
      | c :: rest' =>
        if c = 0x3A then
          let (value, rest'') ← read rest'
          return ((name, value), rest'')
        else none
    else none

/-- One value, of arrays and objects nested to the given depth. -/
def readValue : ℕ → Bytes → Option (Tree × Bytes)
  | depth, bytes =>
    match skipSpace bytes with
    | [] => none
    | b :: rest =>
      if b = quote then (readString rest.length rest).map fun p => (.string p.1, p.2)
      else if b = 0x5B then
        match depth with
        | 0 => none
        | depth + 1 => (readList (readValue depth) 0x5D rest).map fun p => (.array p.1, p.2)
      else if b = 0x7B then
        match depth with
        | 0 => none
        | depth + 1 =>
          (readList (readMember (readValue depth)) 0x7D rest).map fun p => (.object p.1, p.2)
      else if b = 0x6E then readWord .null (word none) (b :: rest)
      else if b = 0x74 then readWord (.bool true) (word (some true)) (b :: rest)
      else if b = 0x66 then readWord (.bool false) (word (some false)) (b :: rest)
      else readNumber (b :: rest)

/-! ### Strings -/

theorem readUnit_short {e : UInt8} (h : e ≠ 0x75) (rest : Bytes) :
    readUnit (backslash :: e :: rest) = none := by
  match rest with
  | _ :: _ :: _ :: _ :: _ => exact if_neg fun hand => h hand.2
  | [] | [_] | [_, _] | [_, _, _] => rfl

theorem readUnit_unit (d₀ d₁ d₂ d₃ : HexDigit) (rest : Bytes) :
    readUnit ((Element.unit d₀ d₁ d₂ d₃).bytes ++ rest) =
      some (((d₀.value * 16 + d₁.value) * 16 + d₂.value) * 16 + d₃.value, rest) := by
  have hvalue : unitValue d₀.byte d₁.byte d₂.byte d₃.byte =
      some (((d₀.value * 16 + d₁.value) * 16 + d₂.value) * 16 + d₃.value) := by
    simp only [unitValue, d₀.valid, d₁.valid, d₂.valid, d₃.valid, Option.bind_eq_bind,
      Option.bind_some, Option.pure_def]
  change (if backslash = backslash ∧ (0x75 : UInt8) = 0x75 then
    (unitValue d₀.byte d₁.byte d₂.byte d₃.byte).map fun u => (u, rest) else none) = _
  rw [if_pos ⟨rfl, rfl⟩, hvalue]
  rfl

theorem value_ofNat (n : ℕ) (h : n < 16) : (HexDigit.ofNat n h).value = n := by
  rw [HexDigit.ofNat]
  split <;> rfl

theorem encodeUtf8_byte (h : b.toNat < 0x20) : encodeUtf8 [Char.ofNat b.toNat] = [b] := by
  have hall : ∀ n < 0x20, encodeUtf8 [Char.ofNat n] = [UInt8.ofNat n] := by decide
  rw [hall b.toNat h, UInt8.ofNat_toNat]

theorem readPart_element (b : UInt8) (rest : Bytes) :
    readPart ((element b).bytes ++ rest) = some ([b], rest) := by
  rw [element]
  split
  next e h =>
    obtain ⟨hvalue, hmem⟩ := shortValue_shortOf h
    have hne : e ≠ 0x75 := by
      rintro rfl
      revert hmem
      decide
    change readPart (backslash :: e :: rest) = _
    rw [readPart, if_pos rfl, readUnit_short hne]
    dsimp only
    rw [hvalue]
    rfl
  next h =>
    split
    next hlow =>
      generalize hunit : Element.unit _ _ _ _ = e
      have hread := readUnit_unit (HexDigit.ofNat 0 (by decide)) (HexDigit.ofNat 0 (by decide))
        (HexDigit.ofNat (b.toNat / 16) (by omega)) (HexDigit.ofNat (b.toNat % 16) (by omega)) rest
      rw [hunit] at hread
      simp only [value_ofNat] at hread
      have hbytes : e.bytes ++ rest = backslash :: (e.bytes ++ rest).tail := by
        rw [← hunit]
        rfl
      rw [hbytes] at hread ⊢
      have hcode : ((0 * 16 + 0) * 16 + b.toNat / 16) * 16 + b.toNat % 16 = b.toNat := by omega
      rw [readPart.eq_def]
      dsimp only
      rw [if_pos rfl, hread, hcode]
      dsimp only
      rw [if_neg (by omega), encodeUtf8_byte hlow]
    next hhigh =>
      have hne : b ≠ backslash := by
        rintro rfl
        cases h
      change readPart (b :: rest) = _
      rw [readPart.eq_def]
      dsimp only
      rw [if_neg hne, if_neg hhigh]

theorem head_element (b : UInt8) : ∃ c tail, (element b).bytes = c :: tail ∧ c ≠ quote := by
  rw [element]
  split
  · exact ⟨_, _, rfl, by decide⟩
  next h =>
    split
    · exact ⟨_, _, rfl, by decide⟩
    · refine ⟨b, [], rfl, ?_⟩
      rintro rfl
      cases h

theorem readString_literal (s : Bytes) {fuel : ℕ} (hfuel : s.length < fuel)
    (rest : Bytes) : readString fuel ((literal s).inner ++ quote :: rest) = some (s, rest) := by
  induction s generalizing fuel with
  | nil =>
    cases fuel with
    | zero => exact absurd hfuel (Nat.not_lt_zero _)
    | succ fuel => rfl
  | cons b s ih =>
    cases fuel with
    | zero => exact absurd hfuel (Nat.not_lt_zero _)
    | succ fuel =>
      have hinner : (literal (b :: s)).inner ++ quote :: rest =
          (element b).bytes ++ ((literal s).inner ++ quote :: rest) := by
        rw [literal, List.map_cons, Literal.inner, List.flatMap_cons, List.append_assoc]
        rfl
      obtain ⟨c, tail, hhead, hne⟩ := head_element b
      have hnot : ((element b).bytes ++ ((literal s).inner ++ quote :: rest)).head? ≠ some quote := by
        rw [hhead]
        exact fun heq => hne (Option.some.inj heq)
      rw [hinner, readString, if_neg hnot, readPart_element]
      have htail : readString fuel ((literal s).inner ++ quote :: rest) = some (s, rest) :=
        ih (Nat.lt_of_succ_lt_succ hfuel)
      simp only [Option.bind_eq_bind, Option.bind_some, htail]
      rfl

theorem length_le_inner (s : Bytes) : s.length ≤ (literal s).inner.length := by
  induction s with
  | nil => exact Nat.le_refl _
  | cons b s ih =>
    obtain ⟨c, tail, hhead, -⟩ := head_element b
    rw [literal, Literal.inner] at ih ⊢
    rw [List.map_cons, List.flatMap_cons, hhead, List.length_append, List.length_cons,
      List.length_cons]
    omega

/-- A written string is read back, whatever is behind it. -/
theorem readString_bytes (s rest : Bytes) :
    readString ((literal s).inner ++ quote :: rest).length ((literal s).inner ++ quote :: rest) =
      some (s, rest) := by
  apply readString_literal
  have hle := length_le_inner s
  rw [List.length_append, List.length_cons]
  omega

/-! ### Numbers -/

theorem isDigit_of_range (h : 0x30 ≤ b.toNat ∧ b.toNat ≤ 0x39) : isDigit b = true := by
  rw [isDigit, Bool.and_eq_true, decide_eq_true_eq, decide_eq_true_eq]
  exact h

theorem all_isDigit {ds : Bytes} (h : IsDigits ds) : ∀ b ∈ ds, isDigit b = true :=
  fun b hb => isDigit_of_range (h.2 b hb)

variable {rest : Bytes}

theorem dropWhile_digits {ds : Bytes} (h : ∀ b ∈ ds, isDigit b = true)
    (hrest : ∀ b, rest.head? = some b → isDigit b = false) :
    (ds ++ rest).dropWhile isDigit = rest := by
  rw [List.dropWhile_append_of_pos h]
  cases rest with
  | nil => rfl
  | cons b rest => rw [List.dropWhile_cons_of_neg (by rw [hrest b rfl]; decide)]

theorem dropSign_digits {sign ds : Bytes} (hsign : IsSign sign) (hds : IsDigits ds) :
    dropSign (sign ++ ds) = ds := by
  rcases hsign with rfl | rfl | rfl
  · cases ds with
    | nil => rfl
    | cons d ds =>
      have hd := hds.2 d List.mem_cons_self
      refine if_neg ?_
      rintro (rfl | rfl)
      · exact absurd hd (by decide)
      · exact absurd hd (by decide)
  · rfl
  · rfl

/-- The exponent of a number, which may be missing. -/
def IsExponent (exponent : Bytes) : Prop :=
  exponent = [] ∨ ∃ e sign ds, exponent = e :: (sign ++ ds) ∧ (e = 0x65 ∨ e = 0x45) ∧
    IsSign sign ∧ IsDigits ds

variable {exponent : Bytes}

theorem validExponent_of (h : IsExponent exponent) : validExponent exponent = true := by
  rcases h with rfl | ⟨e, sign, ds, rfl, he, hsign, hds⟩
  · rfl
  · have hletter : (e == 0x65 || e == 0x45) = true := by
      rcases he with rfl | rfl <;> rfl
    have hne : ds.isEmpty = false := List.isEmpty_eq_false_iff.mpr hds.1
    rw [validExponent, dropSign_digits hsign hds, hletter, hne,
      List.all_eq_true.mpr (all_isDigit hds)]
    rfl

theorem head_exponent (h : IsExponent exponent) :
    ∀ b, exponent.head? = some b → isDigit b = false ∧ b ≠ 0x2E := by
  intro b hb
  rcases h with rfl | ⟨e, sign, ds, rfl, rfl | rfl, -, -⟩
  · cases hb
  · cases hb
    decide
  · cases hb
    decide

/-- The fraction of a number, which may be missing. -/
def IsFraction (fraction : Bytes) : Prop :=
  fraction = [] ∨ ∃ ds, fraction = 0x2E :: ds ∧ IsDigits ds

theorem validFraction_of {fraction : Bytes} (h : IsFraction fraction)
    (h' : IsExponent exponent) : validFraction (fraction ++ exponent) = true := by
  rcases h with rfl | ⟨ds, rfl, hds⟩
  · rw [List.nil_append, validFraction.eq_def]
    split
    next b rest => exact absurd rfl (head_exponent h' _ rfl).2
    · exact validExponent_of h'
  · cases ds with
    | nil => exact absurd rfl hds.1
    | cons d ds =>
      have hdigits := all_isDigit hds
      change (isDigit d && validExponent ((ds ++ exponent).dropWhile isDigit)) = true
      rw [hdigits d List.mem_cons_self, dropWhile_digits
        (fun b hb => hdigits b (List.mem_cons_of_mem d hb)) fun b hb => (head_exponent h' b hb).1,
        validExponent_of h']
      rfl

theorem validWhole_of {whole fraction : Bytes} (hwhole : IsDigits whole)
    (hzero : whole = [0x30] ∨ whole.head? ≠ some 0x30) (h : IsFraction fraction)
    (h' : IsExponent exponent) : validWhole (whole ++ (fraction ++ exponent)) = true := by
  have hvalid := validFraction_of h h'
  rcases hzero with rfl | hzero
  · exact hvalid
  · cases whole with
    | nil => exact absurd rfl hwhole.1
    | cons d ds =>
      have hdigits := all_isDigit hwhole
      have hne : d ≠ 0x30 := fun heq => hzero (congrArg some heq)
      have hhead : ∀ b, (fraction ++ exponent).head? = some b → isDigit b = false := by
        intro b hb
        rcases h with rfl | ⟨ds', rfl, -⟩
        · exact (head_exponent h' b hb).1
        · cases hb
          rfl
      rw [List.cons_append, validWhole, if_neg hne, hdigits d List.mem_cons_self, dropWhile_digits
        (fun b hb => hdigits b (List.mem_cons_of_mem d hb)) hhead, hvalid]
      rfl

variable {number : Bytes}

theorem validNumber_of_isNumber (h : IsNumber number) : validNumber number = true := by
  obtain ⟨minus, whole, fraction, exponent, rfl, hminus, ⟨hwhole, hzero⟩, hfraction, hexponent⟩ :=
    h.split
  have hvalid := validWhole_of hwhole hzero hfraction hexponent
  rcases hminus with rfl | rfl
  · cases whole with
    | nil => exact absurd rfl hwhole.1
    | cons d ds =>
      have hne : d ≠ 0x2D := by
        rintro rfl
        exact absurd (hwhole.2 _ List.mem_cons_self) (by decide)
      rw [List.nil_append, List.cons_append, validNumber, if_neg hne]
      exact hvalid
  · exact hvalid

theorem isNumberByte_of_isNumber (h : IsNumber number) : ∀ b ∈ number, isNumberByte b = true := by
  have hdigits : ∀ {ds : Bytes}, IsDigits ds → ∀ b ∈ ds, isNumberByte b = true := by
    intro ds hds b hb
    rw [isNumberByte, all_isDigit hds b hb]
    rfl
  have hone : ∀ {c : UInt8}, isNumberByte c = true → ∀ b ∈ [c], isNumberByte b = true :=
    fun hc b hb => List.mem_singleton.mp hb ▸ hc
  obtain ⟨minus, whole, fraction, exponent, rfl, hminus, hwhole, hfraction, hexponent⟩ := h.split
  simp only [List.forall_mem_append]
  refine ⟨?_, hdigits hwhole.1, ?_, ?_⟩
  · rcases hminus with rfl | rfl
    · exact List.forall_mem_nil _
    · exact hone rfl
  · rcases hfraction with rfl | ⟨ds, rfl, hds⟩
    · exact List.forall_mem_nil _
    · exact List.forall_mem_cons.mpr ⟨rfl, hdigits hds⟩
  · rcases hexponent with rfl | ⟨e, sign, ds, rfl, he, hsign, hds⟩
    · exact List.forall_mem_nil _
    · refine List.forall_mem_cons.mpr ⟨?_, List.forall_mem_append.mpr ⟨?_, hdigits hds⟩⟩
      · rcases he with rfl | rfl <;> rfl
      · rcases hsign with rfl | rfl | rfl
        · exact List.forall_mem_nil _
        · exact hone rfl
        · exact hone rfl

/-- Behind a number there is no byte that it could go on with. -/
def Stops (rest : Bytes) : Prop := ∀ b, rest.head? = some b → isNumberByte b = false

theorem readNumber_append (h : IsNumber number) (hrest : Stops rest) :
    readNumber (number ++ rest) = some (.number number, rest) := by
  have hsplit : rest.takeWhile isNumberByte = [] ∧ rest.dropWhile isNumberByte = rest := by
    cases rest with
    | nil => exact ⟨rfl, rfl⟩
    | cons b rest =>
      have hb : ¬ isNumberByte b = true := by
        rw [hrest b rfl]
        decide
      exact ⟨List.takeWhile_cons_of_neg hb, List.dropWhile_cons_of_neg hb⟩
  rw [readNumber, List.takeWhile_append_of_pos (isNumberByte_of_isNumber h),
    List.dropWhile_append_of_pos (isNumberByte_of_isNumber h), hsplit.1, hsplit.2, List.append_nil]
  exact if_pos (validNumber_of_isNumber h)

/-- A number starts with a digit or the minus sign. -/
theorem head_number (h : IsNumber number) :
    ∃ b tail, number = b :: tail ∧ (isDigit b = true ∨ b = 0x2D) := by
  obtain ⟨minus, whole, fraction, exponent, rfl, hminus, ⟨hwhole, -⟩, -, -⟩ := h.split
  rcases hminus with rfl | rfl
  · cases whole with
    | nil => exact absurd rfl hwhole.1
    | cons d ds => exact ⟨d, _, rfl, .inl (all_isDigit hwhole d List.mem_cons_self)⟩
  · exact ⟨0x2D, _, rfl, .inr rfl⟩

/-! ### Trees -/

theorem skipSpace_cons (h : isSpace b = false) (rest : Bytes) :
    skipSpace (b :: rest) = b :: rest :=
  List.dropWhile_cons_of_neg (by rw [h]; decide)

theorem length_le_commaJoin (parts : List Bytes) :
    parts.length ≤ (commaJoin 0x2C parts).length + 1 := by
  induction parts with
  | nil => exact Nat.zero_le _
  | cons part parts ih =>
    cases parts with
    | nil => exact Nat.le_add_left _ _
    | cons next parts =>
      simp only [commaJoin_cons, List.length_append, List.length_cons] at ih ⊢
      omega

section Parts

variable {α : Type} {read : Bytes → Option (α × Bytes)} {close : UInt8} {write : α → Bytes}
  (hspace : isSpace close = false) (hcomma : close ≠ 0x2C) (hstop : isNumberByte close = false)
  {parts : List α}
  (hread : ∀ part ∈ parts, ∀ rest, Stops rest → read (write part ++ rest) = some (part, rest))
include hspace hcomma hstop hread

/-- What `readParts` gives on parts that are read one by one. -/
theorem readParts_commaJoin (hne : parts ≠ []) {fuel : ℕ} (hfuel : parts.length ≤ fuel) (rest : Bytes) :
    readParts read close fuel (commaJoin 0x2C (parts.map write) ++ close :: rest) =
      some (parts, rest) := by
  induction parts generalizing fuel with
  | nil => exact absurd rfl hne
  | cons part parts ih =>
    obtain ⟨fuel, rfl⟩ : ∃ k, fuel = k + 1 := ⟨fuel - 1, by simp only [List.length_cons] at hfuel; omega⟩
    have hfirst := hread part List.mem_cons_self
    cases parts with
    | nil =>
      have hstops : Stops (close :: rest) := fun b hb => Option.some.inj hb ▸ hstop
      change readParts read close (fuel + 1) (write part ++ close :: rest) = _
      rw [readParts, hfirst _ hstops]
      simp only [Option.bind_eq_bind, Option.bind_some, skipSpace_cons hspace]
      rw [if_pos trivial]
      rfl
    | cons next parts =>
      have hstops : ∀ tail, Stops (0x2C :: tail) := fun tail b hb => Option.some.inj hb ▸ rfl
      have hrest : readParts read close fuel
          (commaJoin 0x2C ((next :: parts).map write) ++ close :: rest) = some (next :: parts, rest) :=
        ih (fun p hp => hread p (List.mem_cons_of_mem part hp)) (List.cons_ne_nil _ _)
          (Nat.le_of_succ_le_succ hfuel)
      have hjoin : commaJoin 0x2C ((part :: next :: parts).map write) ++ close :: rest =
          write part ++ 0x2C :: (commaJoin 0x2C ((next :: parts).map write) ++ close :: rest) := by
        rw [List.map_cons, List.map_cons, commaJoin_cons, List.append_assoc, List.cons_append]
      rw [hjoin, readParts, hfirst _ (hstops _)]
      simp only [Option.bind_eq_bind, Option.bind_some, skipSpace_cons (show isSpace 0x2C = false from rfl)]
      rw [if_neg hcomma.symm, if_pos trivial, hrest]
      rfl

/-- A list is read back between its brackets, if its parts do not start like the closing one. -/
theorem readList_commaJoin
    (hhead : ∀ part ∈ parts, ∃ b tail, write part = b :: tail ∧ isSpace b = false ∧ b ≠ close)
    (rest : Bytes) :
    readList read close (commaJoin 0x2C (parts.map write) ++ close :: rest) = some (parts, rest) := by
  cases parts with
  | nil =>
    change readList read close (close :: rest) = _
    rw [readList, skipSpace_cons hspace]
    exact if_pos rfl
  | cons part parts =>
    obtain ⟨b, tail, hwrite, hb, hne⟩ := hhead part List.mem_cons_self
    have hjoin : ∃ more, commaJoin 0x2C ((part :: parts).map write) ++ close :: rest = b :: more := by
      cases parts with
      | nil => exact ⟨_, by rw [List.map_singleton, commaJoin, hwrite, List.cons_append]⟩
      | cons next parts =>
        refine ⟨tail ++ 0x2C :: commaJoin 0x2C ((next :: parts).map write) ++ close :: rest, ?_⟩
        rw [List.map_cons, List.map_cons, commaJoin_cons, hwrite]
        rfl
    obtain ⟨more, hmore⟩ := hjoin
    have hnot : (skipSpace (b :: more)).head? ≠ some close := by
      rw [skipSpace_cons hb]
      exact fun heq => hne (Option.some.inj heq)
    rw [readList, hmore, if_neg hnot, ← hmore]
    apply readParts_commaJoin hspace hcomma hstop hread (List.cons_ne_nil _ _)
    have hlength := length_le_commaJoin ((part :: parts).map write)
    rw [List.length_map] at hlength
    rw [List.length_append, @List.length_cons _ close rest]
    omega

end Parts

/-- What can be read to a depth: the numbers are numbers. -/
inductive Readable : ℕ → Tree → Prop
  | null {depth : ℕ} : Readable depth .null
  | bool {depth : ℕ} (value : Bool) : Readable depth (.bool value)
  | number {depth : ℕ} {spelling : Bytes} (h : IsNumber spelling) :
      Readable depth (.number spelling)
  | string {depth : ℕ} (value : Bytes) : Readable depth (.string value)
  | array {depth : ℕ} {items : List Tree} (h : ∀ item ∈ items, Readable depth item) :
      Readable (depth + 1) (.array items)
  | object {depth : ℕ} {members : List (Bytes × Tree)}
      (h : ∀ member ∈ members, Readable depth member.2) : Readable (depth + 1) (.object members)

theorem number_byte (h : isDigit b = true ∨ b = 0x2D) {c : UInt8} (hc : isDigit c = false)
    (hc' : c ≠ 0x2D) : b ≠ c := by
  rintro rfl
  rcases h with h | h
  · rw [hc] at h
    cases h
  · exact hc' h

theorem isSpace_number (h : isDigit b = true ∨ b = 0x2D) : isSpace b = false := by
  simp only [isSpace, Bool.or_eq_false_iff, beq_eq_false_iff_ne]
  exact ⟨⟨⟨number_byte h rfl (by decide), number_byte h rfl (by decide)⟩,
    number_byte h rfl (by decide)⟩, number_byte h rfl (by decide)⟩

theorem head_text {depth : ℕ} {tree : Tree} (h : Readable depth tree) :
    ∃ b tail, text tree = b :: tail ∧ isSpace b = false ∧ b ≠ 0x5D := by
  cases h with
  | null => exact ⟨_, _, text.eq_1, rfl, by decide⟩
  | bool value =>
    cases value with
    | true => exact ⟨_, _, text.eq_2 true, rfl, by decide⟩
    | false => exact ⟨_, _, text.eq_2 false, rfl, by decide⟩
  | number h =>
    obtain ⟨b, tail, hnumber, hb⟩ := head_number h
    exact ⟨b, tail, by rw [text, hnumber], isSpace_number hb, number_byte hb rfl (by decide)⟩
  | string value => exact ⟨_, _, text.eq_4 value, rfl, by decide⟩
  | array h => exact ⟨_, _, text.eq_5 _, rfl, by decide⟩
  | object h => exact ⟨_, _, text.eq_6 _, rfl, by decide⟩

theorem bytes_literal (s rest : Bytes) :
    (literal s).bytes ++ rest = quote :: ((literal s).inner ++ quote :: rest) := by
  rw [Literal.bytes, List.cons_append, List.append_assoc]
  rfl

theorem readMember_append {read : Bytes → Option (Tree × Bytes)} {name : Bytes}
    {value : Tree} (h : read (text value ++ rest) = some (value, rest)) :
    readMember read ((literal name).bytes ++ 0x3A :: text value ++ rest) =
      some ((name, value), rest) := by
  rw [List.append_assoc, List.cons_append, bytes_literal, readMember, skipSpace_cons rfl]
  dsimp only
  rw [if_pos rfl, readString_bytes]
  simp only [Option.bind_eq_bind, Option.bind_some, skipSpace_cons (show isSpace 0x3A = false from rfl)]
  rw [if_pos trivial, h]
  rfl

/-- What was written is read back. -/
theorem readValue_text {depth : ℕ} {tree : Tree} (h : Readable depth tree) (hrest : Stops rest) :
    readValue depth (text tree ++ rest) = some (tree, rest) := by
  induction h generalizing rest with
  | null =>
    rw [text, readValue]
    rfl
  | bool value =>
    rw [text, readValue]
    cases value <;> rfl
  | @number depth spelling h =>
    obtain ⟨b, tail, hnumber, hb⟩ := head_number h
    have hread := readNumber_append h hrest
    rw [text]
    rw [hnumber, List.cons_append] at hread ⊢
    rw [readValue, skipSpace_cons (isSpace_number hb)]
    dsimp only
    rw [if_neg (number_byte hb rfl (by decide)), if_neg (number_byte hb rfl (by decide)),
      if_neg (number_byte hb rfl (by decide)), if_neg (number_byte hb rfl (by decide)),
      if_neg (number_byte hb rfl (by decide)), if_neg (number_byte hb rfl (by decide)), hread]
  | string value =>
    rw [text, bytes_literal, readValue, skipSpace_cons rfl]
    dsimp only
    rw [if_pos rfl, readString_bytes]
    rfl
  | @array depth items h ih =>
    have hlist : readList (readValue depth) 0x5D (commaJoin 0x2C (items.map text) ++ 0x5D :: rest) =
        some (items, rest) :=
      readList_commaJoin rfl (by decide) rfl (fun item hitem _ => ih item hitem)
        (fun item hitem => head_text (h item hitem)) rest
    rw [text, List.cons_append, List.append_assoc, List.singleton_append, readValue,
      skipSpace_cons rfl]
    dsimp only
    rw [if_neg (by decide), if_pos rfl, hlist]
    rfl
  | @object depth members h ih =>
    have hlist : readList (readMember (readValue depth)) 0x7D (commaJoin 0x2C (members.map
        fun member => (literal member.1).bytes ++ 0x3A :: text member.2) ++ 0x7D :: rest) =
        some (members, rest) :=
      readList_commaJoin rfl (by decide) rfl
        (fun member hmember _ hstop => readMember_append (ih member hmember hstop))
        (fun member _ => ⟨_, _, rfl, rfl, by decide⟩) rest
    rw [text, List.cons_append, List.append_assoc, List.singleton_append, readValue,
      skipSpace_cons rfl]
    dsimp only
    rw [if_neg (by decide), if_neg (by decide), if_pos rfl, hlist]
    rfl

end DialCache.JsonReaders
