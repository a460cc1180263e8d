import DialCache.IntegerArguments
import Mathlib.Data.List.DropRight

/-!
# Doubles as key arguments

Python recovers the shortest digits of a double and the position of its decimal point from
`repr` and lays them out again as JavaScript does. The two layouts differ in their
thresholds, in the fraction that Python always writes and in the padding of the exponent.
Reading either layout gives back the digits and the position, so that no text of the
second one stands for two numbers.
-/

namespace DialCache.FloatArguments

open PortableKeys IntegerArguments

/-- The shortest decimal digits of a positive number, without zeros at either end, and the
position of the decimal point from the first of them. -/
structure Decimal where
  digits : Text
  position : ℤ
  allDigits : ∀ c ∈ digits, c.isDigit = true
  first : ∃ d rest, digits = d :: rest ∧ d ≠ '0'
  last : ∃ rest d, digits = rest ++ [d] ∧ d ≠ '0'

@[ext] theorem Decimal.ext {m n : Decimal} (hdigits : m.digits = n.digits)
    (hposition : m.position = n.position) : m = n := by
  cases m
  cases n
  simp only [Decimal.mk.injEq]
  exact ⟨hdigits, hposition⟩

variable (n : Decimal)

theorem Decimal.digits_ne_nil : n.digits ≠ [] := by
  obtain ⟨d, rest, hdigits, -⟩ := n.first
  rw [hdigits]
  exact List.cons_ne_nil d rest

def zeros (n : ℤ) : Text := List.replicate n.toNat '0'

/-! ### The two layouts -/

/-- `Number::toString` of a positive number. -/
def numberText (n : Decimal) : Text :=
  let count : ℤ := n.digits.length
  if count ≤ n.position ∧ n.position ≤ 21 then n.digits ++ zeros (n.position - count)
  else if 0 < n.position ∧ n.position ≤ 21 then
    n.digits.take n.position.toNat ++ '.' :: n.digits.drop n.position.toNat
  else if -6 < n.position ∧ n.position ≤ 0 then '0' :: '.' :: (zeros (-n.position) ++ n.digits)
  else
    let sign := if n.position - 1 < 0 then '-' else '+'
    let exponent := Nat.toDigits 10 (n.position - 1).natAbs
    if n.digits.length = 1 then n.digits ++ 'e' :: sign :: exponent
    else n.digits.take 1 ++ '.' :: (n.digits.drop 1 ++ 'e' :: sign :: exponent)

def numberToString (negative : Bool) (n : Decimal) : Text :=
  (if negative then ['-'] else []) ++ numberText n

namespace Python

/-- `repr` of a positive number. -/
def reprText (n : Decimal) : Text :=
  let count : ℤ := n.digits.length
  if -4 < n.position ∧ n.position ≤ 16 then
    if n.position ≤ 0 then '0' :: '.' :: (zeros (-n.position) ++ n.digits)
    else if n.position < count then
      n.digits.take n.position.toNat ++ '.' :: n.digits.drop n.position.toNat
    else n.digits ++ zeros (n.position - count) ++ ['.', '0']
  else
    let sign := if n.position - 1 < 0 then '-' else '+'
    let exponent := Python.padded 2 (n.position - 1).natAbs
    if n.digits.length = 1 then n.digits ++ 'e' :: sign :: exponent
    else n.digits.take 1 ++ '.' :: (n.digits.drop 1 ++ 'e' :: sign :: exponent)

/-- A float by what `repr` shows of it. -/
inductive PyFloat
  | nan
  | infinite (negative : Bool)
  | zero (negative : Bool)
  | finite (negative : Bool) (magnitude : Decimal)

/-- `str.partition` at a character, without the separator. -/
def partition (c : Char) (s : Text) : Text × Text :=
  (s.takeWhile (· != c), (s.dropWhile (· != c)).drop 1)

/-- `int` of a text of digits with an optional sign. -/
def int : Text → Except String ℤ
  | '+' :: ds => int.unsigned ds
  | '-' :: ds => do return -(← int.unsigned ds)
  | ds => int.unsigned ds
where
  unsigned (ds : Text) : Except String ℤ :=
    if ds ≠ [] ∧ ds.all Char.isDigit then .ok (Nat.ofDigitChars 10 ds 0)
    else .error "invalid literal for int() with base 10"

def lstrip (s : Text) : Text := s.dropWhile (· == '0')

def rstrip (s : Text) : Text := s.rdropWhile (· == '0')

/-- The digits and the position that `scalar_string` reads from `repr`. -/
def readDigits (raw : Text) : Except String (Text × ℤ) := do
  let (coefficient, exponent) := partition 'e' (raw.map Char.toLower)
  let (whole, fraction) := partition '.' coefficient
  let digits := lstrip (whole ++ fraction)
  let power ← if exponent.isEmpty then .ok 0 else int exponent
  let position : ℤ := whole.length + power
  let position :=
    if whole = ['0'] then position - ((whole ++ fraction).length - digits.length) else position
  return (rstrip digits, position)

/-- The exponent form that `scalar_string` writes. -/
def exponentLayout (sign : Text) (position : ℤ) : Text → Except String Text
  | [] => .error "string index out of range"
  | d :: rest =>
    let mantissa := d :: if 1 < (d :: rest).length then '.' :: rest else []
    let power := position - 1
    .ok (sign ++ (mantissa ++ 'e' :: ((if 0 ≤ power then ['+'] else []) ++ integerText power)))

/-- The layout that `scalar_string` writes. -/
def layout (sign digits : Text) (position : ℤ) : Except String Text :=
  if 0 < position ∧ position ≤ 21 then
    .ok (sign ++ if position < digits.length then
        digits.take position.toNat ++ '.' :: digits.drop position.toNat
      else digits ++ zeros (position - digits.length))
  else if -6 < position ∧ position ≤ 0 then
    .ok (sign ++ '0' :: '.' :: (zeros (-position) ++ digits))
  else exponentLayout sign position digits

/-- `scalar_string` of a float. -/
def scalarString : PyFloat → Except String Text
  | .nan => .ok ['N', 'a', 'N']
  | .infinite negative =>
    .ok ((if negative then ['-'] else []) ++ ['I', 'n', 'f', 'i', 'n', 'i', 't', 'y'])
  | .zero _ => .ok ['0']
  | .finite negative magnitude => do
    let sign := if negative then ['-'] else []
    let (digits, position) ← readDigits (reprText magnitude)
    layout sign digits position

/-! ### Stripping zeros -/

theorem lstrip_zeros (m : ℕ) (s : Text) : lstrip (List.replicate m '0' ++ s) = lstrip s := by
  induction m with
  | zero => rfl
  | succ m ih =>
    rw [List.replicate_succ, List.cons_append, lstrip, List.dropWhile_cons_of_pos rfl]
    exact ih

theorem lstrip_digits (s : Text) : lstrip (n.digits ++ s) = n.digits ++ s := by
  obtain ⟨d, rest, hdigits, hd⟩ := n.first
  rw [hdigits, List.cons_append, lstrip, List.dropWhile_cons_of_neg]
  simpa using hd

theorem rstrip_digits (m : ℕ) : rstrip (n.digits ++ List.replicate m '0') = n.digits := by
  induction m with
  | zero =>
    obtain ⟨rest, d, hdigits, hd⟩ := n.last
    rw [List.replicate_zero, List.append_nil, hdigits, rstrip, List.rdropWhile_concat_neg]
    simpa using hd
  | succ m ih =>
    rw [List.replicate_succ', ← List.append_assoc, rstrip, List.rdropWhile_concat_pos _ _ _ rfl]
    exact ih

/-! ### Reading a text -/

variable {c : Char}

theorem toLower_digit (h : c.isDigit = true) : c.toLower = c := by
  simp only [Char.isDigit, Bool.and_eq_true, decide_eq_true_eq] at h
  have hupper := UInt32.le_iff_toNat_le.mp h.2
  refine dif_neg ?_
  rintro ⟨hA, -⟩
  have hlower := UInt32.le_iff_toNat_le.mp hA
  change c.val.toNat ≤ 57 at hupper
  change 65 ≤ c.val.toNat at hlower
  omega

theorem ne_of_isDigit {d : Char} (h : c.isDigit = true) (hd : d.isDigit = false) : c ≠ d := by
  rintro rfl
  rw [h] at hd
  cases hd

theorem partition_append {s : Text} (h : ∀ d ∈ s, d ≠ c) (rest : Text) :
    partition c (s ++ c :: rest) = (s, rest) := by
  have hpass : ∀ d ∈ s, (d != c) = true := fun d hd => bne_iff_ne.mpr (h d hd)
  rw [partition, List.takeWhile_append_of_pos hpass, List.dropWhile_append_of_pos hpass,
    List.takeWhile_cons_of_neg (by simp), List.dropWhile_cons_of_neg (by simp), List.append_nil,
    List.drop_one, List.tail_cons]

theorem partition_absent {s : Text} (h : ∀ d ∈ s, d ≠ c) : partition c s = (s, []) := by
  have hpass : ∀ d ∈ s, (d != c) = true := fun d hd => bne_iff_ne.mpr (h d hd)
  rw [partition, List.takeWhile_eq_self_iff.mpr hpass, List.dropWhile_eq_nil_iff.mpr hpass,
    List.drop_nil]

/-- A text of digits. -/
def Digits (s : Text) : Prop := ∀ c ∈ s, c.isDigit = true

theorem Digits.append {s t : Text} (hs : Digits s) (ht : Digits t) : Digits (s ++ t) :=
  List.forall_mem_append.mpr ⟨hs, ht⟩

theorem digits_zeros (n : ℤ) : Digits (zeros n) := by
  intro c hc
  rw [List.eq_of_mem_replicate hc]
  rfl

theorem digits_toDigits (n : ℕ) : Digits (Nat.toDigits 10 n) :=
  fun _ hc => Nat.isDigit_of_mem_toDigits (by decide) (by decide) hc

/-- A coefficient with its whole part and its fraction, whose point may be missing. -/
inductive Coefficient : Text → Text → Text → Prop
  | whole {whole : Text} (h : Digits whole) : Coefficient whole whole []
  | point {whole fraction : Text} (h : Digits whole) (h' : Digits fraction) :
      Coefficient (whole ++ '.' :: fraction) whole fraction

/-- An exponent with its value, which may be missing. -/
inductive Exponent : Text → ℤ → Prop
  | none : Exponent [] 0
  | positive {ds : Text} (h : Digits ds) (hne : ds ≠ []) :
      Exponent ('e' :: '+' :: ds) (Nat.ofDigitChars 10 ds 0)
  | negative {ds : Text} (h : Digits ds) (hne : ds ≠ []) :
      Exponent ('e' :: '-' :: ds) (-(Nat.ofDigitChars 10 ds 0 : ℤ))

variable {coefficient fraction : Text}

variable {whole : Text}

theorem Coefficient.partition_eq (h : Coefficient coefficient whole fraction) :
    partition '.' coefficient = (whole, fraction) := by
  cases h with
  | whole h => exact partition_absent fun d hd => ne_of_isDigit (h d hd) rfl
  | point h h' => exact partition_append (fun d hd => ne_of_isDigit (h d hd) rfl) _

theorem Coefficient.mem (h : Coefficient coefficient whole fraction) (hc : c ∈ coefficient) :
    c.isDigit = true ∨ c = '.' := by
  cases h with
  | whole h => exact Or.inl (h c hc)
  | point h h' =>
    rcases List.mem_append.mp hc with hc | hc
    · exact Or.inl (h c hc)
    · rcases List.mem_cons.mp hc with hc | hc
      · exact Or.inr hc
      · exact Or.inl (h' c hc)

theorem map_toLower {s : Text} (h : ∀ c ∈ s, c.toLower = c) : s.map Char.toLower = s :=
  (List.map_congr_left h).trans (List.map_id s)

theorem Coefficient.map_toLower (h : Coefficient coefficient whole fraction) :
    coefficient.map Char.toLower = coefficient := by
  apply Python.map_toLower
  intro c hc
  rcases h.mem hc with hdigit | rfl
  · exact toLower_digit hdigit
  · rfl

variable {exponent : Text} {power : ℤ}

theorem Exponent.map_toLower (h : Exponent exponent power) :
    exponent.map Char.toLower = exponent := by
  cases h with
  | none => rfl
  | positive h _ | negative h _ =>
    rw [List.map_cons, List.map_cons, Python.map_toLower fun c hc => toLower_digit (h c hc)]
    rfl

theorem int_unsigned {ds : Text} (h : Digits ds) (hne : ds ≠ []) :
    int.unsigned ds = .ok (Nat.ofDigitChars 10 ds 0 : ℤ) := by
  rw [int.unsigned, if_pos ⟨hne, List.all_eq_true.mpr h⟩]

/-- What the position is computed to. -/
def pointPosition (whole fraction digits : Text) (power : ℤ) : ℤ :=
  if whole = ['0'] then whole.length + power - ((whole ++ fraction).length - digits.length)
  else whole.length + power

theorem readDigits_eq (h : Coefficient coefficient whole fraction) (h' : Exponent exponent power) :
    readDigits (coefficient ++ exponent) = .ok (rstrip (lstrip (whole ++ fraction)),
      pointPosition whole fraction (lstrip (whole ++ fraction)) power) := by
  have hlower : (coefficient ++ exponent).map Char.toLower = coefficient ++ exponent := by
    rw [List.map_append, h.map_toLower, h'.map_toLower]
  have hne : ∀ c ∈ coefficient, c ≠ 'e' := by
    intro c hc
    rcases h.mem hc with hdigit | rfl
    · exact ne_of_isDigit hdigit rfl
    · decide
  rw [readDigits, hlower]
  cases h' with
  | none =>
    rw [List.append_nil, partition_absent hne]
    dsimp only
    rw [h.partition_eq]
    rfl
  | positive hds hds' =>
    rw [partition_append hne]
    dsimp only
    rw [h.partition_eq]
    change (int.unsigned _ >>= _) = _
    rw [int_unsigned hds hds']
    rfl
  | negative hds hds' =>
    rw [partition_append hne]
    dsimp only
    rw [h.partition_eq]
    change ((int.unsigned _ >>= _) >>= _) = _
    rw [int_unsigned hds hds']
    rfl

/-! ### Reading the layouts -/

section Read

variable (n : Decimal)

/-- The whole part starts with the first digit. -/
theorem readDigits_whole {m : ℕ} (h : Coefficient coefficient whole fraction)
    (h' : Exponent exponent power) (hdigits : whole ++ fraction = n.digits ++ List.replicate m '0')
    (hwhole : whole ≠ []) (hposition : whole.length + power = n.position) :
    readDigits (coefficient ++ exponent) = .ok (n.digits, n.position) := by
  have hfirst : whole ≠ ['0'] := by
    rintro rfl
    obtain ⟨d, rest, hd, hne⟩ := n.first
    rw [hd, List.cons_append, List.cons_append] at hdigits
    exact hne (List.cons.inj hdigits).1.symm
  rw [readDigits_eq h h', hdigits, lstrip_digits, rstrip_digits, pointPosition, if_neg hfirst,
    hposition]

theorem readDigits_small (hposition : n.position ≤ 0) :
    readDigits ('0' :: '.' :: (zeros (-n.position) ++ n.digits)) = .ok (n.digits, n.position) := by
  have hcoefficient : Coefficient (['0'] ++ '.' :: (zeros (-n.position) ++ n.digits)) ['0']
      (zeros (-n.position) ++ n.digits) := by
    apply Coefficient.point
    · intro c hc
      rw [List.mem_singleton.mp hc]
      rfl
    · exact (digits_zeros _).append n.allDigits
  have hread := readDigits_eq hcoefficient Exponent.none
  have hstrip : lstrip (['0'] ++ (zeros (-n.position) ++ n.digits)) = n.digits := by
    have hall : ['0'] ++ (zeros (-n.position) ++ n.digits) =
        List.replicate ((-n.position).toNat + 1) '0' ++ (n.digits ++ []) := by
      rw [List.replicate_succ, List.append_nil]
      rfl
    rw [hall, lstrip_zeros, lstrip_digits, List.append_nil]
  have hrstrip : rstrip n.digits = n.digits := by
    have h := rstrip_digits n 0
    rwa [List.replicate_zero, List.append_nil] at h
  rw [List.append_nil, hstrip, hrstrip] at hread
  refine hread.trans ?_
  congr 2
  rw [pointPosition, if_pos rfl]
  simp only [List.length_append, List.length_singleton, zeros, List.length_replicate]
  push_cast
  omega

theorem readDigits_point (hpos : 0 < n.position) (hlt : n.position < n.digits.length) :
    readDigits (n.digits.take n.position.toNat ++ '.' :: n.digits.drop n.position.toNat) =
      .ok (n.digits, n.position) := by
  have hcoefficient : Coefficient
      (n.digits.take n.position.toNat ++ '.' :: n.digits.drop n.position.toNat)
      (n.digits.take n.position.toNat) (n.digits.drop n.position.toNat) :=
    .point (fun c hc => n.allDigits c (List.mem_of_mem_take hc))
      (fun c hc => n.allDigits c (List.mem_of_mem_drop hc))
  have hlength : (n.digits.take n.position.toNat).length = n.position.toNat := by
    rw [List.length_take]
    omega
  have hread := readDigits_whole n (m := 0) hcoefficient Exponent.none
    (by rw [List.take_append_drop, List.replicate_zero, List.append_nil])
    (by rw [← List.length_pos_iff, hlength]; omega)
    (by rw [hlength]; omega)
  rwa [List.append_nil] at hread

theorem readDigits_exponent (h : Exponent exponent (n.position - 1)) :
    readDigits ((if n.digits.length = 1 then n.digits
      else n.digits.take 1 ++ '.' :: n.digits.drop 1) ++ exponent) = .ok (n.digits, n.position) := by
  split
  · rename_i hone
    refine readDigits_whole n (m := 0) (Coefficient.whole n.allDigits) h ?_ n.digits_ne_nil ?_
    · rw [List.append_nil, List.replicate_zero, List.append_nil]
    · rw [hone]
      omega
  · have hpos := List.length_pos_iff.mpr n.digits_ne_nil
    have hlength : (n.digits.take 1).length = 1 := by
      rw [List.length_take]
      omega
    refine readDigits_whole n (m := 0) (Coefficient.point
      (fun c hc => n.allDigits c (List.mem_of_mem_take hc))
      (fun c hc => n.allDigits c (List.mem_of_mem_drop hc))) h ?_ ?_ ?_
    · rw [List.take_append_drop, List.replicate_zero, List.append_nil]
    · rw [← List.length_pos_iff, hlength]
      exact Nat.one_pos
    · rw [hlength]
      omega

theorem ofDigitChars_zeros (m : ℕ) : Nat.ofDigitChars 10 (List.replicate m '0') 0 = 0 := by
  induction m with
  | zero => rfl
  | succ m ih => exact ih

/-- The exponent of either layout: the sign and the absolute value, padded or not. -/
theorem exponent_padded (m : ℕ) (power : ℤ) :
    Exponent ('e' :: (if power < 0 then '-' else '+') ::
      (List.replicate m '0' ++ Nat.toDigits 10 power.natAbs)) power := by
  have hdigits : Digits (List.replicate m '0' ++ Nat.toDigits 10 power.natAbs) :=
    Digits.append (digits_zeros m) (digits_toDigits _)
  have hne : List.replicate m '0' ++ Nat.toDigits 10 power.natAbs ≠ [] :=
    List.append_ne_nil_of_right_ne_nil _ Nat.toDigits_ne_nil
  have hvalue : Nat.ofDigitChars 10 (List.replicate m '0' ++ Nat.toDigits 10 power.natAbs) 0 =
      power.natAbs := by
    rw [Nat.ofDigitChars_append, ofDigitChars_zeros, Nat.ofDigitChars_ten_toDigits]
  by_cases hneg : power < 0
  · rw [if_pos hneg]
    have h := Exponent.negative hdigits hne
    rwa [hvalue, Int.ofNat_natAbs_of_nonpos (by omega), Int.neg_neg] at h
  · rw [if_neg hneg]
    have h := Exponent.positive hdigits hne
    rwa [hvalue, Int.natAbs_of_nonneg (by omega)] at h

theorem readDigits_padded (m : ℕ) :
    readDigits (if n.digits.length = 1 then
        n.digits ++ 'e' :: (if n.position - 1 < 0 then '-' else '+') ::
          (List.replicate m '0' ++ Nat.toDigits 10 (n.position - 1).natAbs)
      else n.digits.take 1 ++ '.' :: (n.digits.drop 1 ++
        'e' :: (if n.position - 1 < 0 then '-' else '+') ::
          (List.replicate m '0' ++ Nat.toDigits 10 (n.position - 1).natAbs))) =
      .ok (n.digits, n.position) := by
  have hread := readDigits_exponent n (exponent_padded m (n.position - 1))
  by_cases hone : n.digits.length = 1
  · rwa [if_pos hone] at hread ⊢
  · rw [if_neg hone] at hread ⊢
    rwa [List.append_assoc, List.cons_append] at hread

theorem readDigits_reprText : readDigits (reprText n) = .ok (n.digits, n.position) := by
  rw [reprText]
  dsimp only
  split
  · rename_i hfixed
    split
    · exact readDigits_small n (by omega)
    split
    · exact readDigits_point n (by omega) (by omega)
    · have hcoefficient : Coefficient
          ((n.digits ++ zeros (n.position - n.digits.length)) ++ '.' :: ['0'])
          (n.digits ++ zeros (n.position - n.digits.length)) ['0'] := by
        refine .point (Digits.append n.allDigits (digits_zeros _)) ?_
        intro c hc
        rw [List.mem_singleton.mp hc]
        rfl
      have hread := readDigits_whole n (m := (n.position - n.digits.length).toNat + 1) hcoefficient
        Exponent.none
        (by rw [List.append_assoc, zeros, List.replicate_succ'])
        (List.append_ne_nil_of_left_ne_nil n.digits_ne_nil _)
        (by
          simp only [List.length_append, zeros, List.length_replicate]
          push_cast
          omega)
      rwa [List.append_nil] at hread
  · exact readDigits_padded n _

theorem readDigits_numberText : readDigits (numberText n) = .ok (n.digits, n.position) := by
  rw [numberText]
  dsimp only
  split
  · have hread := readDigits_whole n (m := (n.position - n.digits.length).toNat)
      (Coefficient.whole (Digits.append n.allDigits (digits_zeros (n.position - n.digits.length))))
      Exponent.none
      (by rw [List.append_nil, zeros])
      (List.append_ne_nil_of_left_ne_nil n.digits_ne_nil _)
      (by
        simp only [List.length_append, zeros, List.length_replicate]
        push_cast
        omega)
    rwa [List.append_nil] at hread
  split
  · exact readDigits_point n (by omega) (by omega)
  split
  · exact readDigits_small n (by omega)
  · exact readDigits_padded n 0

/-- The layout of the digits and the position is that of JavaScript. -/
theorem layout_eq (sign : Text) :
    layout sign n.digits n.position = .ok (sign ++ numberText n) := by
  have hpos := List.length_pos_iff.mpr n.digits_ne_nil
  rw [layout, numberText]
  dsimp only
  by_cases hlarge : 0 < n.position ∧ n.position ≤ 21
  · rw [if_pos hlarge]
    by_cases hpoint : n.position < n.digits.length
    · rw [if_pos hpoint, if_neg (by omega), if_pos hlarge]
    · rw [if_neg hpoint, if_pos (by omega)]
  have hpadded : ¬ ((n.digits.length : ℤ) ≤ n.position ∧ n.position ≤ 21) := by omega
  rw [if_neg hlarge, if_neg hpadded, if_neg hlarge]
  by_cases hsmall : -6 < n.position ∧ n.position ≤ 0
  · rw [if_pos hsmall, if_pos hsmall]
  rw [if_neg hsmall, if_neg hsmall]
  have htext : (if 0 ≤ n.position - 1 then ['+'] else []) ++ integerText (n.position - 1) =
      (if n.position - 1 < 0 then '-' else '+') :: Nat.toDigits 10 (n.position - 1).natAbs := by
    rw [integerText]
    by_cases hneg : n.position - 1 < 0
    · rw [if_neg (by omega), if_pos hneg, if_pos hneg]
      rfl
    · rw [if_pos (by omega), if_neg hneg, if_neg hneg]
      rfl
  obtain ⟨d, rest, hdigits, -⟩ := n.first
  rw [hdigits, exponentLayout, htext]
  cases rest with
  | nil => rfl
  | cons d' rest => rfl

end Read

/-- The texts start with a digit, so the sign can be read off. -/
theorem numberText_ne_minus (rest : Text) : numberText n ≠ '-' :: rest := by
  intro h
  obtain ⟨d, digits, hdigits, -⟩ := n.first
  have hd : d.isDigit = true := n.allDigits d (by rw [hdigits]; exact List.mem_cons_self)
  have hfirst : d ≠ '-' := ne_of_isDigit hd rfl
  rw [numberText] at h
  dsimp only at h
  split at h
  · rw [hdigits] at h
    exact hfirst (List.cons.inj h).1
  split at h
  · rename_i hpoint
    obtain ⟨m, hm⟩ : ∃ m, n.position.toNat = m + 1 := ⟨n.position.toNat - 1, by omega⟩
    rw [hdigits, hm] at h
    exact hfirst (List.cons.inj h).1
  split at h
  · exact absurd (List.cons.inj h).1 (by decide)
  split at h
  · rw [hdigits] at h
    exact hfirst (List.cons.inj h).1
  · rw [hdigits] at h
    exact hfirst (List.cons.inj h).1

theorem numberToString_injective {negative negative' : Bool} {m n : Decimal}
    (h : numberToString negative m = numberToString negative' n) :
    negative = negative' ∧ m = n := by
  have hsame : numberText m = numberText n → m = n := by
    intro htext
    have hread := readDigits_numberText m
    rw [htext, readDigits_numberText n] at hread
    have hpair := Except.ok.inj hread
    exact Decimal.ext (congrArg Prod.fst hpair).symm (congrArg Prod.snd hpair).symm
  rw [numberToString, numberToString] at h
  cases negative with
  | false =>
    cases negative' with
    | false => exact ⟨rfl, hsame h⟩
    | true => exact absurd h (numberText_ne_minus m _)
  | true =>
    cases negative' with
    | false => exact absurd h.symm (numberText_ne_minus n _)
    | true => exact ⟨rfl, hsame (List.cons.inj h).2⟩

end Python

/-- `scalar_string` writes a finite float as JavaScript does, and two floats with different
signs, digits or positions have different texts. -/
theorem scalarString_layout (negative : Bool) (n : Decimal) :
    Python.scalarString (.finite negative n) = .ok (numberToString negative n) ∧
      ∀ negative' n', numberToString negative n = numberToString negative' n' →
        negative = negative' ∧ n = n' := by
  constructor
  · rw [Python.scalarString, Python.readDigits_reprText]
    exact Python.layout_eq n _
  · intro negative' n' h
    exact Python.numberToString_injective h

end DialCache.FloatArguments
