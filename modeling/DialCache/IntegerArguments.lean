import DialCache.KeyAgreement
import DialCache.DecimalText
import DialCache.ShortestDecimals

/-!
# Integers as key arguments

A native integer becomes the text of an argument on three ways. Go converts it to a double
and prints the double, Rust prints the integer, and Python prints chunks of nine digits.
Python and Rust write the decimal of the integer. Go writes the shortest decimal of the
nearest double, which is another integer for most integers past `2^53`.
-/

namespace DialCache.IntegerArguments

open UnicodeText PortableKeys KeyAgreement DecimalText Binary64Integers ShortestDecimals
open KeyAgreement.Python (codePoints)

/-- The canonical decimal of an integer. -/
def integerText (value : ℤ) : Text :=
  if value < 0 then '-' :: Nat.toDigits 10 value.natAbs else Nat.toDigits 10 value.natAbs

/-! ### Go -/

namespace Go

/-- `float64(value.Int())` and `float64(value.Uint())`. -/
def scalarNumber (value : ℤ) : ℤ := value.sign * nearest value.natAbs

/-- `encoding/json` writes no exponent below this double. -/
def exponentThreshold : ℕ := 10 ^ 21

/-- A double of `exponentThreshold` or more: one digit, the other significant ones, an exponent. -/
def exponentText (value : ℕ) : Text :=
  let digits := Nat.toDigits 10 (shortest value / 10 ^ zeros (shortest value))
  let fraction := digits.drop 1
  digits.take 1 ++ (if fraction.isEmpty then [] else '.' :: fraction) ++ ['e', '+'] ++
    Nat.toDigits 10 ((Nat.toDigits 10 (shortest value)).length - 1)

/-- `numberString` of an integral double. -/
def numberString (value : ℤ) : Text :=
  if value = 0 then ['0']
  else
    (if value < 0 then ['-'] else []) ++
      if value.natAbs < exponentThreshold then Nat.toDigits 10 (shortest value.natAbs)
      else exponentText value.natAbs

/-- `NormalizeArgs` of one integer argument. -/
def normalizeInteger (name : Bytes) (value : ℤ) : Except String (List (Bytes × Bytes)) :=
  KeyAgreement.Go.normalizeArgs [(name, .text (encodeUtf8 (numberString (scalarNumber value))))]

end Go

/-! ### Rust -/

namespace Rust

/-- `normalize_args` of one `ArgValue::Int`. -/
def normalizeInteger (name : Text) (value : ℤ) : List (Text × Text) :=
  KeyAgreement.Rust.normalizeArgs [(name, .text (integerText value))]

end Rust

/-! ### Python -/

namespace Python

open KeyAgreement.Python

def chunk : ℕ := 1000000000

/-- The loop of `_integer_string`. -/
def chunks (value : ℕ) (parts : List ℕ) : ℕ × List ℕ :=
  if chunk ≤ value then chunks (value / chunk) (parts ++ [value % chunk]) else (value, parts)
termination_by value
decreasing_by
  rw [chunk] at *
  omega

/-- `f"{part:09d}"` at any width. -/
def padded (width part : ℕ) : Text :=
  List.replicate (width - (Nat.toDigits 10 part).length) '0' ++ Nat.toDigits 10 part

def integerString (value : ℤ) : Text :=
  let result := chunks value.natAbs []
  let text := Nat.toDigits 10 result.1 ++ result.2.reverse.flatMap (padded 9)
  if value < 0 then '-' :: text else text

/-- `normalize_args` of one integer argument. -/
def normalizeInteger (name : PyString) (value : ℤ) : List (PyString × PyString) :=
  KeyAgreement.Python.normalizeArgs [(name, .text (codePoints (integerString value)))]

end Python

/-! ### Digits -/

/-- The last `width` digits of a number. -/
def lastDigits : ℕ → ℕ → Text
  | 0, _ => []
  | width + 1, n => lastDigits width (n / 10) ++ [(n % 10).digitChar]

theorem toDigits_of_ge {n : ℕ} (h : 10 ≤ n) :
    Nat.toDigits 10 n = Nat.toDigits 10 (n / 10) ++ [(n % 10).digitChar] := by
  have hsplit := Nat.toDigits_append_toDigits (b := 10) (n := n / 10) (d := n % 10) (by norm_num)
    (by omega) (by omega)
  rw [Nat.toDigits_of_lt_base (b := 10) (n := n % 10) (by omega), Nat.div_add_mod] at hsplit
  exact hsplit.symm

theorem toDigits_split {width n : ℕ} (h : 10 ^ width ≤ n) :
    Nat.toDigits 10 n = Nat.toDigits 10 (n / 10 ^ width) ++ lastDigits width n := by
  induction width generalizing n with
  | zero => rw [pow_zero, Nat.div_one, lastDigits, List.append_nil]
  | succ width ih =>
    have hten : 10 ≤ n := by
      have hpos : 1 ≤ 10 ^ width := Nat.one_le_pow _ _ (by norm_num)
      rw [pow_succ] at h
      omega
    have hrest : 10 ^ width ≤ n / 10 := by
      rw [Nat.le_div_iff_mul_le (by norm_num), ← pow_succ]
      exact h
    rw [toDigits_of_ge hten, ih hrest, lastDigits, List.append_assoc, Nat.div_div_eq_div_mul,
      ← pow_succ']

theorem lastDigits_mod (width n : ℕ) : lastDigits width (n % 10 ^ width) = lastDigits width n := by
  induction width generalizing n with
  | zero => rfl
  | succ width ih =>
    have hdiv : n % 10 ^ (width + 1) / 10 = n / 10 % 10 ^ width := by
      rw [pow_succ', Nat.mod_mul_right_div_self]
    have hmod : n % 10 ^ (width + 1) % 10 = n % 10 :=
      Nat.mod_mod_of_dvd n (Dvd.intro_left _ (pow_succ 10 width).symm)
    rw [lastDigits, lastDigits, hdiv, hmod, ih]

theorem lastDigits_zero (width : ℕ) : lastDigits width 0 = List.replicate width '0' := by
  induction width with
  | zero => rfl
  | succ width ih =>
    rw [lastDigits, Nat.zero_div, ih, List.replicate_succ']
    rfl

namespace Python

/-- Padding writes the last digits. -/
theorem padded_eq {width part : ℕ} (h : part < 10 ^ (width + 1)) :
    padded (width + 1) part = lastDigits (width + 1) part := by
  induction width generalizing part with
  | zero =>
    have hpart : part < 10 := h
    rw [padded, Nat.toDigits_of_lt_base hpart, lastDigits, lastDigits, Nat.mod_eq_of_lt hpart]
    rfl
  | succ width ih =>
    rcases Nat.lt_or_ge part 10 with hsmall | hlarge
    · rw [padded, Nat.toDigits_of_lt_base hsmall, lastDigits, Nat.div_eq_of_lt hsmall, lastDigits_zero,
        Nat.mod_eq_of_lt hsmall]
      rfl
    · have hrest : part / 10 < 10 ^ (width + 1) := by
        rw [Nat.div_lt_iff_lt_mul (by norm_num), ← pow_succ]
        exact h
      rw [lastDigits, ← ih hrest, padded, padded, toDigits_of_ge hlarge, List.length_append,
        List.length_singleton, Nat.add_sub_add_right, List.append_assoc]

/-- The loop keeps the digits of what it has still to split and of the parts. -/
theorem chunks_text (value : ℕ) (parts : List ℕ) :
    Nat.toDigits 10 (chunks value parts).1 ++ (chunks value parts).2.reverse.flatMap (padded 9) =
      Nat.toDigits 10 value ++ parts.reverse.flatMap (padded 9) := by
  fun_induction chunks value parts with
  | case1 value parts h ih =>
    have hpart : padded 9 (value % chunk) = lastDigits 9 value := by
      have hlt : value % chunk < 10 ^ 9 := Nat.mod_lt _ (by norm_num [chunk])
      rw [padded_eq hlt]
      exact lastDigits_mod 9 value
    have hsplit : Nat.toDigits 10 value = Nat.toDigits 10 (value / chunk) ++ lastDigits 9 value :=
      toDigits_split (show 10 ^ 9 ≤ value from h)
    rw [ih, List.reverse_append, List.reverse_singleton, List.singleton_append, List.flatMap_cons,
      hpart, hsplit, List.append_assoc]
  | case2 value parts h => rfl

theorem integerString_eq (value : ℤ) : integerString value = integerText value := by
  have htext := chunks_text value.natAbs []
  rw [List.reverse_nil, List.flatMap_nil, List.append_nil] at htext
  rw [integerString, integerText, htext]

end Python

/-! ### One argument -/

variable (name : Text)

theorem normalize_text (value : Text) : normalize [(name, .text value)] = [(name, value)] := by
  rw [KeyAgreement.normalize]
  exact List.mergeSort_singleton _

theorem nodup_one (value : Text) : ([(name, ArgValue.text value)].map Prod.fst).Nodup :=
  List.nodup_singleton name

theorem goPair (value : Text) :
    KeyAgreement.Go.normalizeArgs [(encodeUtf8 name, .text (encodeUtf8 value))] =
      .ok [(encodeUtf8 name, encodeUtf8 value)] := by
  have hpair := KeyAgreement.Go.normalizeArgs_write (nodup_one name value)
    (List.Perm.refl [(name, ArgValue.text value)])
  rw [normalize_text] at hpair
  exact hpair

theorem rustPair (value : Text) :
    KeyAgreement.Rust.normalizeArgs [(name, .text value)] = [(name, value)] := by
  rw [KeyAgreement.Rust.normalizeArgs_eq (nodup_one name value) (List.Perm.refl _), normalize_text]

theorem pythonPair (value : Text) :
    KeyAgreement.Python.normalizeArgs
        [(codePoints name, .text (codePoints value))] =
      [(codePoints name, codePoints value)] := by
  have hpair := KeyAgreement.Python.normalizeArgs_write (nodup_one name value)
    (List.Perm.refl [(name, ArgValue.text value)])
  rw [normalize_text] at hpair
  exact hpair

theorem toDigits_injective {m n : ℕ} (h : Nat.toDigits 10 m = Nat.toDigits 10 n) : m = n := by
  have hvalue := congrArg (Nat.ofDigitChars 10 · 0) h
  rwa [Nat.ofDigitChars_ten_toDigits, Nat.ofDigitChars_ten_toDigits] at hvalue

theorem minus_notMem_toDigits (n : ℕ) : '-' ∉ Nat.toDigits 10 n := by
  intro h
  have hdigit := Nat.isDigit_of_mem_toDigits (by norm_num) (by norm_num) h
  exact absurd hdigit (by decide)

theorem integerText_injective : Function.Injective integerText := by
  intro m n h
  unfold integerText at h
  split at h <;> split at h
  · have habs := toDigits_injective (List.cons.inj h).2
    omega
  · exact absurd (h ▸ List.mem_cons_self) (minus_notMem_toDigits _)
  · exact absurd (h ▸ List.mem_cons_self) (minus_notMem_toDigits _)
  · have habs := toDigits_injective h
    omega

theorem nearest_lt_exponentThreshold {n : ℕ} (h : n < 2 ^ 64) : nearest n < Go.exponentThreshold := by
  have hmono := nearest_mono (Nat.le_of_lt h)
  have hexact : nearest (2 ^ 64) = 2 ^ 64 := by
    have hself := nearest_mul_two_pow (k := 1) (s := 64) (by norm_num)
    rwa [Nat.one_mul] at hself
  have hbound : 2 ^ 64 < Go.exponentThreshold := by norm_num [Go.exponentThreshold]
  omega

variable {value : ℤ}

/-- Go's text of a 64-bit integer: the shortest decimal of the double. -/
theorem numberString_scalarNumber (hvalue : value ≠ 0) (h : value.natAbs < 2 ^ 64) :
    Go.numberString (Go.scalarNumber value) =
      (if value < 0 then ['-'] else []) ++ Nat.toDigits 10 (shortest (nearest value.natAbs)) := by
  have hlt := nearest_lt_exponentThreshold h
  have hpos : nearest value.natAbs ≠ 0 := by
    have hhalf := lt_two_mul_nearest (Int.natAbs_ne_zero.mpr hvalue)
    omega
  rcases Int.lt_or_gt_of_ne hvalue with hneg | hpositive
  · have hnumber : Go.scalarNumber value = -(nearest value.natAbs : ℤ) := by
      rw [Go.scalarNumber, Int.sign_eq_neg_one_of_neg hneg]
      omega
    rw [hnumber, Go.numberString, if_neg (by omega), if_pos (by omega), Int.natAbs_neg, Int.natAbs_natCast,
      if_pos hlt, if_pos hneg]
  · have hnumber : Go.scalarNumber value = (nearest value.natAbs : ℤ) := by
      rw [Go.scalarNumber, Int.sign_eq_one_of_pos hpositive]
      omega
    rw [hnumber, Go.numberString, if_neg (by omega), if_neg (by omega), Int.natAbs_natCast, if_pos hlt,
      if_neg (by omega)]

/-- Go spells an integer exactly when no other integer is preferred for its double. -/
theorem goText_iff (h : value.natAbs < 2 ^ 64) :
    Go.numberString (Go.scalarNumber value) = integerText value ↔ Preferred value.natAbs := by
  by_cases hvalue : value = 0
  · subst hvalue
    exact iff_of_true rfl (preferred_of_le (Nat.zero_le _))
  · rw [← shortest_nearest_iff (Int.natAbs_ne_zero.mpr hvalue), numberString_scalarNumber hvalue h,
      integerText]
    constructor
    · intro htext
      split at htext
      · exact toDigits_injective (List.cons.inj htext).2
      · exact toDigits_injective htext
    · intro hshortest
      rw [hshortest]
      split <;> rfl

/-- What the ports owe for two integers under one argument name. -/
structure IntegerIdentity (name : Text) (m n : ℤ) : Prop where
  goSame : Go.normalizeInteger (encodeUtf8 name) m = Go.normalizeInteger (encodeUtf8 name) n ↔ m = n
  goText : ∀ value, value = m ∨ value = n →
    Go.normalizeInteger (encodeUtf8 name) value = .ok [(encodeUtf8 name, encodeUtf8 (integerText value))]
  rustSame : Rust.normalizeInteger name m = Rust.normalizeInteger name n ↔ m = n
  rustText : ∀ value, value = m ∨ value = n →
    Rust.normalizeInteger name value = [(name, integerText value)]
  pythonSame : Python.normalizeInteger (codePoints name) m =
    Python.normalizeInteger (codePoints name) n ↔ m = n
  pythonText : ∀ value, value = m ∨ value = n →
    Python.normalizeInteger (codePoints name) value =
      [(codePoints name, codePoints (integerText value))]

theorem encodeUtf8_inj {s t : Text} (h : encodeUtf8 s = encodeUtf8 t) : s = t := by
  rw [← decodeUtf8_encodeUtf8 s, h, decodeUtf8_encodeUtf8]

theorem rust_text (value : ℤ) : Rust.normalizeInteger name value = [(name, integerText value)] :=
  rustPair name (integerText value)

theorem rust_same (m n : ℤ) :
    Rust.normalizeInteger name m = Rust.normalizeInteger name n ↔ m = n := by
  constructor
  · intro h
    rw [rust_text, rust_text] at h
    exact integerText_injective (Prod.mk.inj (List.cons.inj h).1).2
  · intro h
    rw [h]

theorem python_text (value : ℤ) :
    Python.normalizeInteger (codePoints name) value =
      [(codePoints name, codePoints (integerText value))] := by
  rw [Python.normalizeInteger, Python.integerString_eq]
  exact pythonPair name (integerText value)

theorem codePoints_inj {s t : Text}
    (h : codePoints s = codePoints t) : s = t := by
  have hunits := congrArg KeyAgreement.Python.utf16Units h
  rw [KeyAgreement.Python.utf16Units_codePoints, KeyAgreement.Python.utf16Units_codePoints] at hunits
  rw [← scalars_units s, hunits, scalars_units]

theorem python_same (m n : ℤ) :
    Python.normalizeInteger (codePoints name) m =
      Python.normalizeInteger (codePoints name) n ↔ m = n := by
  constructor
  · intro h
    rw [python_text, python_text] at h
    exact integerText_injective (codePoints_inj (Prod.mk.inj (List.cons.inj h).1).2)
  · intro h
    rw [h]

theorem go_text_iff (h : value.natAbs < 2 ^ 64) :
    Go.normalizeInteger (encodeUtf8 name) value =
        .ok [(encodeUtf8 name, encodeUtf8 (integerText value))] ↔ Preferred value.natAbs := by
  rw [← goText_iff h, Go.normalizeInteger, goPair]
  constructor
  · intro hpair
    exact encodeUtf8_inj (Prod.mk.inj (List.cons.inj (Except.ok.inj hpair)).1).2
  · intro htext
    rw [htext]

/-- Two 64-bit integers are spelled as they are, and told apart, in all ports exactly when no
other integer is preferred for the double of one of them. Python spells every integer. -/
theorem integerIdentity_iff (name : Text) (m n : ℤ) :
    (-2 ^ 63 ≤ m → m < 2 ^ 64 → -2 ^ 63 ≤ n → n < 2 ^ 64 →
      (IntegerIdentity name m n ↔ Preferred m.natAbs ∧ Preferred n.natAbs)) ∧
    (Python.normalizeInteger (codePoints name) m =
      Python.normalizeInteger (codePoints name) n ↔ m = n) ∧
    Python.normalizeInteger (codePoints name) m =
      [(codePoints name, codePoints (integerText m))] := by
  constructor
  · intro hm hm' hn hn'
    have hmabs : m.natAbs < 2 ^ 64 := by omega
    have hnabs : n.natAbs < 2 ^ 64 := by omega
    constructor
    · intro h
      exact ⟨(go_text_iff name hmabs).mp (h.goText m (Or.inl rfl)),
        (go_text_iff name hnabs).mp (h.goText n (Or.inr rfl))⟩
    · intro h
      have hmtext := (go_text_iff name hmabs).mpr h.1
      have hntext := (go_text_iff name hnabs).mpr h.2
      refine ⟨?_, ?_, rust_same name m n, fun value _ => rust_text name value, python_same name m n,
        fun value _ => python_text name value⟩
      · constructor
        · intro hpair
          rw [hmtext, hntext] at hpair
          exact integerText_injective
            (encodeUtf8_inj (Prod.mk.inj (List.cons.inj (Except.ok.inj hpair)).1).2)
        · intro hsame
          rw [hsame]
      · intro value hvalue
        rcases hvalue with rfl | rfl
        · exact hmtext
        · exact hntext
  · exact ⟨python_same name m n, python_text name m⟩

/-- Two integers that every double holds. -/
theorem integerIdentity_small : IntegerIdentity ['n'] 7 (-8) :=
  ((integerIdentity_iff ['n'] 7 (-8)).1 (by norm_num) (by norm_num) (by norm_num) (by norm_num)).mpr
    ⟨preferred_of_le (by norm_num), preferred_of_le (by norm_num)⟩

/-- Two entities with one key: `2^53` and `2^53 + 1` under the name `n`. -/
theorem go_confuses_neighbours :
    Go.normalizeInteger (encodeUtf8 ['n']) 9007199254740992 =
        Go.normalizeInteger (encodeUtf8 ['n']) 9007199254740993 ∧
      ¬ IntegerIdentity ['n'] 9007199254740992 9007199254740993 := by
  have hdouble : Go.scalarNumber 9007199254740992 = Go.scalarNumber 9007199254740993 := by decide +kernel
  have hsame : Go.normalizeInteger (encodeUtf8 ['n']) 9007199254740992 =
      Go.normalizeInteger (encodeUtf8 ['n']) 9007199254740993 := by
    rw [Go.normalizeInteger, hdouble, ← Go.normalizeInteger]
  refine ⟨hsame, ?_⟩
  intro h
  exact absurd (h.goSame.mp hsame) (by norm_num)

end DialCache.IntegerArguments
