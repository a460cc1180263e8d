import Mathlib.Data.Nat.Basic

/-!
# ASCII decimal text

Text is a list of character codes, so that byte strings and UTF-16 strings share one
notion of a decimal numeral. A numeral is a nonempty run of digits, with leading
zeros allowed, and `decimal` writes the one without them.
-/

namespace DialCache.DecimalText

def isDigit (c : ℕ) : Bool := 48 ≤ c && c ≤ 57

/-- The pattern `^[0-9]+$`. -/
def isDigits (codes : List ℕ) : Bool := !codes.isEmpty && codes.all isDigit

/-- The number a run of digits denotes. -/
def value (codes : List ℕ) : ℕ := codes.foldl (fun n c => 10 * n + (c - 48)) 0

/-- The canonical numeral of a natural number. -/
def decimal (n : ℕ) : List ℕ := (Nat.toDigits 10 n).map Char.toNat

theorem isDigit_of_mem_decimal {n c : ℕ} (h : c ∈ decimal n) : isDigit c = true := by
  obtain ⟨d, hd, rfl⟩ := List.mem_map.mp h
  have hdigit := Nat.isDigit_of_mem_toDigits (by decide) (by decide) hd
  simp only [Char.isDigit, Bool.and_eq_true, decide_eq_true_eq, ge_iff_le] at hdigit
  simp only [isDigit, Bool.and_eq_true, decide_eq_true_eq]
  exact ⟨UInt32.le_iff_toNat_le.mp hdigit.1, UInt32.le_iff_toNat_le.mp hdigit.2⟩

@[simp] theorem isDigits_decimal (n : ℕ) : isDigits (decimal n) = true := by
  have hne : decimal n ≠ [] := by simp [decimal, Nat.toDigits_ne_nil]
  simp only [isDigits, Bool.and_eq_true, List.all_eq_true]
  exact ⟨by simpa using hne, fun c hc => isDigit_of_mem_decimal hc⟩

@[simp] theorem value_decimal (n : ℕ) : value (decimal n) = n := by
  have h := Nat.ofDigitChars_ten_toDigits (n := n)
  simpa [value, decimal, Nat.ofDigitChars, List.foldl_map] using h

theorem lt_of_mem_decimal {n c : ℕ} (h : c ∈ decimal n) : c < 128 := by
  have hd := isDigit_of_mem_decimal h
  simp only [isDigit, Bool.and_eq_true, decide_eq_true_eq] at hd
  omega

def codes (bytes : List UInt8) : List ℕ := bytes.map UInt8.toNat

/-- The ASCII bytes of the canonical numeral. -/
def decimalBytes (n : ℕ) : List UInt8 := (decimal n).map UInt8.ofNat

@[simp] theorem codes_decimalBytes (n : ℕ) : codes (decimalBytes n) = decimal n := by
  have hbyte : ∀ c ∈ decimal n, (UInt8.toNat ∘ UInt8.ofNat) c = id c := by
    intro c hc
    have := lt_of_mem_decimal hc
    simp only [Function.comp_apply, UInt8.toNat_ofNat', id_eq]
    omega
  rw [codes, decimalBytes, List.map_map, List.map_congr_left hbyte, List.map_id]

end DialCache.DecimalText
