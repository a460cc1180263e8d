import Mathlib.Data.Rat.Init
import Mathlib.Data.Nat.Basic
import Mathlib.Algebra.Group.Nat.Defs

/-!
# JavaScript values

The values a JavaScript library meets at its untyped boundaries. Numbers are exact
rationals with the three special values, strings are UTF-16 code units, and objects are
member lists in insertion order. Values that are neither primitives of these kinds nor
plain data, such as functions and symbols, are `foreign`.
-/

namespace DialCache.JsValues

inductive JsNumber where
  | finite (value : ℚ)
  | nan
  | infinite (negative : Bool)
deriving DecidableEq

namespace JsNumber

def ofInt (n : ℤ) : JsNumber := .finite n

/-- `Number.MAX_SAFE_INTEGER`. -/
def maxSafeInteger : ℕ := 2 ^ 53 - 1

/-- The integer a safe integer denotes. -/
def safeInteger? : JsNumber → Option ℤ
  | .finite q => if q.den = 1 ∧ q.num.natAbs ≤ maxSafeInteger then some q.num else none
  | _ => none

/-- `x > n`. -/
def isAbove (n : ℤ) : JsNumber → Bool
  | .finite q => n < q
  | .nan => false
  | .infinite negative => !negative

/-- `x >= n`. -/
def isAtLeast (n : ℤ) : JsNumber → Bool
  | .finite q => n ≤ q
  | .nan => false
  | .infinite negative => !negative

/-- `x < n`. -/
def isBelow (n : ℤ) : JsNumber → Bool
  | .finite q => q < n
  | .nan => false
  | .infinite negative => negative

/-- `n - x`. -/
def subtractFrom (n : ℤ) : JsNumber → JsNumber
  | .finite q => .finite (n - q)
  | .nan => .nan
  | .infinite negative => .infinite (!negative)

/-- `x / 1_000`. -/
def seconds : JsNumber → JsNumber
  | .finite q => .finite (q / 1000)
  | x => x

theorem safeInteger?_ofInt {n : ℤ} (h : n.natAbs ≤ maxSafeInteger) :
    (ofInt n).safeInteger? = some n := by
  simp [ofInt, safeInteger?, h]

theorem eq_ofInt_of_safeInteger? {x : JsNumber} {n : ℤ} (h : x.safeInteger? = some n) :
    x = ofInt n ∧ n.natAbs ≤ maxSafeInteger := by
  cases x with
  | finite q =>
    simp only [safeInteger?] at h
    split at h
    · rename_i hq
      obtain rfl := Option.some.inj h
      have hcast : ((q.num : ℤ) : ℚ) = q := Rat.ext (by simp) (by simp [hq.1])
      exact ⟨by rw [ofInt, hcast], hq.2⟩
    · cases h
  | nan => cases h
  | infinite negative => cases h

end JsNumber

inductive JsValue where
  | undefined
  | null
  | boolean (value : Bool)
  | number (value : JsNumber)
  | string (units : List UInt16)
  | array (items : List JsValue)
  | object (members : List (List UInt16 × JsValue))
  | foreign

/-- The code units of an ASCII literal. -/
def text (literal : String) : List UInt16 := literal.toList.map fun c => UInt16.ofNat c.toNat

namespace JsValue

/-- `value.name`, and `undefined` where there is no such member. -/
def member (name : String) : JsValue → JsValue
  | .object members => ((members.find? fun m => m.1 = text name).map (·.2)).getD .undefined
  | _ => .undefined

/-- `Object.hasOwn(value, name)`. -/
def hasOwn (name : String) : JsValue → Bool
  | .object members => members.any fun m => m.1 = text name
  | _ => false

/-- `first !== undefined ? first : second`. -/
def orElse : JsValue → JsValue → JsValue
  | .undefined, second => second
  | first, _ => first

/-- A nonnegative safe integer, as the natural number it denotes. -/
def natural? : JsValue → Option ℕ
  | .number x => x.safeInteger?.bind fun n => if 0 ≤ n then some n.toNat else none
  | _ => none

theorem natural?_ofInt {n : ℕ} (h : n ≤ JsNumber.maxSafeInteger) :
    natural? (.number (.ofInt n)) = some n := by
  rw [natural?, JsNumber.safeInteger?_ofInt (by simpa using h)]
  simp

theorem eq_of_natural? {v : JsValue} {n : ℕ} (h : natural? v = some n) :
    v = .number (.ofInt n) ∧ n ≤ JsNumber.maxSafeInteger := by
  cases v with
  | number x =>
    obtain ⟨i, hi, hn⟩ := Option.bind_eq_some_iff.mp h
    obtain ⟨rfl, hle⟩ := JsNumber.eq_ofInt_of_safeInteger? hi
    split at hn
    · rename_i hpos
      obtain rfl := Option.some.inj hn
      refine ⟨by rw [Int.toNat_of_nonneg hpos], by omega⟩
    · cases hn
  | _ => cases h

end JsValue

end DialCache.JsValues
