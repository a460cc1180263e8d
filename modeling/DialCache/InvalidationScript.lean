import DialCache.Binary64Integers
import DialCache.DecimalText
import DialCache.ExpiringKeys
import DialCache.JsValues

/-!
# The invalidation script

`INVALIDATE_CACHE_SCRIPT` moves the watermark key of one tracked entity. Lua numbers
are binary64, so every number that Redis hands to the script and every sum the script
forms goes through `nearest`, and `string.format("%.0f", n)` is the decimal of `n`.
-/

namespace DialCache.InvalidationScript

open Binary64Integers DecimalText ExpiringKeys JsValues

/-- `MAX_SUPPORTED_DURATION_MS`, 365 days. -/
def maxSupportedDurationMs : ℕ := 365 * 24 * 60 * 60 * 1000

/-- `MAX_TRACKED_REDIS_VALUE_TTL_MS`, one hour. -/
def maxTrackedRedisValueTtlMs : ℕ := 60 * 60 * 1000

def watermarkTtlMarginMs : ℕ := 60000

def minWatermarkTtlMs : ℕ := 2 * maxTrackedRedisValueTtlMs

/-- What a Redis key holds: a string, or a value of another type. -/
inductive Content (τ : Type*) where
  | string (bytes : List UInt8)
  | other (value : τ)
deriving DecidableEq

/-- Replies of the server, as commands and scripts return them. -/
inductive Reply where
  | nil
  | integer (n : ℤ)
  | bulk (bytes : List UInt8)
  | error (message : String)
deriving DecidableEq

variable {τ : Type*}

/-- The command `GET`. -/
def get (slot : Slot (Content τ)) (now : ℕ) : Reply :=
  match lookup slot now with
  | none => .nil
  | some ⟨.string bytes, _⟩ => .bulk bytes
  | some ⟨.other _, _⟩ =>
      .error "WRONGTYPE Operation against a key holding the wrong kind of value"

/-- A Redis integer reply as the Lua number the script receives. -/
def luaNumber (n : ℤ) : ℤ := if 0 ≤ n then (nearest n.toNat : ℕ) else n

def parseSafeInteger (raw : List UInt8) : Option ℕ :=
  if isDigits (codes raw) then
    let value := nearest (value (codes raw))
    if value > JsNumber.maxSafeInteger then none else some value
  else none

/-- The lifetime the script asks for before it looks at the current one. -/
def desiredTtlMs (watermark invalidatedAtMs : ℕ) : ℕ :=
  max minWatermarkTtlMs
    (nearest (nearest (nearest (watermark - invalidatedAtMs) + maxTrackedRedisValueTtlMs) +
      watermarkTtlMarginMs))

/-- The final `SET`: a longer current lifetime replaces the desired one, and a persistent
key, whose `PTTL` is `-1`, stays persistent. -/
def setWatermark (watermark now : ℕ) (currentTtlMs : ℤ) (desired : ℕ) : Slot (Content τ) :=
  let desired : ℤ := if currentTtlMs > desired then currentTtlMs else desired
  let encodedWatermark := Content.string (decimalBytes watermark)
  if currentTtlMs = -1 then setPersistent encodedWatermark
  else setPx encodedWatermark now desired.toNat

/-- The part of the script after the watermark has been read. `rawWatermark` is `none`
for Lua's `false`: the key is absent or has the wrong type. -/
def storeWatermark (rawWatermark : Option (List UInt8)) (proposedWatermark invalidatedAtMs now : ℕ)
    (slot : Slot (Content τ)) : Slot (Content τ) :=
  let currentWatermark := (rawWatermark.bind parseSafeInteger).getD 0
  let watermark := max currentWatermark proposedWatermark
  let currentTtlMs : ℤ := if rawWatermark.isSome then luaNumber (pttl slot now) else -2
  setWatermark watermark now currentTtlMs (desiredTtlMs watermark invalidatedAtMs)

def invalidateCacheScript (argv1 argv2 : List UInt8) (now : ℕ) (slot : Slot (Content τ)) :
    Reply × Slot (Content τ) :=
  match parseSafeInteger argv1 with
  | none => (.error "ERR invalid DialCache future buffer", slot)
  | some futureBufferMs =>
    if futureBufferMs > maxSupportedDurationMs then
      (.error "ERR invalid DialCache future buffer", slot)
    else
      match parseSafeInteger argv2 with
      | none => (.error "ERR invalid DialCache invalidatedAtMs", slot)
      | some invalidatedAtMs =>
        if invalidatedAtMs > JsNumber.maxSafeInteger - futureBufferMs then
          (.error "ERR invalid DialCache invalidatedAtMs", slot)
        else
          let proposedWatermark := nearest (invalidatedAtMs + futureBufferMs)
          match get slot now with
          | .error message =>
            if "WRONGTYPE ".toList.isPrefixOf message.toList then
              (.integer 1, storeWatermark none proposedWatermark invalidatedAtMs now slot)
            else (.error message, slot)
          | .bulk raw =>
            (.integer 1, storeWatermark (some raw) proposedWatermark invalidatedAtMs now slot)
          | _ => (.integer 1, storeWatermark none proposedWatermark invalidatedAtMs now slot)

/-- The arguments the script accepts: a digit string of value `buffer` up to 365 days and
a digit string of value `invalidatedAt` whose sum with it is a safe integer. -/
structure Accepts (argv1 argv2 : List UInt8) (buffer invalidatedAt : ℕ) : Prop where
  bufferDigits : isDigits (codes argv1) = true
  bufferValue : value (codes argv1) = buffer
  buffer_le : buffer ≤ 31536000000
  stampDigits : isDigits (codes argv2) = true
  stampValue : value (codes argv2) = invalidatedAt
  sum_le : buffer + invalidatedAt ≤ 2 ^ 53 - 1

/-- The stored string the script reads, if the key holds a live string. -/
def storedText (slot : Slot (Content τ)) (now : ℕ) : Option (List UInt8) :=
  match lookup slot now with
  | some ⟨.string bytes, _⟩ => some bytes
  | _ => none

/-- The watermark value of stored text: its number if it is a safe digit string, else zero. -/
def storedValue (text : Option (List UInt8)) : ℕ := (text.bind parseSafeInteger).getD 0

theorem parseSafeInteger_eq_some_iff {raw : List UInt8} {n : ℕ} :
    parseSafeInteger raw = some n ↔
      isDigits (codes raw) = true ∧ value (codes raw) = n ∧ n ≤ 2 ^ 53 - 1 := by
  unfold parseSafeInteger JsNumber.maxSafeInteger
  have hle := nearest_le_iff (n := value (codes raw)) (show 2 ^ 53 - 1 < 2 ^ 53 by norm_num)
  by_cases hd : isDigits (codes raw) = true
  · by_cases hv : value (codes raw) ≤ 2 ^ 53 - 1
    · have hn : nearest (value (codes raw)) = value (codes raw) :=
        nearest_of_lt (lt_of_le_of_lt hv (by norm_num))
      simp only [hd, hn, if_true, gt_iff_lt, not_lt.mpr hv, if_false, Option.some.injEq, true_and]
      exact ⟨fun h => ⟨h, h ▸ hv⟩, fun h => h.1⟩
    · have hn : nearest (value (codes raw)) > 2 ^ 53 - 1 := by
        by_contra hcon
        exact hv (hle.mp (not_lt.mp hcon))
      simp only [hd, hn, if_true, true_and, reduceCtorEq, false_iff, not_and]
      intro h
      omega
  · simp [hd]

@[simp] theorem storedValue_none : storedValue none = 0 := rfl

theorem storedValue_decimalBytes {n : ℕ} (h : n ≤ 2 ^ 53 - 1) :
    storedValue (some (decimalBytes n)) = n := by
  have hp : parseSafeInteger (decimalBytes n) = some n :=
    parseSafeInteger_eq_some_iff.mpr (by simpa using h)
  simp [storedValue, hp]

theorem storedValue_le (text : Option (List UInt8)) : storedValue text ≤ 2 ^ 53 - 1 := by
  unfold storedValue
  cases h : text.bind parseSafeInteger with
  | none => simp
  | some n =>
    obtain ⟨raw, -, hraw⟩ := Option.bind_eq_some_iff.mp h
    exact (parseSafeInteger_eq_some_iff.mp hraw).2.2

theorem storedText_string {bytes : List UInt8} {expiresAt : WithTop ℕ} {now : ℕ}
    (h : (⟨.string bytes, expiresAt⟩ : Entry (Content τ)).aliveAt now) :
    storedText (some ⟨.string bytes, expiresAt⟩ : Slot (Content τ)) now = some bytes := by
  rw [storedText, lookup_some h]

/-- Arguments outside the accepted domain are answered with an error and change nothing. -/
theorem invalidateCacheScript_rejected {argv1 argv2 : List UInt8}
    (h : ∀ buffer invalidatedAt, ¬ Accepts argv1 argv2 buffer invalidatedAt)
    (now : ℕ) (slot : Slot (Content τ)) :
    ∃ message, invalidateCacheScript argv1 argv2 now slot = (.error message, slot) := by
  rw [invalidateCacheScript]
  cases h1 : parseSafeInteger argv1 with
  | none => exact ⟨_, rfl⟩
  | some buffer =>
    dsimp only
    split
    · exact ⟨_, rfl⟩
    · rename_i hb
      cases h2 : parseSafeInteger argv2 with
      | none => exact ⟨_, rfl⟩
      | some invalidatedAt =>
        dsimp only
        split
        · exact ⟨_, rfl⟩
        · rename_i hs
          obtain ⟨hd1, hv1, -⟩ := parseSafeInteger_eq_some_iff.mp h1
          obtain ⟨hd2, hv2, -⟩ := parseSafeInteger_eq_some_iff.mp h2
          simp only [maxSupportedDurationMs] at hb
          simp only [JsNumber.maxSafeInteger] at hs
          exact absurd ⟨hd1, hv1, by omega, hd2, hv2, by omega⟩ (h buffer invalidatedAt)

/-- Accepted arguments always store a watermark. -/
theorem invalidateCacheScript_accepted {argv1 argv2 : List UInt8} {buffer invalidatedAt : ℕ}
    (h : Accepts argv1 argv2 buffer invalidatedAt) (now : ℕ) (slot : Slot (Content τ)) :
    invalidateCacheScript argv1 argv2 now slot =
      (.integer 1, storeWatermark (storedText slot now) (invalidatedAt + buffer)
        invalidatedAt now slot) := by
  obtain ⟨hd1, hv1, hb, hd2, hv2, hs⟩ := h
  have h1 : parseSafeInteger argv1 = some buffer :=
    parseSafeInteger_eq_some_iff.mpr ⟨hd1, hv1, by omega⟩
  have h2 : parseSafeInteger argv2 = some invalidatedAt :=
    parseSafeInteger_eq_some_iff.mpr ⟨hd2, hv2, by omega⟩
  have hb' : ¬ buffer > maxSupportedDurationMs := by
    unfold maxSupportedDurationMs
    omega
  have hs' : ¬ invalidatedAt > JsNumber.maxSafeInteger - buffer := by
    unfold JsNumber.maxSafeInteger
    omega
  have hn : nearest (invalidatedAt + buffer) = invalidatedAt + buffer :=
    nearest_of_lt (by omega)
  simp only [invalidateCacheScript, h1, h2, if_neg hb', if_neg hs', hn, get, storedText]
  cases hl : lookup slot now with
  | none => rfl
  | some e =>
    obtain ⟨content, expiresAt⟩ := e
    cases content <;> rfl

theorem maxTrackedRedisValueTtlMs_eq : maxTrackedRedisValueTtlMs = 3600000 := by
  norm_num [maxTrackedRedisValueTtlMs]

theorem minWatermarkTtlMs_eq : minWatermarkTtlMs = 7200000 := by
  norm_num [minWatermarkTtlMs, maxTrackedRedisValueTtlMs]

theorem minWatermarkTtlMs_le_desiredTtlMs (watermark invalidatedAtMs : ℕ) :
    7200000 ≤ desiredTtlMs watermark invalidatedAtMs := by
  rw [desiredTtlMs, minWatermarkTtlMs_eq]
  exact le_max_left _ _

/-- The script asks for an hour and a minute past the fence it was given, however large
the stored watermark is. -/
theorem le_desiredTtlMs {watermark invalidatedAtMs buffer : ℕ} (hb : buffer ≤ 31536000000)
    (h : invalidatedAtMs + buffer ≤ watermark) :
    buffer + 3660000 ≤ desiredTtlMs watermark invalidatedAtMs := by
  have h1 : buffer ≤ nearest (watermark - invalidatedAtMs) := le_nearest (by omega) (by omega)
  have h2 : buffer + 3600000 ≤
      nearest (nearest (watermark - invalidatedAtMs) + maxTrackedRedisValueTtlMs) :=
    le_nearest (by unfold maxTrackedRedisValueTtlMs; omega) (by omega)
  have h3 := le_nearest (m := buffer + 3660000)
    (n := nearest (nearest (watermark - invalidatedAtMs) + maxTrackedRedisValueTtlMs) +
      watermarkTtlMarginMs) (by unfold watermarkTtlMarginMs; omega) (by omega)
  exact le_trans h3 (le_max_right _ _)

/-- Within the exact integers the lifetime is the documented formula. -/
theorem desiredTtlMs_eq {watermark invalidatedAtMs : ℕ}
    (h : watermark - invalidatedAtMs + 3660000 < 2 ^ 53) :
    desiredTtlMs watermark invalidatedAtMs =
      max 7200000 (watermark - invalidatedAtMs + 3660000) := by
  rw [desiredTtlMs, minWatermarkTtlMs_eq, maxTrackedRedisValueTtlMs_eq, watermarkTtlMarginMs]
  generalize watermark - invalidatedAtMs = window at h ⊢
  have hsum : nearest (window + 3600000 + 60000) = window + 3660000 :=
    (nearest_of_lt (by linarith)).trans (by linarith)
  rw [nearest_of_lt (n := window) (by omega), nearest_of_lt (n := window + 3600000) (by omega),
    hsum]

theorem setWatermark_absent (watermark now desired : ℕ) :
    setWatermark watermark now (-2) desired =
      (setPx (.string (decimalBytes watermark)) now desired : Slot (Content τ)) := by
  have hlt : ¬ ((-2 : ℤ) > desired) := by omega
  simp [setWatermark, hlt]

theorem setWatermark_persistent (watermark now desired : ℕ) :
    setWatermark watermark now (-1) desired =
      (setPersistent (.string (decimalBytes watermark)) : Slot (Content τ)) := by
  simp [setWatermark]

theorem setWatermark_remaining (watermark now remaining desired : ℕ) :
    setWatermark watermark now remaining desired =
      (setPx (.string (decimalBytes watermark)) now (max remaining desired) :
        Slot (Content τ)) := by
  have hne : ¬ ((remaining : ℤ) = -1) := by omega
  have hmax : (if (remaining : ℤ) > desired then (remaining : ℤ) else desired).toNat =
      max remaining desired := by
    split <;> omega
  simp only [setWatermark, if_neg hne, hmax]

/-- The transition on an absent or wrong-type key. -/
theorem storeWatermark_none (proposed invalidatedAt now : ℕ) (slot : Slot (Content τ)) :
    storeWatermark none proposed invalidatedAt now slot =
      setPx (.string (decimalBytes proposed)) now (desiredTtlMs proposed invalidatedAt) := by
  rw [← setWatermark_absent]
  simp only [storeWatermark, Option.bind_none, Option.getD_none, Nat.zero_max, Option.isSome_none,
    Bool.false_eq_true, if_false]

theorem luaNumber_natCast (n : ℕ) : luaNumber n = (nearest n : ℕ) := by
  rw [luaNumber, if_pos (Int.natCast_nonneg n), Int.toNat_natCast]

/-- The transition on a persistent string. -/
theorem storeWatermark_persistent (raw : List UInt8) (proposed invalidatedAt now : ℕ) :
    storeWatermark (some raw) proposed invalidatedAt now
        (some ⟨.string raw, ⊤⟩ : Slot (Content τ)) =
      setPersistent (.string (decimalBytes (max (storedValue (some raw)) proposed))) := by
  have hp : luaNumber (pttl (some ⟨.string raw, ⊤⟩ : Slot (Content τ)) now) = -1 := by
    rw [pttl_persistent, luaNumber, if_neg (by omega)]
  rw [storeWatermark, Option.isSome_some, if_pos rfl, hp, setWatermark_persistent, storedValue]

/-- The transition on a string with a remaining lifetime: the new lifetime is the larger
of the desired one and the remaining one as a Lua number. -/
theorem storeWatermark_expiring (raw : List UInt8) (proposed invalidatedAt : ℕ)
    {now expiry : ℕ} (h : now < expiry) :
    storeWatermark (some raw) proposed invalidatedAt now
        (some ⟨.string raw, WithTop.some expiry⟩ : Slot (Content τ)) =
      setPx (.string (decimalBytes (max (storedValue (some raw)) proposed))) now
        (max (nearest (expiry - now))
          (desiredTtlMs (max (storedValue (some raw)) proposed) invalidatedAt)) := by
  have hp : luaNumber (pttl (some ⟨.string raw, WithTop.some expiry⟩ : Slot (Content τ)) now) =
      (nearest (expiry - now) : ℕ) := by
    rw [pttl_coe h, ← Int.natCast_sub h.le, luaNumber_natCast]
  rw [storeWatermark, Option.isSome_some, if_pos rfl, hp, setWatermark_remaining, storedValue]

end DialCache.InvalidationScript
