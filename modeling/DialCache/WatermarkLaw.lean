import Mathlib.Data.List.Induction
import Mathlib.Data.List.Perm.Basic
import DialCache.InvalidationScript

/-!
# Runs of invalidations on one watermark key

Any sequence of script executions from any prior state of the key. The content is the
maximum of what was accepted; the expiry instant of a string is kept as long as Redis
hands the script the remaining lifetime without rounding it down.
-/

namespace DialCache.WatermarkLaw

open Binary64Integers DecimalText ExpiringKeys InvalidationScript

variable {τ : Type*}

/-- One execution of the script: its two arguments and the server time. -/
structure Execution where
  argv1 : List UInt8
  argv2 : List UInt8
  time : ℕ

def Execution.Accepted (e : Execution) (buffer invalidatedAt : ℕ) : Prop :=
  Accepts e.argv1 e.argv2 buffer invalidatedAt

variable (slot : Slot (Content τ))

def execute (e : Execution) : Slot (Content τ) :=
  (invalidateCacheScript e.argv1 e.argv2 e.time slot).2

variable (es : List Execution)

def run : Slot (Content τ) :=
  es.foldl execute slot

/-- The sum an accepted execution proposes as watermark. -/
def acceptedSum (e : Execution) : Option ℕ :=
  if isDigits (codes e.argv1) ∧ value (codes e.argv1) ≤ 31536000000 ∧
      isDigits (codes e.argv2) ∧ value (codes e.argv1) + value (codes e.argv2) ≤ 2 ^ 53 - 1 then
    some (value (codes e.argv2) + value (codes e.argv1))
  else none

def acceptedSums : List ℕ := es.filterMap acceptedSum

/-- The text of a string key, whether or not it is still alive. -/
def contentText : Slot (Content τ) → Option (List UInt8)
  | some ⟨.string bytes, _⟩ => some bytes
  | _ => none

/-- No execution of the run finds the key expired. -/
def Unexpired : Prop :=
  ∀ pre e post, es = pre ++ e :: post →
    ∀ entry, run slot pre = some entry → entry.aliveAt e.time

/-- At every accepted execution that finds a live string with a remaining lifetime, that
lifetime is not rounded down on its way into Lua, or the desired lifetime covers it. -/
def TtlKept : Prop :=
  ∀ pre e post buffer invalidatedAt raw expiry, es = pre ++ e :: post →
    e.Accepted buffer invalidatedAt →
    run slot pre = some ⟨.string raw, WithTop.some expiry⟩ → e.time < expiry →
    expiry - e.time ≤ nearest (expiry - e.time) ∨
      expiry - e.time ≤
        desiredTtlMs (max (storedValue (some raw)) (invalidatedAt + buffer)) invalidatedAt

/-- The watermark transition law of a run, from the prior state `slot`. -/
structure TransitionLaw (slot : Slot (Content τ)) (es : List Execution) : Prop where
  /-- Rejected arguments leave type, content and expiry as they are. -/
  rejected_unchanged : ∀ pre e post, es = pre ++ e :: post →
    (∀ buffer invalidatedAt, ¬ e.Accepted buffer invalidatedAt) →
    run slot (pre ++ [e]) = run slot pre
  /-- The content is the canonical decimal of the maximum. -/
  content : ∀ pre post, es = pre ++ post → Unexpired slot pre → acceptedSums pre ≠ [] →
    ∃ expiresAt, run slot pre =
      some ⟨.string (decimalBytes ((acceptedSums pre).foldl max (storedValue (contentText slot)))),
        expiresAt⟩
  /-- Reordering the executions, at whatever times, does not change the content. -/
  order_independent : ∀ pre post other, es = pre ++ post → Unexpired slot pre →
    Unexpired slot other → acceptedSums pre ≠ [] →
    (other.map fun e => (e.argv1, e.argv2)).Perm (pre.map fun e => (e.argv1, e.argv2)) →
    (run slot other).map Entry.content = (run slot pre).map Entry.content
  /-- The expiry of a live string never moves earlier; `⊤` stays `⊤`. -/
  string_expiry : ∀ pre e post raw expiresAt, es = pre ++ e :: post →
    lookup (run slot pre) e.time = some ⟨.string raw, expiresAt⟩ →
    ∃ text later, run slot (pre ++ [e]) = some ⟨.string text, later⟩ ∧ expiresAt ≤ later
  /-- An absent or wrong-type key gets the documented lifetime from this execution. -/
  fresh_ttl : ∀ pre e post buffer invalidatedAt, es = pre ++ e :: post →
    e.Accepted buffer invalidatedAt →
    (∀ raw expiresAt, lookup (run slot pre) e.time ≠ some ⟨.string raw, expiresAt⟩) →
    run slot (pre ++ [e]) =
      setPx (.string (decimalBytes (invalidatedAt + buffer))) e.time
        (max 7200000 (invalidatedAt + buffer - invalidatedAt + 3660000))
  /-- Retrying an execution at the same time changes nothing, and retrying it later on the
  live key does not change the content. -/
  retry : ∀ pre e post, es = pre ++ e :: post →
    execute (run slot (pre ++ [e])) e = run slot (pre ++ [e]) ∧
    ∀ time entry buffer invalidatedAt, e.Accepted buffer invalidatedAt →
      run slot (pre ++ [e]) = some entry → entry.aliveAt time →
      (execute (run slot (pre ++ [e])) { e with time := time }).map Entry.content =
        some entry.content
  /-- Exactly the accepted executions reply `1`. -/
  reply : ∀ pre e post, es = pre ++ e :: post →
    ((invalidateCacheScript e.argv1 e.argv2 e.time (run slot pre)).1 = .integer 1 ↔
      ∃ buffer invalidatedAt, e.Accepted buffer invalidatedAt)

@[simp] theorem run_snoc (e : Execution) : run slot (es ++ [e]) = execute (run slot es) e := by
  simp [run]

variable {e : Execution} {buffer invalidatedAt : ℕ}

theorem acceptedSum_eq_some (h : e.Accepted buffer invalidatedAt) :
    acceptedSum e = some (invalidatedAt + buffer) := by
  obtain ⟨hd1, hv1, hb, hd2, hv2, hs⟩ := h
  rw [acceptedSum, hv1, hv2, if_pos ⟨hd1, hb, hd2, hs⟩]

theorem accepted_of_acceptedSum {sum : ℕ} (h : acceptedSum e = some sum) :
    ∃ buffer invalidatedAt, e.Accepted buffer invalidatedAt ∧ sum = invalidatedAt + buffer := by
  unfold acceptedSum at h
  split at h
  · rename_i hc
    obtain ⟨hd1, hb, hd2, hs⟩ := hc
    exact ⟨_, _, ⟨hd1, rfl, hb, hd2, rfl, hs⟩, (Option.some.inj h).symm⟩
  · cases h

theorem rejected_of_acceptedSum (h : acceptedSum e = none) (buffer invalidatedAt : ℕ) :
    ¬ e.Accepted buffer invalidatedAt := by
  intro ha
  rw [acceptedSum_eq_some ha] at h
  cases h

/-- The expiry instant an accepted execution leaves behind. -/
def nextExpiry (now watermark invalidatedAt : ℕ) : WithTop ℕ :=
  match lookup slot now with
  | some ⟨.string _, none⟩ => ⊤
  | some ⟨.string _, some expiry⟩ =>
      WithTop.some (now + max (nearest (expiry - now)) (desiredTtlMs watermark invalidatedAt))
  | _ => WithTop.some (now + desiredTtlMs watermark invalidatedAt)

theorem execute_rejected (h : ∀ buffer invalidatedAt, ¬ e.Accepted buffer invalidatedAt)
    (slot : Slot (Content τ)) : execute slot e = slot := by
  obtain ⟨message, hm⟩ := invalidateCacheScript_rejected h e.time slot
  rw [execute, hm]

/-- What an accepted execution does to the key, in every prior state. -/
theorem execute_accepted (h : e.Accepted buffer invalidatedAt) (slot : Slot (Content τ)) :
    execute slot e =
      some ⟨.string (decimalBytes
          (max (storedValue (storedText slot e.time)) (invalidatedAt + buffer))),
        nextExpiry slot e.time
          (max (storedValue (storedText slot e.time)) (invalidatedAt + buffer)) invalidatedAt⟩ := by
  have hs := invalidateCacheScript_accepted h e.time slot
  rw [execute, hs]
  dsimp only
  cases hl : lookup slot e.time with
  | none =>
    have ht : storedText slot e.time = none := by rw [storedText, hl]
    rw [ht, storeWatermark_none, nextExpiry, hl, storedValue_none, Nat.zero_max, setPx]
  | some entry =>
    obtain ⟨content, expiresAt⟩ := entry
    cases content with
    | other v =>
      have ht : storedText slot e.time = none := by rw [storedText, hl]
      rw [ht, storeWatermark_none, nextExpiry, hl, storedValue_none, Nat.zero_max, setPx]
    | string raw =>
      have ht : storedText slot e.time = some raw := by rw [storedText, hl]
      obtain ⟨hslot, halive⟩ := lookup_eq_some_iff.mp hl
      rw [ht, nextExpiry, hl, hslot]
      cases expiresAt with
      | top => rw [storeWatermark_persistent, setPersistent]
      | coe expiry => rw [storeWatermark_expiring _ _ _ (aliveAt_coe.mp halive), setPx]

variable {slot : Slot (Content τ)}

/-- A live string keeps its expiry exactly when its remaining lifetime survives the
conversion to a Lua number or is covered by the desired lifetime. -/
theorem le_nextExpiry_iff {now expiry watermark : ℕ} {raw : List UInt8}
    (h : lookup slot now = some ⟨.string raw, WithTop.some expiry⟩) :
    WithTop.some expiry ≤ nextExpiry slot now watermark invalidatedAt ↔
      expiry - now ≤ nearest (expiry - now) ∨
        expiry - now ≤ desiredTtlMs watermark invalidatedAt := by
  have hlt : now < expiry := aliveAt_coe.mp (lookup_eq_some_iff.mp h).2
  have hn : nextExpiry slot now watermark invalidatedAt =
      WithTop.some (now + max (nearest (expiry - now)) (desiredTtlMs watermark invalidatedAt)) := by
    rw [nextExpiry, h]
  rw [hn, WithTop.coe_le_coe, ← le_max_iff]
  generalize max (nearest (expiry - now)) (desiredTtlMs watermark invalidatedAt) = lifetime
  omega

/-- Every accepted execution grants at least the desired lifetime. -/
theorem desiredTtl_le_nextExpiry (slot : Slot (Content τ)) (now watermark invalidatedAt : ℕ) :
    WithTop.some (now + desiredTtlMs watermark invalidatedAt) ≤
      nextExpiry slot now watermark invalidatedAt := by
  unfold nextExpiry
  split
  · exact le_top
  · exact WithTop.coe_le_coe.mpr (Nat.add_le_add_left (le_max_right _ _) now)
  · exact le_rfl

theorem storedText_of_alive {now : ℕ} (h : ∀ entry, slot = some entry → entry.aliveAt now) :
    storedText slot now = contentText slot := by
  cases slot with
  | none => rfl
  | some entry =>
    rw [storedText, lookup_some (h entry rfl)]
    obtain ⟨content, expiresAt⟩ := entry
    cases content <;> rfl

variable {es : List Execution}

theorem Unexpired.init (h : Unexpired slot (es ++ [e])) : Unexpired slot es := by
  intro pre e' post hes entry hrun
  refine h pre e' (post ++ [e]) ?_ entry hrun
  rw [hes]
  simp

theorem Unexpired.last (h : Unexpired slot (es ++ [e])) :
    ∀ entry, run slot es = some entry → entry.aliveAt e.time :=
  h es e [] rfl

theorem acceptedSums_snoc (es : List Execution) (e : Execution) :
    acceptedSums (es ++ [e]) = acceptedSums es ++ (acceptedSum e).toList := by
  rw [acceptedSums, List.filterMap_append, ← acceptedSums]
  cases h : acceptedSum e <;> simp [h]

/-- The value of the key after a run without expiry, and its exact content once an
execution was accepted. -/
theorem content_of_unexpired (slot : Slot (Content τ)) (es : List Execution)
    (h : Unexpired slot es) :
    storedValue (contentText (run slot es)) =
        (acceptedSums es).foldl max (storedValue (contentText slot)) ∧
      (acceptedSums es ≠ [] → ∃ expiresAt, run slot es = some ⟨.string (decimalBytes
        ((acceptedSums es).foldl max (storedValue (contentText slot)))), expiresAt⟩) := by
  induction es using List.reverseRecOn with
  | nil => exact ⟨rfl, fun hne => absurd rfl hne⟩
  | append_singleton es e ih =>
    obtain ⟨hvalue, hcontent⟩ := ih h.init
    rw [run_snoc, acceptedSums_snoc]
    cases hsum : acceptedSum e with
    | none =>
      rw [execute_rejected (rejected_of_acceptedSum hsum)]
      simpa using ⟨hvalue, hcontent⟩
    | some sum =>
      obtain ⟨buffer, invalidatedAt, haccepted, rfl⟩ := accepted_of_acceptedSum hsum
      have hsafe := haccepted.sum_le
      have hle := storedValue_le (contentText (run slot es))
      rw [execute_accepted haccepted, storedText_of_alive h.last, hvalue, Option.toList_some,
        List.foldl_append, List.foldl_cons, List.foldl_nil]
      rw [hvalue] at hle
      refine ⟨storedValue_decimalBytes (max_le hle (by omega)), fun _ => ⟨_, rfl⟩⟩

theorem acceptedSums_perm {other : List Execution}
    (h : (other.map fun e => (e.argv1, e.argv2)).Perm (es.map fun e => (e.argv1, e.argv2))) :
    (acceptedSums other).Perm (acceptedSums es) := by
  have hf : ∀ l : List Execution, acceptedSums l =
      (l.map fun e => (e.argv1, e.argv2)).filterMap (fun a => acceptedSum ⟨a.1, a.2, 0⟩) := by
    intro l
    rw [List.filterMap_map]
    rfl
  rw [hf other, hf es]
  exact h.filterMap _

theorem content_order_independent (slot : Slot (Content τ)) {other : List Execution}
    (h : Unexpired slot es) (ho : Unexpired slot other) (hne : acceptedSums es ≠ [])
    (hp : (other.map fun e => (e.argv1, e.argv2)).Perm (es.map fun e => (e.argv1, e.argv2))) :
    (run slot other).map Entry.content = (run slot es).map Entry.content := by
  have hperm := acceptedSums_perm hp
  have hne' : acceptedSums other ≠ [] := by
    intro hnil
    rw [hnil] at hperm
    exact hne hperm.nil_eq.symm
  obtain ⟨x, hx⟩ := (content_of_unexpired slot es h).2 hne
  obtain ⟨y, hy⟩ := (content_of_unexpired slot other ho).2 hne'
  rw [hx, hy, hperm.foldl_eq]
  rfl

theorem nearest_max_of_fixed {m n : ℕ} (hm : nearest m = m) (hn : nearest n = n) :
    nearest (max m n) = max m n := by
  rcases le_total m n with h | h
  · rw [max_eq_right h, hn]
  · rw [max_eq_left h, hm]

theorem nearest_desiredTtlMs (watermark invalidatedAt : ℕ) :
    nearest (desiredTtlMs watermark invalidatedAt) = desiredTtlMs watermark invalidatedAt := by
  rw [desiredTtlMs, minWatermarkTtlMs_eq]
  exact nearest_max_of_fixed (nearest_of_lt (by norm_num)) (nearest_nearest _)

theorem aliveAt_nextExpiry (slot : Slot (Content τ)) (now watermark invalidatedAt : ℕ)
    (content : Content τ) :
    (⟨content, nextExpiry slot now watermark invalidatedAt⟩ : Entry (Content τ)).aliveAt now := by
  have hpos := minWatermarkTtlMs_le_desiredTtlMs watermark invalidatedAt
  unfold nextExpiry
  generalize desiredTtlMs watermark invalidatedAt = desired at hpos
  split
  · exact aliveAt_top
  · exact aliveAt_coe.mpr (by omega)
  · exact aliveAt_coe.mpr (by omega)

/-- Once the expiry was chosen, choosing it again at the same time gives the same one. -/
theorem nextExpiry_idempotent (slot : Slot (Content τ)) (now watermark invalidatedAt : ℕ)
    (raw : List UInt8) :
    nextExpiry (some ⟨.string raw, nextExpiry slot now watermark invalidatedAt⟩ :
        Slot (Content τ)) now watermark invalidatedAt =
      nextExpiry slot now watermark invalidatedAt := by
  have key : ∀ lifetime : ℕ, nearest lifetime = lifetime → 7200000 ≤ lifetime →
      desiredTtlMs watermark invalidatedAt ≤ lifetime →
      nextExpiry (some ⟨.string raw, WithTop.some (now + lifetime)⟩ : Slot (Content τ)) now
        watermark invalidatedAt = WithTop.some (now + lifetime) := by
    intro lifetime hn hpos hle
    rw [nextExpiry, lookup_some (aliveAt_coe.mpr (by omega))]
    simp only [Nat.add_sub_cancel_left, hn, max_eq_left hle]
  have hfix := nearest_desiredTtlMs watermark invalidatedAt
  have hpos := minWatermarkTtlMs_le_desiredTtlMs watermark invalidatedAt
  conv_lhs => arg 1; rw [nextExpiry]
  conv_rhs => rw [nextExpiry]
  split
  · rw [nextExpiry, lookup_some aliveAt_top]
  · exact key _ (nearest_max_of_fixed (nearest_nearest _) hfix)
      (hpos.trans (le_max_right _ _)) (le_max_right _ _)
  · exact key _ hfix hpos le_rfl

theorem execute_retry (slot : Slot (Content τ)) (e : Execution) :
    execute (execute slot e) e = execute slot e := by
  cases hsum : acceptedSum e with
  | none => rw [execute_rejected (rejected_of_acceptedSum hsum)]
  | some sum =>
    obtain ⟨buffer, invalidatedAt, h, rfl⟩ := accepted_of_acceptedSum hsum
    have hsafe := h.sum_le
    have hle := storedValue_le (storedText slot e.time)
    rw [execute_accepted h slot]
    generalize hw : max (storedValue (storedText slot e.time)) (invalidatedAt + buffer) = watermark
    have hw' : invalidatedAt + buffer ≤ watermark := hw ▸ le_max_right _ _
    have hs : watermark ≤ 2 ^ 53 - 1 := hw ▸ max_le hle (by omega)
    rw [execute_accepted h, storedText_string (aliveAt_nextExpiry _ _ _ _ _),
      storedValue_decimalBytes hs, max_eq_left hw', nextExpiry_idempotent]

theorem execute_retry_later (slot : Slot (Content τ)) {time : ℕ} {entry : Entry (Content τ)}
    (h : e.Accepted buffer invalidatedAt) (hentry : execute slot e = some entry)
    (halive : entry.aliveAt time) :
    (execute (execute slot e) { e with time := time }).map Entry.content =
      some entry.content := by
  have hsafe := h.sum_le
  have hle := storedValue_le (storedText slot e.time)
  have h' : Execution.Accepted { e with time := time } buffer invalidatedAt := h
  rw [execute_accepted h slot] at hentry ⊢
  obtain rfl := Option.some.inj hentry
  generalize hw : max (storedValue (storedText slot e.time)) (invalidatedAt + buffer) = watermark
    at halive ⊢
  have hw' : invalidatedAt + buffer ≤ watermark := hw ▸ le_max_right _ _
  have hs : watermark ≤ 2 ^ 53 - 1 := hw ▸ max_le hle (by omega)
  rw [execute_accepted h', storedText_string halive, storedValue_decimalBytes hs, max_eq_left hw']
  rfl

theorem fresh_of_accepted (h : e.Accepted buffer invalidatedAt)
    (hl : ∀ raw expiresAt, lookup slot e.time ≠ some ⟨.string raw, expiresAt⟩) :
    execute slot e = setPx (.string (decimalBytes (invalidatedAt + buffer))) e.time
      (max 7200000 (invalidatedAt + buffer - invalidatedAt + 3660000)) := by
  have ht : storedText slot e.time = none := by
    unfold storedText
    split
    · rename_i raw expiresAt hl'
      exact absurd hl' (hl raw expiresAt)
    · rfl
  have hb := h.buffer_le
  have hwindow : invalidatedAt + buffer - invalidatedAt + 3660000 < 2 ^ 53 := by omega
  rw [execute, invalidateCacheScript_accepted h, ht, storeWatermark_none, desiredTtlMs_eq hwindow]

theorem reply_iff (slot : Slot (Content τ)) (e : Execution) :
    (invalidateCacheScript e.argv1 e.argv2 e.time slot).1 = .integer 1 ↔
      ∃ buffer invalidatedAt, e.Accepted buffer invalidatedAt := by
  constructor
  · intro h
    by_contra hn
    push Not at hn
    obtain ⟨message, hm⟩ := invalidateCacheScript_rejected hn e.time slot
    rw [hm] at h
    cases h
  · rintro ⟨buffer, invalidatedAt, h⟩
    rw [invalidateCacheScript_accepted h]

/-- One execution keeps the expiry of a live string if it does not round it away. -/
theorem string_expiry_step {raw : List UInt8} {expiresAt : WithTop ℕ}
    (hl : lookup slot e.time = some ⟨.string raw, expiresAt⟩)
    (hkept : ∀ buffer invalidatedAt expiry, e.Accepted buffer invalidatedAt → expiresAt =
      WithTop.some expiry → expiry - e.time ≤ nearest (expiry - e.time) ∨
      expiry - e.time ≤ desiredTtlMs (max (storedValue (some raw))
      (invalidatedAt + buffer)) invalidatedAt) :
    ∃ text later, execute slot e = some ⟨.string text, later⟩ ∧ expiresAt ≤ later := by
  obtain ⟨hslot, halive⟩ := lookup_eq_some_iff.mp hl
  cases hsum : acceptedSum e with
  | none =>
    rw [execute_rejected (rejected_of_acceptedSum hsum), hslot]
    exact ⟨raw, expiresAt, rfl, le_rfl⟩
  | some sum =>
    obtain ⟨buffer, invalidatedAt, h, rfl⟩ := accepted_of_acceptedSum hsum
    have ht : storedText slot e.time = some raw := by rw [storedText, hl]
    rw [execute_accepted h, ht]
    refine ⟨_, _, rfl, ?_⟩
    cases expiresAt with
    | top => rw [nextExpiry, hl]
    | coe expiry => exact (le_nextExpiry_iff hl).mpr (hkept buffer invalidatedAt expiry h rfl)

/-- The transition law holds of a run exactly when no accepted execution meets a live
string whose remaining lifetime is rounded down below both itself and the desired one. -/
theorem transitionLaw_iff_ttlKept (slot : Slot (Content τ)) (es : List Execution) :
    TransitionLaw slot es ↔ TtlKept slot es := by
  constructor
  · intro law pre e post buffer invalidatedAt raw expiry hes h hrun hlt
    have hl : lookup (run slot pre) e.time = some ⟨.string raw, WithTop.some expiry⟩ :=
      lookup_eq_some_iff.mpr ⟨hrun, aliveAt_coe.mpr hlt⟩
    obtain ⟨text, later, hlater, hle⟩ := law.string_expiry pre e post raw _ hes hl
    have ht : storedText (run slot pre) e.time = some raw := by rw [storedText, hl]
    rw [run_snoc, execute_accepted h, ht] at hlater
    obtain ⟨-, rfl⟩ := Entry.mk.inj (Option.some.inj hlater)
    exact (le_nextExpiry_iff hl).mp hle
  · intro hkept
    refine ⟨?_, ?_, ?_, ?_, ?_, ?_, ?_⟩
    · intro pre e post _ h
      rw [run_snoc, execute_rejected h]
    · intro pre post _ hu hne
      exact (content_of_unexpired slot pre hu).2 hne
    · intro pre post other _ hu ho hne hp
      exact content_order_independent slot hu ho hne hp
    · intro pre e post raw expiresAt hes hl
      rw [run_snoc]
      refine string_expiry_step hl ?_
      rintro buffer invalidatedAt expiry h rfl
      obtain ⟨hrun, halive⟩ := lookup_eq_some_iff.mp hl
      exact hkept pre e post buffer invalidatedAt raw expiry hes h hrun (aliveAt_coe.mp halive)
    · intro pre e post buffer invalidatedAt _ h hl
      rw [run_snoc]
      exact fresh_of_accepted h hl
    · intro pre e post _
      rw [run_snoc]
      exact ⟨execute_retry _ e, fun time entry buffer invalidatedAt h hentry halive =>
        execute_retry_later _ h hentry halive⟩
    · intro pre e post _
      exact reply_iff _ e

/-- Three accepted executions on an absent key. The first two leave a watermark of
`2^53 - 1` that expires at `9007199258400992`; the third, three milliseconds later, reads
an odd remaining lifetime above `2^53` and moves the expiry one millisecond earlier. -/
def roundedRun : List Execution :=
  [⟨decimalBytes 0, decimalBytes 9007199254740991, 0⟩, ⟨decimalBytes 0, decimalBytes 0, 0⟩,
    ⟨decimalBytes 0, decimalBytes 10, 3⟩]

theorem roundedRun_moves_expiry_earlier :
    run (none : Slot (Content Unit)) (roundedRun.take 2) =
        some ⟨.string (decimalBytes 9007199254740991), WithTop.some 9007199258400992⟩ ∧
      run (none : Slot (Content Unit)) roundedRun =
        some ⟨.string (decimalBytes 9007199254740991), WithTop.some 9007199258400991⟩ ∧
      ¬ TransitionLaw (none : Slot (Content Unit)) roundedRun := by
  have h2 : run (none : Slot (Content Unit)) (roundedRun.take 2) =
      some ⟨.string (decimalBytes 9007199254740991), WithTop.some 9007199258400992⟩ := by
    decide +kernel
  have h3 : run (none : Slot (Content Unit)) roundedRun =
      some ⟨.string (decimalBytes 9007199254740991), WithTop.some 9007199258400991⟩ := by
    decide +kernel
  refine ⟨h2, h3, fun law => ?_⟩
  obtain ⟨text, later, hrun, hle⟩ := law.string_expiry (roundedRun.take 2)
    ⟨decimalBytes 0, decimalBytes 10, 3⟩ [] _ _ rfl
    (lookup_eq_some_iff.mpr ⟨h2, aliveAt_coe.mpr (by norm_num)⟩)
  have hlater : WithTop.some 9007199258400991 = later := by
    have := h3.symm.trans hrun
    exact (Entry.mk.inj (Option.some.inj this)).2
  rw [← hlater, WithTop.coe_le_coe] at hle
  omega

end DialCache.WatermarkLaw
