import DialCache.LruMaps
import DialCache.Binary64Rationals
import DialCache.RuntimeConfig

/-!
# Process-local stores

The stores that keep values inside one process. What they are for is said by `abstractStep`:
at most `capacity` records in the order of their last successful get or put, each present for
a number of whole milliseconds after its put. The Python store is written over an ordered
dictionary. The other ports use the LRU containers of their platforms, `LruMap` here, and
differ in how a record keeps its lifetime and in how its age is computed.
-/

namespace DialCache.LocalStores

open InsertionMaps LruMaps RuntimeConfig Binary64Rationals JsValues

variable {K V τ : Type}

/-- A lifetime in whole seconds that every port accepts. -/
structure CacheTtl where
  sec : ℕ
  supported : 0 < sec ∧ sec ≤ maxCacheTtlSec

inductive StoreCall (K V : Type) where
  | get (key : K)
  | put (key : K) (value : V) (ttl : CacheTtl)

inductive Answer (V : Type) where
  | hit (value : V)
  | miss
  | stored
  | failed (message : String)

/-- How a lookup answers, with the store it leaves. -/
def readAnswer {S : Type} : Option V × S → Answer V × S
  | (some value, s) => (.hit value, s)
  | (none, s) => (.miss, s)

/-- How a write answers; one that fails leaves the store alone. -/
def writeAnswer {S : Type} (s : S) : Except String S → Answer V × S
  | .ok s' => (.stored, s')
  | .error message => (.failed message, s)

/-- What is known of a stored value. Times are of any type that has a reading in
milliseconds. -/
structure Record (τ V : Type) where
  value : V
  insertedAt : τ
  ttl : CacheTtl

def Record.ttlMs (r : Record τ V) : ℕ := cacheTtlSecToMs r.ttl.sec

variable {capacity : ℕ}

section Abstract

variable [DecidableEq K] (ms : τ → ℚ)

/-- A record is present while fewer than `ttlMs` whole milliseconds have passed. -/
def Record.Present (r : Record τ V) (now : τ) : Prop := ⌊ms now⌋ - ⌊ms r.insertedAt⌋ < r.ttlMs

instance (r : Record τ V) (now : τ) : Decidable (r.Present ms now) :=
  inferInstanceAs (Decidable (_ < _))

/-- A get uses the record it finds without renewing it and removes one that has expired. A put
replaces value, lifetime and recency, and may cost the least recent record its place. -/
noncomputable def abstractStep (capacity : ℕ) (s : RecencyMap K (Record τ V)) :
    τ × StoreCall K V → Answer V × RecencyMap K (Record τ V)
  | (now, .get key) =>
    match s.find key with
    | none => (.miss, s)
    | some r => if r.Present ms now then (.hit r.value, s.use key r) else (.miss, s.erase key)
  | (now, .put key value ttl) =>
    (.stored, (s.use key ⟨value, now, ttl⟩).evict capacity)

noncomputable def abstractAnswers (capacity : ℕ) (calls : List (τ × StoreCall K V)) :
    List (Answer V) :=
  outputs (abstractStep ms capacity) RecencyMap.empty calls

/-- The same store on a list in order of use. -/
def lruStep (capacity : ℕ) (m : LruMap K (Record τ V) capacity) :
    τ × StoreCall K V → Answer V × LruMap K (Record τ V) capacity
  | (now, .get key) =>
    match m.peek key with
    | none => (.miss, m)
    | some r => if r.Present ms now then (.hit r.value, m.promote key) else (.miss, m.remove key)
  | (now, .put key value ttl) => (.stored, m.put key ⟨value, now, ttl⟩)

theorem lruStep_simulates (capacity : ℕ) (m : LruMap K (Record τ V) capacity)
    (s : RecencyMap K (Record τ V)) (call : τ × StoreCall K V)
    (h : Represents s m.toInsertionMap) :
    (lruStep ms capacity m call).1 = (abstractStep ms capacity s call).1 ∧
      Represents (abstractStep ms capacity s call).2
        (lruStep ms capacity m call).2.toInsertionMap := by
  obtain ⟨now, call⟩ := call
  cases call with
  | get key =>
    simp only [lruStep, abstractStep, h.find key, LruMap.peek]
    cases hget : m.toInsertionMap.get key with
    | none => exact ⟨rfl, h⟩
    | some r =>
      by_cases hpresent : r.Present ms now
      · simp only [hpresent, if_true]
        exact ⟨trivial, h.promote hget⟩
      · simp only [hpresent, if_false]
        exact ⟨trivial, h.erase key⟩
  | put key value ttl => exact ⟨rfl, h.put key _⟩

theorem lruAnswers_eq (capacity : ℕ) (calls : List (τ × StoreCall K V)) :
    outputs (lruStep ms capacity) LruMap.empty calls = abstractAnswers ms capacity calls := by
  apply outputs_eq_of_simulation (R := fun m s => Represents s m.toInsertionMap)
  · intro m s call h
    exact lruStep_simulates ms capacity m s call h
  · exact represents_empty

/-- A port simulates the list when its lookups and writes do. -/
theorem answers_eq_of_lru {S : Type} {step : S → τ × StoreCall K V → Answer V × S} {start : S}
    (R : S → LruMap K (Record τ V) capacity → Prop) (hstart : R start LruMap.empty)
    (hstep : ∀ s m call, R s m → (step s call).1 = (lruStep ms capacity m call).1 ∧
      R (step s call).2 (lruStep ms capacity m call).2)
    (calls : List (τ × StoreCall K V)) :
    outputs step start calls = abstractAnswers ms capacity calls := by
  rw [outputs_eq_of_simulation hstep hstart calls, lruAnswers_eq]

end Abstract

/-! ### Python -/

namespace Python

structure Entry (V : Type) where
  value : V
  expiresAtMs : ℤ

structure LocalCache (K V : Type) where
  maxSize : ℕ
  entries : InsertionMap K (Entry V)

def cacheTtlSecToMs (ttlSec : ℕ) : Except String ℕ :=
  if 0 < ttlSec ∧ ttlSec ≤ maxCacheTtlSec then .ok (ttlSec * 1000)
  else .error "cache TTL must be an integer from 1 through 31536000 seconds"

theorem cacheTtlSecToMs_supported (ttl : CacheTtl) :
    cacheTtlSecToMs ttl.sec = .ok (RuntimeConfig.cacheTtlSecToMs ttl.sec) := if_pos ttl.supported

/-- The loop of `put` that drops the oldest entries. -/
def evictOldest (maxSize : ℕ) (entries : InsertionMap K (Entry V)) : InsertionMap K (Entry V) :=
  if maxSize < entries.size then evictOldest maxSize entries.popFirst else entries
termination_by entries.size
decreasing_by
  rename_i h
  simp only [InsertionMap.size, InsertionMap.popFirst, List.length_tail] at h ⊢
  omega

/-- One turn of the loop is enough after one write. -/
theorem evictOldest_eq {maxSize : ℕ} {entries : InsertionMap K (Entry V)}
    (h : entries.size ≤ maxSize + 1) :
    evictOldest maxSize entries = if entries.size ≤ maxSize then entries else entries.popFirst := by
  rw [evictOldest]
  by_cases hfull : maxSize < entries.size
  · have hsmaller : ¬ maxSize < entries.popFirst.size := by
      simp only [InsertionMap.size, InsertionMap.popFirst, List.length_tail] at h ⊢
      omega
    rw [if_pos hfull, if_neg (Nat.not_le.mpr hfull), evictOldest, if_neg hsmaller]
  · rw [if_neg hfull, if_pos (Nat.not_lt.mp hfull)]

namespace LocalCache

def new (maxSize : ℕ) : LocalCache K V := ⟨maxSize, InsertionMap.empty⟩

variable [DecidableEq K]

def getEntry (c : LocalCache K V) (key : K) (nowMs : ℚ) : Option (Entry V) × LocalCache K V :=
  match c.entries.get key with
  | none => (none, c)
  | some entry =>
    if entry.expiresAtMs ≤ ⌊nowMs⌋ then (none, { c with entries := c.entries.delete key })
    else (some entry, { c with entries := c.entries.moveToEnd key })

def read (c : LocalCache K V) (key : K) (nowMs : ℚ) : Option V × LocalCache K V :=
  ((c.getEntry key nowMs).1.map Entry.value, (c.getEntry key nowMs).2)

def put (c : LocalCache K V) (key : K) (value : V) (ttlSec : ℕ) (nowMs : ℚ) :
    Except String (LocalCache K V) :=
  if c.maxSize = 0 then .ok c
  else do
    let ttlMs ← cacheTtlSecToMs ttlSec
    let entries := (c.entries.set key ⟨value, ⌊nowMs⌋ + ttlMs⟩).moveToEnd key
    return { c with entries := evictOldest c.maxSize entries }

def step (c : LocalCache K V) : ℚ × StoreCall K V → Answer V × LocalCache K V
  | (nowMs, .get key) => readAnswer (c.read key nowMs)
  | (nowMs, .put key value ttl) => writeAnswer c (c.put key value ttl.sec nowMs)

def answers (maxSize : ℕ) (calls : List (ℚ × StoreCall K V)) : List (Answer V) :=
  outputs step (new maxSize) calls

end LocalCache

/-- The form in which this port keeps a record. -/
def entryOf (ms : τ → ℚ) (r : Record τ V) : Entry V := ⟨r.value, ⌊ms r.insertedAt⌋ + r.ttlMs⟩

variable (ms : τ → ℚ)

theorem expired_iff (r : Record τ V) (now : τ) :
    (entryOf ms r).expiresAtMs ≤ ⌊ms now⌋ ↔ ¬ r.Present ms now := by
  simp only [entryOf, Record.Present]
  omega

variable [DecidableEq K]

def Holds (ms : τ → ℚ) {capacity : ℕ} (c : LocalCache K V)
    (m : LruMap K (Record τ V) capacity) : Prop :=
  c.maxSize = capacity ∧ c.entries = m.toInsertionMap.map (entryOf ms)

theorem put_eq {ms : τ → ℚ} {c : LocalCache K V} {m : LruMap K (Record τ V) capacity}
    (h : Holds ms c m) (key : K) (value : V) (ttl : CacheTtl) (now : τ) :
    ∃ c', c.put key value ttl.sec (ms now) = .ok c' ∧
      Holds ms c' (m.put key ⟨value, now, ttl⟩) := by
  obtain ⟨hsize, hentries⟩ := h
  rw [LocalCache.put]
  by_cases hzero : c.maxSize = 0
  · rw [if_pos hzero]
    apply Exists.intro c
    have hcapacity : capacity = 0 := hsize ▸ hzero
    have hnone : ∀ m : LruMap K (Record τ V) capacity, m.toInsertionMap = InsertionMap.empty := by
      intro m
      apply InsertionMap.ext
      exact List.length_eq_zero_iff.mp (Nat.le_zero.mp (hcapacity ▸ m.bounded))
    exact ⟨rfl, hsize, by rw [hentries, hnone m, hnone (m.put _ _)]⟩
  · rw [if_neg hzero, cacheTtlSecToMs_supported]
    apply Exists.intro _
    constructor
    · exact rfl
    constructor
    · exact hsize
    · have hpush : (c.entries.set key ⟨value, ⌊ms now⌋ +
          RuntimeConfig.cacheTtlSecToMs ttl.sec⟩).moveToEnd key =
          (m.toInsertionMap.push key ⟨value, now, ttl⟩).map
            (entryOf ms) := by
        rw [InsertionMap.moveToEnd_set, hentries, ← InsertionMap.push_map]
        rfl
      have hlength : (m.toInsertionMap.push key ⟨value, now, ttl⟩).size ≤ capacity + 1 :=
        (m.toInsertionMap.length_push_le key _).trans (Nat.succ_le_succ m.bounded)
      simp only [hpush, hsize]
      rw [evictOldest_eq (by rw [InsertionMap.size_map]; exact hlength), InsertionMap.size_map,
        LruMap.toInsertionMap_put]
      split
      · rfl
      · exact InsertionMap.popFirst_map _ _

theorem step_simulates (c : LocalCache K V) (m : LruMap K (Record τ V) capacity)
    (call : τ × StoreCall K V) (h : Holds ms c m) :
    (c.step (ms call.1, call.2)).1 = (lruStep ms capacity m call).1 ∧
      Holds ms (c.step (ms call.1, call.2)).2 (lruStep ms capacity m call).2 := by
  obtain ⟨now, call⟩ := call
  cases call with
  | get key =>
    obtain ⟨hsize, hentries⟩ := h
    simp only [LocalCache.step, LocalCache.read, LocalCache.getEntry, lruStep, LruMap.peek,
      hentries, InsertionMap.get_map]
    cases m.toInsertionMap.get key with
    | none => exact ⟨rfl, hsize, hentries⟩
    | some r =>
      simp only [Option.map_some, expired_iff]
      by_cases hpresent : r.Present ms now
      · simp only [hpresent, not_true_eq_false, if_false, if_true]
        exact ⟨rfl, hsize, InsertionMap.moveToEnd_map _ _ key⟩
      · simp only [hpresent, not_false_eq_true, if_true, if_false]
        exact ⟨rfl, hsize, InsertionMap.delete_map _ _ key⟩
  | put key value ttl =>
    obtain ⟨c', hput, hholds⟩ := put_eq h key value ttl now
    simp only [LocalCache.step, hput]
    exact ⟨rfl, hholds⟩

theorem answers_eq (capacity : ℕ) (calls : List (τ × StoreCall K V)) :
    LocalCache.answers capacity (calls.map fun call => (ms call.1, call.2)) =
      abstractAnswers ms capacity calls := by
  rw [LocalCache.answers, outputs_map]
  apply answers_eq_of_lru ms (Holds ms)
  · exact ⟨rfl, rfl⟩
  · exact step_simulates ms

end Python

/-! ### Readings of a monotonic clock

The other ports read whole milliseconds from a 64-bit clock or from a JavaScript number. -/

/-- A reading that is exact in every port. -/
structure Instant where
  ms : ℚ
  nonneg : 0 ≤ ms
  exact : ⌊ms⌋ < JsNumber.maxSafeInteger

variable (t : Instant)

theorem Instant.floor_nonneg : 0 ≤ ⌊t.ms⌋ := Int.floor_nonneg.mpr t.nonneg

theorem Instant.floor_lt : ⌊t.ms⌋ < 2 ^ 53 - 1 := by
  have hexact := t.exact
  rw [JsNumber.maxSafeInteger] at hexact
  omega

theorem Instant.abs_age_lt (now at' : Instant) : |⌊now.ms⌋ - ⌊at'.ms⌋| < 2 ^ 53 := by
  have hnow := now.floor_nonneg
  have hnow' := now.floor_lt
  have hat := at'.floor_nonneg
  have hat' := at'.floor_lt
  rw [abs_lt]
  omega

/-- A store that capacity zero disables holds the records in the port's own form. -/
def Mirrors {F : Type} (form : Record Instant V → F) {capacity : ℕ}
    (s : Option (LruMap K F capacity)) (m : LruMap K (Record Instant V) capacity) : Prop :=
  s = if capacity = 0 then none else some (m.map form)

theorem peek_of_disabled [DecidableEq K] (hzero : capacity = 0)
    (m : LruMap K (Record Instant V) capacity) (key : K) : m.peek key = none := by
  have hempty : m.entries = [] :=
    List.length_eq_zero_iff.mp (Nat.le_zero.mp (hzero ▸ m.bounded))
  rw [LruMap.peek, InsertionMap.get, hempty]
  rfl

section Containers

variable [DecidableEq K] {F : Type} {capacity : ℕ}

/-- The lookup shared by the containers: an expired entry is removed, a live one is used. -/
def lookup (value : F → V) (expired : F → Bool) (entries : LruMap K F capacity) (key : K) :
    Option V × LruMap K F capacity :=
  match entries.peek key with
  | none => (none, entries)
  | some item =>
    if expired item then (none, entries.remove key)
    else (some (value item), entries.promote key)

/-- A container store answers like the list when its entries age alike. -/
theorem mirrors_step {form : Record Instant V → F} (value : F → V) (expired : F → Instant → Bool)
    {step : Option (LruMap K F capacity) → Instant × StoreCall K V →
      Answer V × Option (LruMap K F capacity)}
    (hvalue : ∀ r, value (form r) = r.value)
    (hexpired : ∀ r now, expired (form r) now = true ↔ ¬ r.Present Instant.ms now)
    (hget : ∀ entries now key, step (some entries) (now, .get key) =
      ((readAnswer (lookup value (expired · now) entries key)).1,
        some (lookup value (expired · now) entries key).2))
    (hput : ∀ entries now key stored ttl, step (some entries) (now, .put key stored ttl) =
      (.stored, some (entries.put key (form ⟨stored, now, ttl⟩))))
    (hmiss : ∀ now key, step none (now, .get key) = (.miss, none))
    (hskip : ∀ now key stored ttl, step none (now, .put key stored ttl) = (.stored, none))
    (s : Option (LruMap K F capacity)) (m : LruMap K (Record Instant V) capacity)
    (call : Instant × StoreCall K V) (h : Mirrors form s m) :
    (step s call).1 = (lruStep Instant.ms capacity m call).1 ∧
      Mirrors form (step s call).2 (lruStep Instant.ms capacity m call).2 := by
  obtain ⟨now, call⟩ := call
  rw [Mirrors] at h
  by_cases hzero : capacity = 0
  · rw [if_pos hzero] at h
    cases call with
    | get key =>
      simp only [h, hmiss, lruStep, peek_of_disabled hzero]
      exact ⟨trivial, (if_pos hzero).symm⟩
    | put key stored ttl =>
      rw [h, hskip]
      exact ⟨rfl, (if_pos hzero).symm⟩
  · rw [if_neg hzero] at h
    cases call with
    | get key =>
      simp only [h, hget, lookup, LruMap.peek_map, lruStep]
      cases m.peek key with
      | none => exact ⟨rfl, (if_neg hzero).symm⟩
      | some r =>
        simp only [Option.map_some, hexpired, hvalue]
        by_cases hpresent : r.Present Instant.ms now
        · simp only [hpresent, not_true_eq_false, if_false, if_true, LruMap.promote_map]
          exact ⟨rfl, (if_neg hzero).symm⟩
        · simp only [hpresent, not_false_eq_true, if_true, if_false, LruMap.remove_map]
          exact ⟨rfl, (if_neg hzero).symm⟩
    | put key stored ttl =>
      rw [h, hput, LruMap.put_map]
      exact ⟨rfl, (if_neg hzero).symm⟩

end Containers

/-! ### Go -/

variable (r : Record Instant V)

variable (now : Instant) (calls : List (Instant × StoreCall K V))

namespace Go

/-- Conversion of a mathematical integer to `int64`. -/
def int64 (n : ℤ) : ℤ := n.bmod (2 ^ 64)

structure Entry (V : Type) where
  value : V
  insertedMS : ℤ
  ttlMS : ℤ

/-- A nil store has capacity zero. -/
abbrev Store (K V : Type) (capacity : ℕ) := Option (LruMap K (Entry V) capacity)

def newStore (capacity : ℕ) : Store K V capacity := if capacity = 0 then none else some LruMap.empty

/-- `ElapsedMS`: a duration in whole milliseconds, truncated. -/
def elapsedMS (now : Instant) : ℤ := int64 (now.ms.num.tdiv now.ms.den)

variable [DecidableEq K] {capacity : ℕ}

def get (now : Instant) (key : K) : Store K V capacity → Option V × Store K V capacity
  | none => (none, none)
  | some entries =>
    match entries.peek key with
    | none => (none, some entries)
    | some item =>
      if item.ttlMS ≤ int64 (elapsedMS now - item.insertedMS) then
        (none, some (entries.remove key))
      else (some item.value, some (entries.promote key))

def put (now : Instant) (key : K) (value : V) (ttlMS : ℤ) :
    Store K V capacity → Store K V capacity
  | none => none
  | some entries => some (entries.put key ⟨value, elapsedMS now, ttlMS⟩)

def step (s : Store K V capacity) : Instant × StoreCall K V → Answer V × Store K V capacity
  | (now, .get key) => readAnswer (get now key s)
  | (now, .put key value ttl) => (.stored, put now key value (cacheTtlSecToMs ttl.sec) s)

def answers (capacity : ℕ) (calls : List (Instant × StoreCall K V)) : List (Answer V) :=
  outputs step (newStore capacity) calls

theorem int64_of_small {n : ℤ} (h : |n| < 2 ^ 53) : int64 n = n := by
  have hbounds := abs_lt.mp h
  apply Int.bmod_eq_of_le
  · omega
  · omega

theorem elapsedMS_eq : elapsedMS t = ⌊t.ms⌋ := by
  have hfloor : t.ms.num.tdiv t.ms.den = ⌊t.ms⌋ := by
    rw [Int.tdiv_eq_ediv_of_nonneg (Rat.num_nonneg.mpr t.nonneg), Rat.floor_def']
  rw [elapsedMS, hfloor]
  apply int64_of_small
  have hlow := t.floor_nonneg
  have hhigh := t.floor_lt
  rw [abs_lt]
  omega

def entryOf (r : Record Instant V) : Entry V := ⟨r.value, elapsedMS r.insertedAt, r.ttlMs⟩

def expired (item : Entry V) (now : Instant) : Bool :=
  decide (item.ttlMS ≤ int64 (elapsedMS now - item.insertedMS))

theorem expired_iff : expired (entryOf r) now = true ↔ ¬ r.Present Instant.ms now := by
  have hage := int64_of_small (now.abs_age_lt r.insertedAt)
  simp only [expired, entryOf, elapsedMS_eq, hage, decide_eq_true_eq, Record.Present]
  omega

theorem answers_eq : answers capacity calls = abstractAnswers Instant.ms capacity calls := by
  apply answers_eq_of_lru Instant.ms (Mirrors entryOf)
  · rfl
  · apply mirrors_step Entry.value expired (fun _ => rfl) expired_iff
    · intro entries now key
      simp only [step, get, lookup, expired, decide_eq_true_eq]
      cases entries.peek key with
      | none => rfl
      | some item =>
        dsimp only
        split <;> rfl
    · intro entries now key stored ttl
      rfl
    · intro now key
      rfl
    · intro now key stored ttl
      rfl

end Go

/-! ### Rust -/

namespace Rust

def i64Max : ℤ := 2 ^ 63 - 1

def saturatingSub (a b : ℤ) : ℤ := max (-(2 ^ 63)) (min i64Max (a - b))

structure LocalEntry (V : Type) where
  value : V
  insertedMs : ℤ
  ttlMs : ℤ

inductive LocalRead (V : Type) where
  | absent
  | expired (entry : LocalEntry V)
  | live (value : V)

abbrev LruLocalStore (K V : Type) (capacity : ℕ) := LruMap K (LocalEntry V) capacity

/-- An engine without a store has capacity zero. -/
abbrev Engine (K V : Type) (capacity : ℕ) := Option (LruLocalStore K V capacity)

def newEngine (capacity : ℕ) : Engine K V capacity := if capacity = 0 then none else some LruMap.empty

/-- `elapsed_ms`: a duration in whole milliseconds, at most `i64::MAX`. -/
def elapsedMs (now : Instant) : ℤ := min ⌊now.ms⌋ i64Max

variable [DecidableEq K] {capacity : ℕ}

namespace LruLocalStore

def get (entries : LruLocalStore K V capacity) (key : K) (nowMs : ℤ) :
    LocalRead V × LruLocalStore K V capacity :=
  match entries.peek key with
  | none => (.absent, entries)
  | some entry =>
    if entry.ttlMs ≤ saturatingSub nowMs entry.insertedMs then
      match entries.peek key with
      | some entry => (.expired entry, entries.remove key)
      | none => (.absent, entries)
    else
      match entries.peek key with
      | some entry => (.live entry.value, entries.promote key)
      | none => (.absent, entries)

/-- The displaced entry is the replaced value or the evicted one. -/
def put (entries : LruLocalStore K V capacity) (key : K) (entry : LocalEntry V) :
    Option (LocalEntry V) × LruLocalStore K V capacity :=
  (entries.displaced key, LruMap.put entries key entry)

end LruLocalStore

def localGet (now : Instant) (key : K) : Engine K V capacity → Option V × Engine K V capacity
  | none => (none, none)
  | some entries =>
    match LruLocalStore.get entries key (elapsedMs now) with
    | (.live value, entries') => (some value, some entries')
    | (.absent, entries') => (none, some entries')
    | (.expired _, entries') => (none, some entries')

def localPut (now : Instant) (key : K) (value : V) (ttlMs : ℕ) :
    Engine K V capacity → Engine K V capacity
  | none => none
  | some entries => some (LruLocalStore.put entries key ⟨value, elapsedMs now, min ttlMs i64Max⟩).2

def step (s : Engine K V capacity) : Instant × StoreCall K V → Answer V × Engine K V capacity
  | (now, .get key) => readAnswer (localGet now key s)
  | (now, .put key value ttl) => (.stored, localPut now key value (cacheTtlSecToMs ttl.sec) s)

def answers (capacity : ℕ) (calls : List (Instant × StoreCall K V)) : List (Answer V) :=
  outputs step (newEngine capacity) calls

theorem elapsedMs_eq : elapsedMs t = ⌊t.ms⌋ := by
  have hhigh := t.floor_lt
  rw [elapsedMs, i64Max]
  omega

def entryOf (r : Record Instant V) : LocalEntry V :=
  ⟨r.value, elapsedMs r.insertedAt, min r.ttlMs i64Max⟩

def expired (entry : LocalEntry V) (now : Instant) : Bool :=
  decide (entry.ttlMs ≤ saturatingSub (elapsedMs now) entry.insertedMs)

theorem expired_iff : expired (entryOf r) now = true ↔ ¬ r.Present Instant.ms now := by
  have hage := abs_lt.mp (now.abs_age_lt r.insertedAt)
  have httl := r.ttl.supported.2
  simp only [expired, entryOf, elapsedMs_eq, saturatingSub, i64Max, decide_eq_true_eq,
    Record.Present, Record.ttlMs, cacheTtlSecToMs]
  rw [maxCacheTtlSec] at httl
  omega

theorem answers_eq : answers capacity calls = abstractAnswers Instant.ms capacity calls := by
  apply answers_eq_of_lru Instant.ms (Mirrors entryOf)
  · rfl
  · apply mirrors_step LocalEntry.value expired (fun _ => rfl) expired_iff
    · intro entries now key
      simp only [step, localGet, LruLocalStore.get, lookup, expired, decide_eq_true_eq]
      cases entries.peek key with
      | none => rfl
      | some item =>
        by_cases h : item.ttlMs ≤ saturatingSub (elapsedMs now) item.insertedMs
        · simp only [h, if_true, readAnswer]
        · simp only [h, if_false, readAnswer]
    · intro entries now key stored ttl
      rfl
    · intro now key
      rfl
    · intro now key stored ttl
      rfl

end Rust

/-! ### TypeScript -/

namespace TypeScript

/-- The wrapper that tells a stored `undefined` from a missing entry. -/
structure LocalEntry (V : Type) where
  value : V

/-- What `lru-cache` keeps of an entry of size one. -/
structure Item (V : Type) where
  entry : LocalEntry V
  start : ℚ
  ttl : ℚ

/-- A cache that is null has capacity zero. -/
abbrev LocalCache (K V : Type) (capacity : ℕ) := Option (LruMap K (Item V) capacity)

def newCache (capacity : ℕ) : LocalCache K V capacity :=
  if capacity = 0 then none else some LruMap.empty

/-- The clock given to `lru-cache`: `Math.floor(performance.now()) + 1`. -/
def perfNow (now : Instant) : ℚ := binary64 (⌊now.ms⌋ + 1)

/-- `lru-cache` expires an entry whose age is past its lifetime. A zero lifetime and a zero
start stand for an entry that does not expire. -/
def isStale (item : Item V) (now : ℚ) : Bool :=
  decide (item.ttl ≠ 0 ∧ item.start ≠ 0 ∧ item.ttl < binary64 (now - item.start))

def cacheTtlSecToMs (ttlSec : ℕ) : Except String ℕ :=
  if 0 < ttlSec ∧ ttlSec ≤ maxCacheTtlSec then .ok (ttlSec * 1000)
  else .error ("DialCache cache TTL must be a positive safe integer no greater than " ++
    "31536000 seconds")

variable [DecidableEq K] {capacity : ℕ}

def getWithResolvedConfig (now : Instant) (key : K) :
    LocalCache K V capacity → Option V × LocalCache K V capacity
  | none => (none, none)
  | some entries =>
    match lookup Item.entry (isStale · (perfNow now)) entries key with
    | (some hit, entries') => (some hit.value, some entries')
    | (none, entries') => (none, some entries')

def put (now : Instant) (key : K) (value : V) (ttlSec : ℕ) (s : LocalCache K V capacity) :
    Except String (LocalCache K V capacity) := do
  let ttlMs ← cacheTtlSecToMs ttlSec
  return s.map fun entries => entries.put key ⟨⟨value⟩, perfNow now, ttlMs - 1⟩

def step (s : LocalCache K V capacity) :
    Instant × StoreCall K V → Answer V × LocalCache K V capacity
  | (now, .get key) => readAnswer (getWithResolvedConfig now key s)
  | (now, .put key value ttl) => writeAnswer s (put now key value ttl.sec s)

def answers (capacity : ℕ) (calls : List (Instant × StoreCall K V)) : List (Answer V) :=
  outputs step (newCache capacity) calls

theorem perfNow_eq : perfNow t = ((⌊t.ms⌋ + 1 : ℤ) : ℚ) := by
  have hlow := t.floor_nonneg
  have hhigh := t.floor_lt
  have habs : |⌊t.ms⌋ + 1| < 2 ^ 53 := by
    rw [abs_lt]
    omega
  rw [perfNow, ← binary64_intCast habs]
  push_cast
  rfl

def itemOf (r : Record Instant V) : Item V := ⟨⟨r.value⟩, perfNow r.insertedAt, r.ttlMs - 1⟩

theorem isStale_iff : isStale (itemOf r) (perfNow now) = true ↔ ¬ r.Present Instant.ms now := by
  have hat := r.insertedAt.floor_nonneg
  have httl : 1000 ≤ r.ttlMs := by
    have hsec := r.ttl.supported.1
    rw [Record.ttlMs, RuntimeConfig.cacheTtlSecToMs]
    omega
  have hage : binary64 (perfNow now - perfNow r.insertedAt) =
      ((⌊now.ms⌋ - ⌊r.insertedAt.ms⌋ : ℤ) : ℚ) := by
    rw [← binary64_intCast (now.abs_age_lt r.insertedAt), perfNow_eq, perfNow_eq]
    congr 1
    push_cast
    ring
  have hlifetime : ((r.ttlMs : ℚ) - 1) = ((r.ttlMs - 1 : ℤ) : ℚ) := by
    push_cast
    rfl
  simp only [isStale, itemOf, decide_eq_true_eq, hage, hlifetime]
  simp only [perfNow_eq, ne_eq, Int.cast_eq_zero, Int.cast_lt, Record.Present]
  omega

theorem cacheTtlSecToMs_supported (ttl : CacheTtl) :
    cacheTtlSecToMs ttl.sec = .ok (RuntimeConfig.cacheTtlSecToMs ttl.sec) := if_pos ttl.supported

theorem answers_eq : answers capacity calls = abstractAnswers Instant.ms capacity calls := by
  apply answers_eq_of_lru Instant.ms (Mirrors itemOf)
  · rfl
  · apply mirrors_step (fun item => item.entry.value) (fun item now => isStale item (perfNow now))
      (fun _ => rfl) isStale_iff
    · intro entries now key
      simp only [step, getWithResolvedConfig, lookup]
      cases entries.peek key with
      | none => rfl
      | some item =>
        cases hstale : isStale item (perfNow now) with
        | true => simp only [hstale, if_true, readAnswer]
        | false => simp only [hstale, Bool.false_eq_true, if_false, readAnswer]
    · intro entries now key stored ttl
      simp only [step, put, cacheTtlSecToMs_supported]
      rfl
    · intro now key
      rfl
    · intro now key stored ttl
      simp only [step, put, cacheTtlSecToMs_supported]
      rfl

end TypeScript

/-- Every process-local store keeps to the abstract one, whatever the sequence of calls and
readings. -/
theorem local_stores_agree [DecidableEq K] (capacity : ℕ) :
    (∀ calls : List (ℚ × StoreCall K V),
      Python.LocalCache.answers capacity calls = abstractAnswers id capacity calls) ∧
    ∀ calls : List (Instant × StoreCall K V),
      Python.LocalCache.answers capacity (calls.map fun call => (call.1.ms, call.2)) =
        abstractAnswers Instant.ms capacity calls ∧
      Go.answers capacity calls = abstractAnswers Instant.ms capacity calls ∧
      Rust.answers capacity calls = abstractAnswers Instant.ms capacity calls ∧
      TypeScript.answers capacity calls = abstractAnswers Instant.ms capacity calls := by
  constructor
  · intro calls
    have hcalls : (calls.map fun call => (id call.1, call.2)) = calls := List.map_id calls
    have hpython := Python.answers_eq id capacity calls
    rwa [hcalls] at hpython
  · intro calls
    exact ⟨Python.answers_eq Instant.ms capacity calls, Go.answers_eq calls, Rust.answers_eq calls,
      TypeScript.answers_eq calls⟩

end DialCache.LocalStores
