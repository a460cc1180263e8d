import Mathlib.Logic.Function.Basic
import DialCache.RedisFrames
import DialCache.WatermarkLaw

/-!
# The invalidation fence

One tracked entity on one Redis primary: its watermark key and its value keys. Clients
invalidate, write frames and read in any order, each with its own clock; only the server
time orders them. An accepted invalidation fences every frame stamped at or before
`invalidatedAt + buffer`, now and for as long as such a frame can still be stored.
-/

namespace DialCache.InvalidationFence

open Binary64Integers DecimalText ExpiringKeys JsValues InvalidationScript RedisFrames WatermarkLaw

variable {K τ : Type*} [DecidableEq K]

/-- A value write as core dispatches it for a tracked key: its lifetime is capped. -/
structure FrameWrite where
  payload : RedisCachePayload
  createdAtMs : JsNumber
  px : ℕ
  px_le : px ≤ 3600000

inductive Action (K : Type*) where
  | invalidate (argv1 argv2 : Bytes)
  | set (key : K) (write : FrameWrite)
  | read (key : K)
  | advance (ms : ℕ)

structure Primary (K τ : Type*) where
  now : ℕ
  watermark : Slot (Content τ)
  values : K → Slot Bytes

/-- No value key has been written yet; the watermark key is in any state. -/
def Primary.initial (now : ℕ) (watermark : Slot (Content τ)) : Primary K τ :=
  ⟨now, watermark, fun _ => none⟩

variable (s : Primary K τ)

/-- `SET valueKey frame PX px`, dispatched only if the frame encodes. -/
def setFrame (key : K) (write : FrameWrite) : Primary K τ :=
  match encodeRedisFrame write.payload write.createdAtMs with
  | .ok bytes => { s with values := Function.update s.values key (setPx bytes s.now write.px) }
  | .error _ => s

def act : Action K → Primary K τ
  | .invalidate argv1 argv2 =>
      { s with watermark := (invalidateCacheScript argv1 argv2 s.now s.watermark).2 }
  | .set key write => setFrame s key write
  | .read _ => s
  | .advance ms => { s with now := s.now + ms }

def perform (actions : List (Action K)) : Primary K τ := actions.foldl act s

/-- `MGET` answers null for a key that is absent or not a string. -/
def rawReply : Option Bytes → RawReply
  | none => .null
  | some bytes => .buffer bytes

/-- The atomic `MGET valueKey watermarkKey`, decoded. -/
def trackedRead (key : K) : Except ProtocolError RedisReadResult :=
  decodeTrackedRedisReadResult
    (rawReply ((lookup (s.values key) s.now).map Entry.content))
    (rawReply (storedText s.watermark s.now))

/-- Until when an invalidation at server time `time` is answerable for its fence. -/
def fenceEnd (time buffer : ℕ) : ℕ := time + max 7200000 (buffer + 3660000)

/-- A stored frame, with its stamp. -/
def Holds (entry : Entry Bytes) (stamp : ℕ) : Prop :=
  ∃ payload, entry.content = frameBytes payload stamp ∧ stamp ≤ JsNumber.maxSafeInteger

/-- Every stored frame is gone within an hour. -/
def Bounded : Prop :=
  ∀ key entry, s.values key = some entry →
    ∃ stamp, Holds entry stamp ∧ entry.expiresAt ≤ WithTop.some (s.now + 3600000)

/-- The state after an invalidation at `time` with these arguments. -/
structure Fenced (time buffer invalidatedAt : ℕ) (s : Primary K τ) : Prop where
  started : time ≤ s.now
  watermark_kept : s.now < fenceEnd time buffer →
    ∃ watermark expiresAt, s.watermark = some ⟨.string (decimalBytes watermark), expiresAt⟩ ∧
      invalidatedAt + buffer ≤ watermark ∧ watermark ≤ 2 ^ 53 - 1 ∧
      WithTop.some (fenceEnd time buffer) ≤ expiresAt
  stale_gone : ∀ key entry, s.values key = some entry →
    ∃ stamp, Holds entry stamp ∧
      (stamp ≤ invalidatedAt + buffer → entry.expiresAt ≤ WithTop.some (fenceEnd time buffer))

theorem perform_snoc (actions : List (Action K)) (action : Action K) :
    perform s (actions ++ [action]) = act (perform s actions) action := by
  simp [perform]

variable {s : Primary K τ}

/-- What a write leaves under each key: what was there, or the encoded frame. -/
theorem setFrame_values {key key' : K} {write : FrameWrite} {entry : Entry Bytes}
    (h : (setFrame s key write).values key' = some entry) :
    s.values key' = some entry ∨
      ∃ stamp, (JsValue.number write.createdAtMs).natural? = some stamp ∧ Holds entry stamp ∧
        entry.expiresAt = WithTop.some (s.now + write.px) := by
  unfold setFrame encodeRedisFrame at h
  cases hstamp : (JsValue.number write.createdAtMs).natural? with
  | none =>
    rw [hstamp] at h
    exact Or.inl h
  | some stamp =>
    rw [hstamp] at h
    by_cases hk : key' = key
    · subst hk
      simp only [Function.update_self, setPx, Option.some.injEq] at h
      subst h
      exact Or.inr ⟨stamp, rfl, ⟨write.payload, rfl, (JsValue.eq_of_natural? hstamp).2⟩, rfl⟩
    · simp only [Function.update_of_ne hk] at h
      exact Or.inl h

@[simp] theorem setFrame_now (s : Primary K τ) (key : K) (write : FrameWrite) :
    (setFrame s key write).now = s.now := by
  unfold setFrame
  split <;> rfl

@[simp] theorem setFrame_watermark (s : Primary K τ) (key : K) (write : FrameWrite) :
    (setFrame s key write).watermark = s.watermark := by
  unfold setFrame
  split <;> rfl

omit [DecidableEq K] in
theorem bounded_initial (now : ℕ) (watermark : Slot (Content τ)) :
    Bounded (Primary.initial now watermark : Primary K τ) := by
  intro key entry h
  cases h

theorem bounded_act (h : Bounded s) (action : Action K) : Bounded (act s action) := by
  cases action with
  | invalidate argv1 argv2 => exact h
  | read key => exact h
  | advance ms =>
    intro key entry hentry
    obtain ⟨stamp, hholds, hle⟩ := h key entry hentry
    refine ⟨stamp, hholds, le_trans hle (WithTop.coe_le_coe.mpr ?_)⟩
    simp only [act]
    omega
  | set key write =>
    intro key' entry hentry
    rcases setFrame_values hentry with hold | ⟨stamp, -, hholds, hexpires⟩
    · simpa [act] using h key' entry hold
    · have := write.px_le
      refine ⟨stamp, hholds, ?_⟩
      rw [hexpires]
      simp only [act, setFrame_now]
      exact WithTop.coe_le_coe.mpr (by omega)

theorem bounded_perform (h : Bounded s) (actions : List (Action K)) :
    Bounded (perform s actions) := by
  induction actions using List.reverseRecOn with
  | nil => exact h
  | append_singleton actions action ih =>
    rw [perform_snoc]
    exact bounded_act ih action

theorem act_invalidate_watermark (s : Primary K τ) (argv1 argv2 : Bytes) :
    (act s (.invalidate argv1 argv2)).watermark = execute s.watermark ⟨argv1, argv2, s.now⟩ :=
  rfl

variable {time buffer : ℕ}

/-- An accepted execution leaves an expiry that covers the fence of every earlier one. -/
theorem fenceEnd_le_nextExpiry {slot : Slot (Content τ)} {now watermark at_ : ℕ} {raw : Bytes}
    {expiresAt : WithTop ℕ} (hb : buffer ≤ 31536000000) (ht : time ≤ now)
    (hslot : slot = some ⟨.string raw, expiresAt⟩) (hnow : now < fenceEnd time buffer)
    (hle : WithTop.some (fenceEnd time buffer) ≤ expiresAt) :
    WithTop.some (fenceEnd time buffer) ≤ nextExpiry slot now watermark at_ := by
  have halive : (⟨.string raw, expiresAt⟩ : Entry (Content τ)).aliveAt now :=
    lt_of_lt_of_le (WithTop.coe_lt_coe.mpr hnow) hle
  have hl : lookup slot now = some ⟨.string raw, expiresAt⟩ := by
    rw [hslot, lookup_some halive]
  rw [nextExpiry, hl]
  cases expiresAt with
  | top => exact le_top
  | coe expiry =>
    have hexp : fenceEnd time buffer ≤ expiry := WithTop.coe_le_coe.mp hle
    unfold fenceEnd at hnow hexp ⊢
    generalize hm : max 7200000 (buffer + 3660000) = lifetime at hnow hexp ⊢
    have hsmall : lifetime ≤ 2 ^ 53 := by omega
    have hround : time + lifetime - now ≤ nearest (expiry - now) :=
      le_nearest (by omega) (by omega)
    refine WithTop.coe_le_coe.mpr ?_
    have := le_max_left (nearest (expiry - now)) (desiredTtlMs watermark at_)
    omega

variable {invalidatedAt : ℕ}

/-- The fence is up right after an accepted execution. -/
theorem fenced_of_invalidate (h : Bounded s) {argv1 argv2 : Bytes}
    (ha : Accepts argv1 argv2 buffer invalidatedAt) :
    Fenced s.now buffer invalidatedAt (act s (.invalidate argv1 argv2)) := by
  have hsafe := ha.sum_le
  have hb := ha.buffer_le
  refine ⟨le_rfl, fun _ => ?_, ?_⟩
  · have ha' : Execution.Accepted ⟨argv1, argv2, s.now⟩ buffer invalidatedAt := ha
    have hvalue := storedValue_le (storedText s.watermark s.now)
    rw [act_invalidate_watermark, execute_accepted ha']
    generalize hw : max (storedValue (storedText s.watermark s.now)) (invalidatedAt + buffer) =
      watermark
    have hle : invalidatedAt + buffer ≤ watermark := hw ▸ le_max_right _ _
    refine ⟨watermark, _, rfl, hle, hw ▸ max_le hvalue (by omega), ?_⟩
    have hdesired : max 7200000 (buffer + 3660000) ≤ desiredTtlMs watermark invalidatedAt :=
      max_le (minWatermarkTtlMs_le_desiredTtlMs _ _) (le_desiredTtlMs hb hle)
    refine le_trans (WithTop.coe_le_coe.mpr ?_) (desiredTtl_le_nextExpiry _ _ _ _)
    exact Nat.add_le_add_left hdesired s.now
  · intro key entry hentry
    obtain ⟨stamp, hholds, hle⟩ := h key entry hentry
    refine ⟨stamp, hholds, fun _ => le_trans hle (WithTop.coe_le_coe.mpr ?_)⟩
    unfold fenceEnd
    omega

/-- What a write must satisfy to respect the fence: after the first hour, a frame stamped
at or before it was not delayed more than a minute longer than the invalidation was. -/
def RespectsFence (time buffer invalidatedAt : ℕ) (s : Primary K τ) (write : FrameWrite) : Prop :=
  ∀ stamp, (JsValue.number write.createdAtMs).natural? = some stamp →
    time + 3600000 < s.now → stamp ≤ invalidatedAt + buffer →
    (s.now : ℤ) - stamp ≤ (time : ℤ) - invalidatedAt + 60000

theorem fenced_invalidate (hb : buffer ≤ 31536000000) (h : Fenced time buffer invalidatedAt s)
    (argv1 argv2 : Bytes) :
    Fenced time buffer invalidatedAt (act s (.invalidate argv1 argv2)) := by
  refine ⟨h.started, fun hnow => ?_, h.stale_gone⟩
  obtain ⟨watermark, expiresAt, hslot, hle, hsafe, hexpires⟩ := h.watermark_kept hnow
  have halive : (⟨.string (decimalBytes watermark), expiresAt⟩ : Entry (Content τ)).aliveAt s.now :=
    lt_of_lt_of_le (WithTop.coe_lt_coe.mpr hnow) hexpires
  rw [act_invalidate_watermark]
  cases hsum : acceptedSum ⟨argv1, argv2, s.now⟩ with
  | none =>
    rw [execute_rejected (rejected_of_acceptedSum hsum)]
    exact ⟨watermark, expiresAt, hslot, hle, hsafe, hexpires⟩
  | some sum =>
    obtain ⟨buffer', invalidatedAt', ha, rfl⟩ := accepted_of_acceptedSum hsum
    have hsafe' := ha.sum_le
    rw [execute_accepted ha]
    refine ⟨_, _, rfl, ?_, ?_, fenceEnd_le_nextExpiry hb h.started hslot hnow hexpires⟩
    · rw [hslot, storedText_string halive, storedValue_decimalBytes hsafe]
      exact le_trans hle (le_max_left _ _)
    · exact max_le (storedValue_le _) (by omega)

theorem fenced_set (h : Fenced time buffer invalidatedAt s) (key : K) {write : FrameWrite}
    (hw : RespectsFence time buffer invalidatedAt s write) :
    Fenced time buffer invalidatedAt (act s (.set key write)) := by
  have hnow : (act s (.set key write)).now = s.now := setFrame_now s key write
  have hwatermark : (act s (.set key write)).watermark = s.watermark :=
    setFrame_watermark s key write
  refine ⟨hnow ▸ h.started, ?_, ?_⟩
  · rw [hnow, hwatermark]
    exact h.watermark_kept
  intro key' entry hentry
  rcases setFrame_values hentry with hold | ⟨stamp, hstamp, hholds, hexpires⟩
  · exact h.stale_gone key' entry hold
  · refine ⟨stamp, hholds, fun hstale => ?_⟩
    have hpx := write.px_le
    rw [hexpires]
    refine WithTop.coe_le_coe.mpr ?_
    unfold fenceEnd
    by_cases hlate : time + 3600000 < s.now
    · have := hw stamp hstamp hlate hstale
      omega
    · omega

theorem fenced_act (hb : buffer ≤ 31536000000) (h : Fenced time buffer invalidatedAt s)
    (action : Action K)
    (hw : ∀ key write, action = .set key write → RespectsFence time buffer invalidatedAt s write) :
    Fenced time buffer invalidatedAt (act s action) := by
  cases action with
  | invalidate argv1 argv2 => exact fenced_invalidate hb h argv1 argv2
  | set key write => exact fenced_set h key (hw key write rfl)
  | read key => exact h
  | advance ms =>
    have hstarted := h.started
    refine ⟨?_, fun hnow => h.watermark_kept ?_, h.stale_gone⟩
    · simp only [act]
      omega
    · simp only [act] at hnow
      omega

theorem fenced_perform (hb : buffer ≤ 31536000000) (h : Fenced time buffer invalidatedAt s)
    (actions : List (Action K))
    (hw : ∀ before key write after, actions = before ++ .set key write :: after →
      RespectsFence time buffer invalidatedAt (perform s before) write) :
    Fenced time buffer invalidatedAt (perform s actions) := by
  induction actions using List.reverseRecOn with
  | nil => exact h
  | append_singleton actions action ih =>
    rw [perform_snoc]
    refine fenced_act hb (ih ?_) action ?_
    · rintro before key write after rfl
      exact hw before key write (after ++ [action]) (by simp)
    · rintro key write rfl
      exact hw actions key write [] rfl

omit [DecidableEq K] in
/-- A hit shows a live stored frame, and no watermark read with it reaches its stamp. -/
theorem hit_of_trackedRead {key : K} {frame : DecodedRedisFrame}
    (hholds : ∀ entry, s.values key = some entry → ∃ stamp, Holds entry stamp)
    (hit : trackedRead s key = .ok (.frame frame)) :
    ∃ entry, s.values key = some entry ∧ entry.aliveAt s.now ∧ Holds entry frame.createdAtMs ∧
      ∀ bytes w, storedText s.watermark s.now = some bytes → parseRedisWatermark bytes = some w →
        w < frame.createdAtMs := by
  unfold trackedRead at hit
  cases hl : lookup (s.values key) s.now with
  | none =>
    rw [hl] at hit
    cases hw : storedText s.watermark s.now <;> rw [hw] at hit <;> cases hit
  | some entry =>
    obtain ⟨hentry, halive⟩ := lookup_eq_some_iff.mp hl
    obtain ⟨stamp, payload, hcontent, hsafe⟩ := hholds entry hentry
    obtain ⟨hnull, hbuffer⟩ := decodeTrackedRedisReadResult_frameBytes payload stamp
    rw [hl, Option.map_some, hcontent] at hit
    have hstamp : frame.createdAtMs = stamp ∧ ∀ bytes w,
        storedText s.watermark s.now = some bytes → parseRedisWatermark bytes = some w →
          w < stamp := by
      cases hw : storedText s.watermark s.now with
      | none =>
        rw [hw, rawReply, rawReply, hnull] at hit
        exact ⟨(hit_of_decodeTrackedFrame hsafe hit).1, by simp⟩
      | some bytes =>
        rw [hw, rawReply, rawReply, hbuffer] at hit
        cases hp : parseRedisWatermark bytes with
        | none =>
          rw [hp] at hit
          cases hit
        | some watermark =>
          rw [hp] at hit
          obtain ⟨hc, hlt⟩ := hit_of_decodeTrackedFrame hsafe hit
          refine ⟨hc, ?_⟩
          intro bytes' w hbytes hpw
          obtain rfl := Option.some.inj hbytes
          rw [hp] at hpw
          exact hlt w hpw
    refine ⟨entry, hentry, halive, ⟨payload, ?_, ?_⟩, ?_⟩
    · rw [hcontent, hstamp.1]
    · rw [hstamp.1]
      exact hsafe
    · rw [hstamp.1]
      exact hstamp.2

theorem holds_unique {entry : Entry Bytes} {m n : ℕ} (hm : Holds entry m)
    (hn : Holds entry n) : m = n := by
  obtain ⟨p, hp, hmle⟩ := hm
  obtain ⟨q, hq, hnle⟩ := hn
  have h := congrArg readFrameCreatedAtMs (hp.symm.trans hq)
  rwa [readFrameCreatedAtMs_frameBytes p hmle, readFrameCreatedAtMs_frameBytes q hnle] at h

omit [DecidableEq K] in
theorem trackedRead_of_fenced (h : Fenced time buffer invalidatedAt s) {key : K}
    {frame : DecodedRedisFrame} (hit : trackedRead s key = .ok (.frame frame)) :
    invalidatedAt + buffer < frame.createdAtMs := by
  obtain ⟨entry, hentry, halive, hholds, hfence⟩ := hit_of_trackedRead
    (fun entry hentry => (h.stale_gone key entry hentry).imp fun _ hs => hs.1) hit
  by_cases hnow : s.now < fenceEnd time buffer
  · obtain ⟨watermark, expiresAt, hslot, hle, hsafe, hexpires⟩ := h.watermark_kept hnow
    have halive' : (⟨.string (decimalBytes watermark), expiresAt⟩ :
        Entry (Content τ)).aliveAt s.now :=
      lt_of_lt_of_le (WithTop.coe_lt_coe.mpr hnow) hexpires
    have htext : storedText s.watermark s.now = some (decimalBytes watermark) := by
      rw [hslot, storedText_string halive']
    have := hfence _ _ htext (parseRedisWatermark_decimalBytes hsafe)
    omega
  · by_contra hstale
    obtain ⟨stamp, hstamp, hgone⟩ := h.stale_gone key entry hentry
    obtain rfl := holds_unique hholds hstamp
    have hle := lt_of_lt_of_le halive (hgone (by omega))
    exact hnow (WithTop.coe_lt_coe.mp hle)

/-- Over every run: after an accepted invalidation, no tracked read returns a frame stamped
at or before its fence, provided the writes before the read respect it. -/
theorem trackedRead_above_fence (now : ℕ) (watermark : Slot (Content τ))
    (before after : List (Action K)) (argv1 argv2 : List UInt8) (buffer invalidatedAt : ℕ)
    (key : K) (frame : DecodedRedisFrame) (accepted : Accepts argv1 argv2 buffer invalidatedAt)
    (writes : ∀ pre target write post,
      before ++ .invalidate argv1 argv2 :: after = pre ++ .set target write :: post →
      RespectsFence (perform (Primary.initial now watermark) before).now buffer invalidatedAt
        (perform (Primary.initial now watermark : Primary K τ) pre) write)
    (hit : trackedRead (perform (Primary.initial now watermark : Primary K τ)
      (before ++ .invalidate argv1 argv2 :: after)) key = .ok (.frame frame)) :
    invalidatedAt + buffer < frame.createdAtMs := by
  have hb := bounded_perform (bounded_initial now watermark) before (K := K)
  have hstart := fenced_of_invalidate hb accepted
  have hrun : perform (Primary.initial now watermark : Primary K τ)
      (before ++ .invalidate argv1 argv2 :: after) =
      perform (act (perform (Primary.initial now watermark) before) (.invalidate argv1 argv2))
        after := by
    simp [perform]
  rw [hrun] at hit
  refine trackedRead_of_fenced (fenced_perform accepted.buffer_le hstart after ?_) hit
  rintro pre target write post rfl
  have := writes (before ++ .invalidate argv1 argv2 :: pre) target write post (by simp)
  simpa [perform] using this

/-- A frame stamped after the fence is read back while the invalidation is still fresh. -/
theorem trackedRead_above_fence_reads_newer_frame :
    trackedRead (perform (Primary.initial 0 none : Primary Unit Unit)
        ([] ++ .invalidate (decimalBytes 5) (decimalBytes 10) ::
          [.set () ⟨.binary [7], .ofInt 16, 1000, by decide⟩])) () =
      .ok (.frame ⟨.binary [7], 16⟩) ∧ 10 + 5 < 16 := by
  have hit : trackedRead (perform (Primary.initial 0 none : Primary Unit Unit)
      ([] ++ .invalidate (decimalBytes 5) (decimalBytes 10) ::
        [.set () ⟨.binary [7], .ofInt 16, 1000, by decide⟩])) () =
      .ok (.frame ⟨.binary [7], 16⟩) := by
    decide +kernel
  refine ⟨hit, trackedRead_above_fence 0 none [] _ _ _ 5 10 () _ ?_ ?_ hit⟩
  · exact ⟨by decide +kernel, by decide +kernel, by norm_num, by decide +kernel,
      by decide +kernel, by norm_num⟩
  · intro pre target write post hsplit stamp hstamp hlate
    exfalso
    have hnow : (perform (Primary.initial 0 none : Primary Unit Unit) pre).now = 0 := by
      cases pre with
      | nil => cases hsplit
      | cons action pre =>
        cases pre with
        | nil =>
          obtain ⟨rfl, -⟩ := List.cons.inj hsplit
          rfl
        | cons action' pre =>
          have := congrArg List.length hsplit
          simp at this
    rw [hnow] at hlate
    omega

end DialCache.InvalidationFence
