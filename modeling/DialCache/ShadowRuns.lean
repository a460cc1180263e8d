import DialCache.InstanceRuns

/-!
# Threads of shadow work

What the threads of an admitted job do in an execution of an instance. They serve nothing: they store
no value and enlist no job, and what they write to Redis is what the source of their caller settled
with.
-/

namespace DialCache.ShadowRuns

open AsyncPrograms ThreadPool CacheKeys CacheOperations CacheRecorder RuntimeConfig RedisCache
open RefillTraces ShadowValidation CacheInstance InstanceRuns

variable {V X α β : Type} {settings : Settings X} {G : Guard V X} {g : Ghost V X}
  {p : Async V X α} {f : α → Async V X β}

/-- The guard allows what the code does. -/
abbrev Allowed (G : Guard V X) (g : Ghost V X) (code : Async V X α) : Prop :=
  wp (recorder G) code (fun _ _ => True) g

/-- Code that carries nothing further: every guard allows it. -/
def Plain (code : Async V X α) : Prop := ∀ (G : Guard V X) (g : Ghost V X), Allowed G g code

theorem plain_ofExcept (r : Except (Failure X) α) : Plain (Program.ofExcept r : Async V X α) :=
  fun _ _ => (wp_ofExcept _ _ _).mpr trivial

theorem plain_perform {op : PoolOp (CacheTask V) (CacheOp V X)} (h : guarded op = false) :
    Plain (Program.perform op) :=
  fun G _ => ⟨G.free _ _ h, fun _ => trivial⟩

theorem Plain.bind (hp : Plain p) (hf : ∀ a, Plain (f a)) : Plain (p >>= f) := by
  intro G g
  rw [Allowed, wp_bind]
  refine wp_mono (hp G g) fun r g' _ => ?_
  cases r with
  | ok a => exact hf a G g'
  | error e => trivial

theorem Plain.attempt (hp : Plain p) : Plain (p.attempt : Async V X _) :=
  fun G g => (wp_attempt _ _ _).mpr (hp G g)

theorem plain_recordShadowValidation (key : DialCacheKey) (report : ShadowReport V) :
    Plain (recordShadowValidation key report : Async V X Unit) := by
  intro G g
  obtain ⟨outcome, _ | age, _ | details⟩ := report
  all_goals simp [recordShadowValidation, recordValueAge, warnDetails, warnShadowMismatch]
  all_goals rintro (_ | failure) (_ | _) <;> simp

section Job

variable {redis : RedisSettings X} {job source : ℕ} {work : ShadowWork} {deadlineStartedAtMs : ℚ}
  {config : ResolvedRemoteLayerConfig}

-- The rules follow the code, one step at a time and through every branch.
theorem plain_readShadowFrame (maxAgeSec : Option ℕ) (policy : FutureFramePolicy) :
    Plain (readShadowFrame job work maxAgeSec policy : Async V X _) := by
  repeat' first
    | refine .bind ?_ fun _ => ?_
    | split
    | refine .attempt ?_
    | exact plain_perform rfl
    | exact plain_ofExcept _
    | exact fun _ _ => trivial
    | delta recordReadMiss validateFrameAge recordOffset

/-- A comparison carries nothing further, whichever way it ends. -/
theorem plain_withCompare : Plain (withSource job work deadlineStartedAtMs
    (shadowCompare redis job work deadlineStartedAtMs) : Async V X _) := by
  repeat' first
    | with_reducible exact plain_readShadowFrame _ _
    | refine .bind ?_ fun _ => ?_
    | split
    | refine .attempt ?_
    | exact plain_perform rfl
    | exact plain_ofExcept _
    | exact fun _ _ => trivial
    | delta shadowSource sourceFailure
    | delta compareValues
    | delta recordDecompression setMismatchDetails

theorem allowed_unlessExpired {rest : Async V X ShadowValidationOutcome}
    (h : ∀ t, Allowed G (g.extend t) rest) :
    Allowed G g (unlessExpired job work deadlineStartedAtMs rest) := by
  rw [Allowed, unlessExpired, wp_bind]
  refine wp_of_records (records_abandonIfExpired job work _) ?_
  rintro t _ ⟨expired, rfl, -⟩
  rw [thenWp_ok, wp_ite]
  exact ⟨fun _ => trivial, fun _ => h t⟩

/-- What the threads of a job may carry further: the job to its operation, and to Redis, under the
key of the job, what the source of the caller settled with. -/
def shadowAllows (job : ℕ) (work : ShadowWork) (g : Ghost V X) :
    PoolOp (CacheTask V) (CacheOp V X) → Prop
  | .act (.store (.put _ _ _)) | .act (.shadow (.enlist _ _ _)) => False
  | .act (.dump key value) => key = work.plan.key ∧ ∃ source config,
      work.start = .redis source config ∧ joined source (.ok (.value value)) ∈ g.log
  | .act (.write request) => request.valueKey = redisKey work.plan.key ∧
      ∃ value, did (.dump work.plan.key value) () ∈ g.log
  | .spawn task => ∃ start, task = .shadowOperation job work start
  | _ => True

def shadowing (job : ℕ) (work : ShadowWork) : Guard V X where
  allows := shadowAllows job work
  free := by
    intro g op hop
    unfold shadowAllows
    split <;> trivial

theorem allowed_shadowFill {value : V} (fence : Option ℕ)
    (hstart : work.start = .redis source config)
    (hjoined : joined source (.ok (.value value)) ∈ g.log) :
    Allowed (shadowing job work) g
      (shadowFill redis job work deadlineStartedAtMs config fence value) := by
  have hput : PutAllowed work.plan.key value (shadowing job work) g := by
    refine ⟨fun t _ => ?_, fun t request hdump hkey => ?_⟩
    · exact ⟨rfl, source, config, hstart, List.mem_append_left t hjoined⟩
    · exact ⟨hkey, value, List.mem_append_right _ hdump⟩
  simp only [Allowed, shadowFill, wp_tryCatch, wp_bind, wp_awaited]
  refine wp_of_records (records_putForShadow config job work _ hput) fun t r _ => ?_
  cases r with
  | error e => simp
  | ok filled =>
    rw [thenWp_ok]
    refine wp_mono (allowed_unlessExpired fun t => trivial) fun r _ _ => ?_
    cases r <;> simp

theorem allowed_withFill (fence : Option ℕ) (hstart : work.start = .redis source config) :
    Allowed (shadowing job work) g (withSource job work deadlineStartedAtMs
      (shadowFill redis job work deadlineStartedAtMs config fence) : Async V X _) := by
  simp only [Allowed, withSource, sourceFailure, shadowSource, hstart, wp_bind, wp_attempt]
  simp
  rintro (e | value | _ | _) <;> simp [Settlement.value?]
  exact allowed_unlessExpired fun t => allowed_shadowFill fence hstart (by simp [Ghost.extend])

theorem allowed_validateShadow : Allowed (shadowing job work) g
    (validateShadow redis job work deadlineStartedAtMs : Async V X _) := by
  rw [validateShadow]
  split
  · exact plain_withCompare _ _
  · rename_i source config hstart
    rw [Allowed, wp_bind, wp_attempt]
    refine wp_mono (plain_readShadowFrame _ _ _ _) fun r g' _ => ?_
    cases r with
    | error e => trivial
    | ok result =>
      refine allowed_unlessExpired fun t => ?_
      cases result with
      | miss miss => exact allowed_withFill _ hstart
      | frame frame => exact ⟨trivial, fun _ => plain_withCompare _ _⟩

/-- The job that a thread of shadow work belongs to. -/
def taskJob : CacheTask V → Option (ℕ × ShadowWork)
  | .shadowRun job work | .shadowOperation job work _ | .shadowReport job work _ => some (job, work)
  | _ => none

theorem allowed_body {task : CacheTask V} (h : taskJob task = some (job, work)) :
    Allowed (shadowing job work) ⟨task, []⟩ (body settings task) := by
  cases task with
  | shadowRun _ _ =>
    cases h
    cases hstart : work.start <;>
      simp [body, runShadowValidation, deadlineStart, hstart, shadowing, shadowAllows]
  | shadowOperation _ _ start =>
    cases h
    rw [body]
    split
    · simp only [Allowed, shadowOperation, wp_bind, wp_pause, thenWp_ok, wp_andFinally]
      refine wp_mono (allowed_unlessExpired fun t => allowed_validateShadow) fun r _ _ => ?_
      cases r <;> simp
    · trivial
  | shadowReport _ _ report =>
    cases h
    exact (plain_recordShadowValidation _ report).bind (fun _ => plain_ofExcept (.ok _)) _ _
  | _ => cases h

/-- In every execution of an instance the threads of a job keep to what their job may do. -/
theorem shadow_thread_allowed {threads : List (CacheThread V X)} {thread : CacheThread V X}
    (h : Execution (body settings) threads) (hthread : thread ∈ threads)
    (hjob : taskJob thread.task = some (job, work)) {before after : Log V X} {e : CacheEvent V X}
    (hevents : thread.events = before ++ e :: after) :
    shadowAllows job work ⟨thread.task, record before⟩ e.op := by
  have hallows := wp_allows (allowed_body hjob) (hevents ▸ h.runs thread hthread)
  rwa [follow_recorder] at hallows

end Job

end DialCache.ShadowRuns
