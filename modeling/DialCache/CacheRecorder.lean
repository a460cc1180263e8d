import DialCache.CacheTraversal

/-!
# Recording what cache code does

A monitor that keeps the operations of a thread that matter for its outcome, and demands
of the guarded ones that what was recorded before allows them. Clock samples for metrics,
observations and mere suspensions leave no record.
-/

namespace DialCache.CacheRecorder

open AsyncPrograms ThreadPool CacheOperations

variable {V X α : Type}

abbrev CacheEvent (V X : Type) :=
  Event (PoolOp (CacheTask V) (CacheOp V X)) (PoolAns CacheOp.Answer (Failure X) (Settlement V))

/-- What a thread did, in order. -/
abbrev Log (V X : Type) := List (CacheEvent V X)

/-- An operation of the instance with its answer. -/
def did (op : CacheOp V X) (answer : op.Answer) : CacheEvent V X := ⟨.act op, answer⟩

def spawned (task : CacheTask V) (thread : ℕ) : CacheEvent V X := ⟨.spawn task, thread⟩

def joined (thread : ℕ) (settlement : Except (Failure X) (Settlement V)) : CacheEvent V X :=
  ⟨.join thread, settlement⟩

/-- The operations that leave a record. -/
@[simp] def recorded : PoolOp (CacheTask V) (CacheOp V X) → Bool
  | .act .performanceNow | .act .reading | .act (.observe _) | .act .yield | .act (.resolvePolicy _)
  | .act .fulfills | .act .written | .act (.read (.arm _)) | .act (.source (.arm _))
  | .act (.source .invocation) | .act (.renderMismatch _) => false
  | _ => true

/-- The operations that carry a value or a promise further. -/
@[simp] def guarded : PoolOp (CacheTask V) (CacheOp V X) → Bool
  | .act (.store (.put _ _ _)) | .act (.shadow (.enlist _ _ _)) | .act (.dump _ _)
  | .act (.write _) | .spawn _ => true
  | _ => false

/-- What is known about a running thread. -/
structure Ghost (V X : Type) where
  task : CacheTask V
  log : Log V X

def Ghost.extend (g : Ghost V X) (events : Log V X) : Ghost V X :=
  ⟨g.task, g.log ++ events⟩

@[simp] theorem Ghost.extend_nil (g : Ghost V X) : g.extend [] = g := by
  simp [Ghost.extend]

@[simp] theorem Ghost.extend_extend (g : Ghost V X) (s t : Log V X) :
    (g.extend s).extend t = g.extend (s ++ t) := by
  simp [Ghost.extend]

/-- Conditions on the guarded operations. -/
structure Guard (V X : Type) where
  allows : Ghost V X → PoolOp (CacheTask V) (CacheOp V X) → Prop
  free : ∀ g op, guarded op = false → allows g op

/-- The guard that allows everything. -/
def noGuard : Guard V X := ⟨fun _ _ => True, fun _ _ _ => trivial⟩

def recorder (G : Guard V X) : Monitor (PoolOp (CacheTask V) (CacheOp V X))
    (PoolAns CacheOp.Answer (Failure X) (Settlement V)) (Ghost V X) where
  allows := G.allows
  track g op answer := if recorded op then g.extend [⟨op, answer⟩] else g

/-- From every recorded past, `code` adds a record and an outcome that satisfy `S`. -/
def Records (G : Guard V X) (g : Ghost V X) (code : Async V X α)
    (S : Log V X → Except (Failure X) α → Prop) : Prop :=
  wp (recorder G) code (fun r g' => ∃ t, g' = g.extend t ∧ S t r) g

variable {G : Guard V X} {g : Ghost V X}

@[simp] theorem allows_free (G : Guard V X) (g : Ghost V X)
    (op : PoolOp (CacheTask V) (CacheOp V X)) (h : ¬ guarded op = true) : G.allows g op ↔ True :=
  iff_true_intro (G.free g op (Bool.eq_false_of_not_eq_true h))

@[simp] theorem wp_act (op : CacheOp V X)
    (Q : Except (Failure X) (no_index (op.Answer)) → Ghost V X → Prop) (g : Ghost V X) :
    wp (α := no_index (op.Answer)) (recorder G) (act op) Q g ↔
      G.allows g (.act op) ∧ ∀ answer : op.Answer, Q (.ok answer)
        (if recorded (.act op : PoolOp (CacheTask V) (CacheOp V X)) then g.extend [did op answer]
          else g) :=
  Iff.rfl

theorem wp_act_recorded {op : CacheOp V X} (hop : recorded (.act op) = true)
    {Q : Except (Failure X) op.Answer → Ghost V X → Prop} (g : Ghost V X) :
    wp (recorder G) (act op) Q g ↔
      G.allows g (.act op) ∧ ∀ answer : op.Answer, Q (.ok answer) (g.extend [did op answer]) := by
  rw [wp_act]
  simp only [hop, if_true]

@[simp] theorem wp_spawn (task : CacheTask V) (Q : Except (Failure X) ℕ → Ghost V X → Prop)
    (g : Ghost V X) :
    wp (recorder G) (spawn task) Q g ↔
      G.allows g (.spawn task) ∧ ∀ thread, Q (.ok thread) (g.extend [spawned task thread]) :=
  Iff.rfl

@[simp] theorem wp_join (thread : ℕ) (Q : Except (Failure X) V → Ghost V X → Prop)
    (g : Ghost V X) :
    wp (recorder G) (join thread) Q g ↔
      G.allows g (.join thread) ∧ ∀ settlement,
        Q (Settlement.value? settlement) (g.extend [joined thread settlement]) := by
  constructor
  · exact fun h => ⟨h.1, fun settlement => (wp_ofExcept _ _ _).mp (h.2 settlement)⟩
  · exact fun h => ⟨h.1, fun settlement => (wp_ofExcept _ _ _).mpr (h.2 settlement)⟩

@[simp] theorem wp_pause (Q : Except (Failure X) Unit → Ghost V X → Prop) (g : Ghost V X) :
    wp (recorder G) (pause : Async V X Unit) Q g ↔ Q (.ok ()) g :=
  ⟨fun h => h.2 (), fun h => ⟨G.free _ _ rfl, fun _ => h⟩⟩

@[simp] theorem wp_observe (observation : Observation X)
    (Q : Except (Failure X) Unit → Ghost V X → Prop) (g : Ghost V X) :
    wp (recorder G) (observe observation : Async V X Unit) Q g ↔ Q (.ok ()) g :=
  ⟨fun h => h.2 (), fun h => ⟨G.free _ _ rfl, fun _ => h⟩⟩

@[simp] theorem wp_recordError (key : CacheKeys.DialCacheKey) (layer : MetricLayer)
    (kind : MetricErrorKind) (Q : Except (Failure X) Unit → Ghost V X → Prop) (g : Ghost V X) :
    wp (recorder G) (recordError key layer kind : Async V X Unit) Q g ↔ Q (.ok ()) g :=
  wp_observe _ Q g

@[simp] theorem wp_performanceNow (Q : Except (Failure X) ℚ → Ghost V X → Prop) (g : Ghost V X) :
    wp (recorder G) (performanceNow : Async V X ℚ) Q g ↔ ∀ now, Q (.ok now) g :=
  ⟨fun h => h.2, fun h => ⟨G.free _ _ rfl, h⟩⟩

@[simp] theorem wp_dateNow (Q : Except (Failure X) ℤ → Ghost V X → Prop) (g : Ghost V X) :
    wp (recorder G) (dateNow : Async V X ℤ) Q g ↔ ∀ now, Q (.ok now) (g.extend [did .dateNow now]) :=
  ⟨fun h => h.2, fun h => ⟨G.free _ _ rfl, h⟩⟩

@[simp] theorem wp_elapsedSeconds (startMs : ℚ) (Q : Except (Failure X) ℚ → Ghost V X → Prop)
    (g : Ghost V X) :
    wp (recorder G) (elapsedSeconds startMs : Async V X ℚ) Q g ↔
      ∀ nowMs : ℚ, Q (.ok (max ((nowMs - startMs) / 1000) 0)) g := by
  simp [elapsedSeconds]

@[simp] theorem wp_awaited (code : Async V X α) (Q : Except (Failure X) α → Ghost V X → Prop)
    (g : Ghost V X) : wp (recorder G) (awaited code) Q g ↔ wp (recorder G) code Q g := by
  rw [awaited, wp_bind, wp_attempt]
  constructor <;> intro h <;> refine wp_mono h ?_ <;> intro r g' hr
  · simpa using hr
  · simpa using hr

variable {code : Async V X α} {S : Log V X → Except (Failure X) α → Prop}

theorem Records.mono {S' : Log V X → Except (Failure X) α → Prop}
    (hcode : Records G g code S) (hS : ∀ t r, S t r → S' t r) : Records G g code S' := by
  refine wp_mono hcode ?_
  rintro r g' ⟨t, rfl, ht⟩
  exact ⟨t, rfl, hS t r ht⟩

/-- Use what a part of the code records. -/
theorem wp_of_records {Q : Except (Failure X) α → Ghost V X → Prop} (hcode : Records G g code S)
    (hq : ∀ t r, S t r → Q r (g.extend t)) : wp (recorder G) code Q g := by
  refine wp_mono hcode ?_
  rintro r g' ⟨t, rfl, hS⟩
  exact hq t r hS

/-- What is recorded of code whose value is wrapped. -/
theorem Records.wrap {β : Type} (hcode : Records G g code S) (f : α → β) :
    Records G g (do return f (← code)) (fun t r =>
      ∃ outcome, r = outcome.map f ∧ S t outcome) := by
  rw [Records, wp_bind]
  refine wp_of_records hcode fun t r hS => ?_
  cases r with
  | ok a => exact ⟨t, rfl, .ok a, rfl, hS⟩
  | error e => exact ⟨t, rfl, .error e, rfl, hS⟩

theorem Ghost.extend_injective {s t : Log V X} (h : g.extend s = g.extend t) :
    s = t :=
  List.append_cancel_left (Ghost.mk.inj h).2

/-- What is recorded of a list of events. -/
def record (events : Log V X) : Log V X :=
  events.filter fun e => recorded e.op

/-- What is selected from recorded operations only is selected from their record. -/
theorem filterMap_record {β : Type} {f : CacheEvent V X → Option β}
    (hf : ∀ e, recorded e.op = false → f e = none) (events : Log V X) :
    (record events).filterMap f = events.filterMap f := by
  rw [record, List.filterMap_filter]
  refine List.filterMap_congr fun e _ => ?_
  by_cases he : recorded e.op = true
  · rw [if_pos he]
  · rw [if_neg he, hf e (Bool.eq_false_of_not_eq_true he)]

variable {events : Log V X}

theorem mem_record {e : CacheEvent V X} (he : recorded e.op = true) :
    e ∈ record events ↔ e ∈ events := by
  rw [record, List.mem_filter]
  exact and_iff_left he

theorem follow_recorder (g : Ghost V X) (events : Log V X) :
    (recorder G).follow g events = g.extend (record events) := by
  induction events generalizing g with
  | nil => simp [Monitor.follow, record]
  | cons e events ih =>
    change (recorder G).follow (if recorded e.op then g.extend [e] else g) events = _
    rw [ih, record, record, List.filter_cons]
    split
    · rw [Ghost.extend_extend, List.singleton_append]
    · rfl

/-- What is recorded of a complete run. -/
theorem Records.sound {r : Except (Failure X) α} (hcode : Records G g code S)
    (hr : Runs code events r) : S (record events) r := by
  obtain ⟨t, ht, hS⟩ := wp_sound hcode hr
  rw [follow_recorder] at ht
  rwa [Ghost.extend_injective ht]

/-- What is recorded of a complete run of code that no guard watches. -/
theorem record_of_runs {r : Except (Failure X) α} (hcode : ∀ g, Records noGuard g code S)
    (hr : Runs code events r) : S (record events) r :=
  (hcode ⟨.call ⟨⟨true, none⟩, ⟨[], [], none, true⟩, none⟩, []⟩).sound hr

/-- Code that records nothing and always returns. -/
def Silent (code : Async V X Unit) : Prop :=
  ∀ (G : Guard V X) (g : Ghost V X) (Q : Except (Failure X) Unit → Ghost V X → Prop),
    Q (.ok ()) g → wp (recorder G) code Q g

theorem silent_observeSince (observation : ℚ → Observation X) (startMs : ℚ) :
    Silent (do observe (observation (← elapsedSeconds startMs)) : Async V X Unit) := by
  intro G g Q hQ
  simpa using hQ

/-- A silent `finally` block changes neither record nor outcome. -/
theorem records_andFinally {cleanup : Async V X Unit} (hcode : Records G g code S)
    (hcleanup : Silent cleanup) : Records G g (code.andFinally cleanup) S := by
  rw [Records, wp_andFinally]
  refine wp_of_records hcode ?_
  intro t r hS
  refine hcleanup G _ _ ?_
  rw [thenWp_ok, wp_ofExcept]
  exact ⟨t, rfl, hS⟩

end DialCache.CacheRecorder
