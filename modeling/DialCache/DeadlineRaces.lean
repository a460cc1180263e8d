import Mathlib.Algebra.Order.Floor.Defs
import Mathlib.Algebra.Order.Floor.Ring
import Mathlib.Data.Rat.Floor
import DialCache.Binary64Rationals

/-!
# Races for a deadline

`withMonotonicDeadline` with its flag, its timer and its two callbacks. The initial check, timer
deliveries and the reaction to the operation's settlement race for the flag; each takes one sample
of the clock. A run is any order of these events under a clock that does not go back, with timers
that are delivered at any time while they are armed. The verdict of a run is that of its first
event that decides.
-/

namespace DialCache.DeadlineRaces

open Binary64Rationals

variable {α X : Type}

/-- What a promise with a deadline settles with: the settlement of its operation, or the timeout. -/
inductive Verdict (α : Type) where
  | adopted (settlement : α)
  | timedOut
deriving DecidableEq

def Verdict.isTimedOut : Verdict α → Bool
  | .adopted _ => false
  | .timedOut => true

/-! ### The combinator -/

/-- `onTimeout` is what a call of the callback does, where there is one. -/
structure Options (X : Type) where
  timeoutMs : ℚ
  onTimeout : Option (Except X Unit)

structure Timer where
  armedAtMs : ℚ
  delayMs : ℤ

/-- What the call of the operation does. -/
inductive Invocation (α X : Type) where
  | threw (error : X)
  | returned (value : α)
  | deferred

/-- The promise of the operation, which is called in a microtask of its own. -/
inductive Operation (α X : Type) where
  | scheduled
  | running
  | settled (result : Except X α)
  | observed (result : Except X α) (atMs : ℚ)

/-- The state of the executor. `settlements` are the calls of `resolve` and `reject`, where
`timedOut` is `reject(timeoutError())`. -/
structure State (α X : Type) where
  startedAtMs : ℚ
  clockMs : ℚ
  operation : Operation α X
  settled : Bool
  timer : Option Timer
  settlements : List (Verdict (Except X α))
  timeoutErrors : ℕ
  onTimeouts : ℕ

/-- Differences are rounded, as the host subtracts doubles. -/
def elapsedMs (startedAtMs nowMs : ℚ) : ℚ := max (binary64 (nowMs - startedAtMs)) 0

variable (options : Options X)

def remainingMs (startedAtMs nowMs : ℚ) : ℚ :=
  binary64 (options.timeoutMs - elapsedMs startedAtMs nowMs)

def scheduleTimer (s : State α X) (nowMs : ℚ) (delayMs : ℤ) : State α X :=
  { s with timer := some ⟨nowMs, delayMs⟩ }

def clearTimer (s : State α X) : State α X := { s with timer := none }

/-- `try { onTimeout?.() } catch {}`. -/
def callOnTimeout (s : State α X) : State α X :=
  match options.onTimeout with
  | none => s
  | some (.ok ()) => { s with onTimeouts := s.onTimeouts + 1 }
  | some (.error _) => { s with onTimeouts := s.onTimeouts + 1 }

def rejectTimeout (s : State α X) : State α X :=
  if s.settled then s
  else
    let s := callOnTimeout options (clearTimer { s with settled := true })
    { s with
      timeoutErrors := s.timeoutErrors + 1
      settlements := s.settlements ++ [.timedOut] }

def onTimer (nowMs : ℚ) (s : State α X) : State α X :=
  let s := { s with timer := none }
  if s.settled then s
  else
    let remainingMs := remainingMs options s.startedAtMs nowMs
    if 0 < remainingMs then scheduleTimer s nowMs ⌈remainingMs⌉ else rejectTimeout options s

def settleBeforeDeadline (nowMs : ℚ) (result : Except X α) (s : State α X) : State α X :=
  if s.settled then s
  else if options.timeoutMs ≤ elapsedMs s.startedAtMs nowMs then rejectTimeout options s
  else
    let s := clearTimer { s with settled := true }
    { s with settlements := s.settlements ++ [.adopted result] }

/-- The executor, up to the reaction that it registers. -/
def withMonotonicDeadline (startedAtMs nowMs : ℚ) : State α X :=
  let s : State α X := ⟨startedAtMs, nowMs, .scheduled, false, none, [], 0, 0⟩
  let remainingMs := remainingMs options startedAtMs nowMs
  if remainingMs ≤ 0 then rejectTimeout options s else scheduleTimer s nowMs ⌈remainingMs⌉

/-! ### Runs -/

inductive Event (α X : Type) where
  | initial
  | invoke (invocation : Invocation α X)
  | complete (result : Except X α)
  | timer
  | settlement (result : Except X α)

/-- An event and the sample of the clock that it takes. -/
abbrev Entry (α X : Type) := Event α X × ℚ

def Invocation.operation : Invocation α X → Operation α X
  | .threw error => .settled (.error error)
  | .returned value => .settled (.ok value)
  | .deferred => .running

/-- A timer is delivered at any time while it is armed; a promise settles once and its reaction
runs once. -/
inductive Step (options : Options X) : State α X → Entry α X → State α X → Prop
  | invoke {s : State α X} {nowMs : ℚ} (invocation : Invocation α X) (hclock : s.clockMs ≤ nowMs)
      (h : s.operation = .scheduled) :
      Step options s (.invoke invocation, nowMs)
        { s with clockMs := nowMs, operation := invocation.operation }
  | complete {s : State α X} {nowMs : ℚ} (result : Except X α) (hclock : s.clockMs ≤ nowMs)
      (h : s.operation = .running) :
      Step options s (.complete result, nowMs)
        { s with clockMs := nowMs, operation := .settled result }
  | timer {s : State α X} {nowMs : ℚ} {timer : Timer} (hclock : s.clockMs ≤ nowMs)
      (h : s.timer = some timer) :
      Step options s (.timer, nowMs) (onTimer options nowMs { s with clockMs := nowMs })
  | settlement {s : State α X} {nowMs : ℚ} {result : Except X α} (hclock : s.clockMs ≤ nowMs)
      (h : s.operation = .settled result) :
      Step options s (.settlement result, nowMs) (settleBeforeDeadline options nowMs result
        { s with clockMs := nowMs, operation := .observed result nowMs })

inductive Run (options : Options X) (startedAtMs : ℚ) : List (Entry α X) → State α X → Prop
  | create {nowMs : ℚ} (hclock : startedAtMs ≤ nowMs) :
      Run options startedAtMs [(.initial, nowMs)] (withMonotonicDeadline options startedAtMs nowMs)
  | step {trace : List (Entry α X)} {s s' : State α X} {entry : Entry α X}
      (h : Run options startedAtMs trace s) (hstep : Step options s entry s') :
      Run options startedAtMs (trace ++ [entry]) s'

/-! ### Verdicts -/

section Verdicts

variable (startedAtMs : ℚ)

/-- What an event decides about a promise that has not settled. -/
def decision (entry : Entry α X) : Option (Verdict (Except X α)) :=
  let expired := decide (options.timeoutMs ≤ elapsedMs startedAtMs entry.2)
  match entry.1 with
  | .initial => if expired then some .timedOut else none
  | .timer => if expired then some .timedOut else none
  | .settlement result => some (if expired then .timedOut else .adopted result)
  | .invoke _ => none
  | .complete _ => none

/-- The decision of the first event that decides. -/
def verdict (trace : List (Entry α X)) : Option (Verdict (Except X α)) :=
  trace.findSome? (decision options startedAtMs)

/-- A check that finds the budget spent. -/
def TimesOut (entry : Entry α X) : Prop :=
  (entry.1 = .initial ∨ entry.1 = .timer ∨ ∃ result, entry.1 = .settlement result) ∧
    options.timeoutMs ≤ elapsedMs startedAtMs entry.2

end Verdicts

/-- A timer with a positive delay that covers what remained of the budget when it was armed. -/
def Timer.Covers (timer : Timer) (options : Options X) (startedAtMs : ℚ) : Prop :=
  0 < timer.delayMs ∧ remainingMs options startedAtMs timer.armedAtMs ≤ timer.delayMs

variable {options : Options X} {startedAtMs nowMs : ℚ}

theorem covers_ceil (h : 0 < remainingMs options startedAtMs nowMs) :
    Timer.Covers ⟨nowMs, ⌈remainingMs options startedAtMs nowMs⌉⟩ options startedAtMs :=
  ⟨Int.ceil_pos.mpr h, Int.le_ceil _⟩

/-- The difference and the comparison agree on whether the budget is spent. -/
theorem remainingMs_pos :
    0 < remainingMs options startedAtMs nowMs ↔ elapsedMs startedAtMs nowMs < options.timeoutMs := by
  rw [remainingMs, binary64_pos, sub_pos]

/-- Calls of `onTimeout` when the deadline passes. -/
def timeoutCalls (options : Options X) : ℕ :=
  match options.onTimeout with
  | none => 0
  | some _ => 1

/-- What the executor knows of a promise with this verdict. -/
structure Settles (options : Options X) (startedAtMs : ℚ) (verdict : Option (Verdict (Except X α)))
    (s : State α X) : Prop where
  started : s.startedAtMs = startedAtMs
  settlements : s.settlements = verdict.toList
  settled : s.settled = verdict.isSome
  timeoutErrors : s.timeoutErrors = if verdict.any Verdict.isTimedOut then 1 else 0
  onTimeouts : s.onTimeouts = if verdict.any Verdict.isTimedOut then timeoutCalls options else 0
  armed : verdict = none → ∃ timer, s.timer = some timer ∧ timer.Covers options startedAtMs
  cleared : verdict.isSome → s.timer = none

variable {result : Except X α}

section Steps

variable {options : Options X} {startedAtMs nowMs : ℚ} {s : State α X}

theorem callOnTimeout_eq (s : State α X) :
    callOnTimeout options s = { s with onTimeouts := s.onTimeouts + timeoutCalls options } := by
  obtain ⟨timeoutMs, onTimeout⟩ := options
  cases onTimeout with
  | none => rfl
  | some outcome => cases outcome <;> rfl

/-- An unsettled promise is rejected with the timeout error. -/
theorem settles_rejectTimeout (hstarted : s.startedAtMs = startedAtMs) (hsettled : s.settled = false)
    (hsettlements : s.settlements = []) (herrors : s.timeoutErrors = 0) (hcalls : s.onTimeouts = 0) :
    Settles options startedAtMs (some .timedOut) (rejectTimeout options s) := by
  rw [rejectTimeout, if_neg (Bool.eq_false_iff.mp hsettled), callOnTimeout_eq]
  refine ⟨hstarted, ?_, rfl, ?_, ?_, by simp, fun _ => rfl⟩
  · simp [clearTimer, hsettlements]
  · simp [clearTimer, herrors, Verdict.isTimedOut]
  · simp [clearTimer, hcalls, Verdict.isTimedOut]

theorem settles_withMonotonicDeadline :
    Settles options startedAtMs (decision options startedAtMs (.initial, nowMs))
      (withMonotonicDeadline options startedAtMs nowMs : State α X) := by
  rw [withMonotonicDeadline, decision]
  by_cases h : options.timeoutMs ≤ elapsedMs startedAtMs nowMs
  · have hremaining : remainingMs options startedAtMs nowMs ≤ 0 :=
      not_lt.mp (mt remainingMs_pos.mp (not_lt.mpr h))
    simp only [h, decide_true, if_true]
    rw [if_pos hremaining]
    exact settles_rejectTimeout rfl rfl rfl rfl rfl
  · have hremaining := remainingMs_pos.mpr (not_le.mp h)
    simp only [h, decide_false]
    rw [if_neg (not_le.mpr hremaining)]
    exact ⟨rfl, rfl, rfl, rfl, rfl, fun _ => ⟨_, rfl, covers_ceil hremaining⟩,
      fun h => by cases h⟩

theorem settles_onTimer (h : Settles options startedAtMs none s) :
    Settles options startedAtMs (decision options startedAtMs ((.timer : Event α X), nowMs))
      (onTimer options nowMs s) := by
  obtain ⟨rfl, hsettlements, hsettled, herrors, hcalls, -, -⟩ := h
  rw [onTimer, decision]
  dsimp only
  rw [if_neg (Bool.eq_false_iff.mp hsettled)]
  by_cases hexpired : options.timeoutMs ≤ elapsedMs s.startedAtMs nowMs
  · rw [if_neg (mt remainingMs_pos.mp (not_lt.mpr hexpired)), if_pos (decide_eq_true hexpired)]
    exact settles_rejectTimeout rfl hsettled hsettlements herrors hcalls
  · have hremaining := remainingMs_pos.mpr (not_le.mp hexpired)
    rw [if_pos hremaining, if_neg (by simpa using hexpired)]
    exact ⟨rfl, hsettlements, hsettled, herrors, hcalls,
      fun _ => ⟨_, rfl, covers_ceil hremaining⟩, fun h => by cases h⟩

theorem settles_settleBeforeDeadline (h : Settles options startedAtMs none s) :
    Settles options startedAtMs (decision options startedAtMs (.settlement result, nowMs))
      (settleBeforeDeadline options nowMs result s) := by
  obtain ⟨rfl, hsettlements, hsettled, herrors, hcalls, -, -⟩ := h
  rw [settleBeforeDeadline, decision, if_neg (Bool.eq_false_iff.mp hsettled)]
  by_cases hexpired : options.timeoutMs ≤ elapsedMs s.startedAtMs nowMs
  · rw [if_pos hexpired, decide_eq_true hexpired]
    exact settles_rejectTimeout rfl hsettled hsettlements herrors hcalls
  · rw [if_neg hexpired, decide_eq_false hexpired]
    refine ⟨rfl, ?_, rfl, herrors, hcalls, by simp, fun _ => rfl⟩
    simp [clearTimer, hsettlements]

/-- Nothing happens to a promise that has settled. -/
theorem settles_settleBeforeDeadline_of_settled {v : Verdict (Except X α)}
    (h : Settles options startedAtMs (some v) s) :
    Settles options startedAtMs (some v) (settleBeforeDeadline options nowMs result s) := by
  have hsettled : s.settled = true := h.settled
  rw [settleBeforeDeadline, if_pos hsettled]
  exact h

end Steps

/-! ### Runs settle by their first decision -/

variable {s : State α X}

theorem Settles.of_frame {verdict : Option (Verdict (Except X α))}
    (h : Settles options startedAtMs verdict s) (clockMs : ℚ) (operation : Operation α X) :
    Settles options startedAtMs verdict { s with clockMs, operation } :=
  { h with }

variable {s' : State α X} {entry : Entry α X}

theorem settles_step {verdict : Option (Verdict (Except X α))}
    (h : Settles options startedAtMs verdict s) (hstep : Step options s entry s') :
    Settles options startedAtMs (verdict.or (decision options startedAtMs entry)) s' := by
  cases hstep with
  | invoke invocation hclock hoperation | complete result hclock hoperation =>
    rw [decision, Option.or_none]
    exact h.of_frame _ _
  | timer hclock htimer =>
    cases verdict with
    | none => exact settles_onTimer (h.of_frame _ _)
    | some v =>
      -- a promise that has settled has no timer
      rw [h.cleared rfl] at htimer
      cases htimer
  | settlement hclock hoperation =>
    cases verdict with
    | none => exact settles_settleBeforeDeadline (h.of_frame _ _)
    | some v => exact settles_settleBeforeDeadline_of_settled (h.of_frame _ _)

variable {trace : List (Entry α X)}

theorem settles_run (h : Run options startedAtMs trace s) :
    Settles options startedAtMs (verdict options startedAtMs trace) s := by
  induction h with
  | create hclock =>
    rw [verdict, List.findSome?_singleton]
    exact settles_withMonotonicDeadline
  | step h hstep ih =>
    rw [verdict, List.findSome?_append, List.findSome?_singleton]
    exact settles_step ih hstep

/-! ### The first decision -/

section Decisions

variable {options : Options X} {startedAtMs : ℚ}

theorem decision_eq_none :
    decision options startedAtMs entry = none ↔
      ¬ TimesOut options startedAtMs entry ∧ ∀ result, entry.1 ≠ .settlement result := by
  obtain ⟨event, nowMs⟩ := entry
  cases event <;> simp [decision, TimesOut]

theorem decision_eq_timedOut :
    decision options startedAtMs entry = some .timedOut ↔ TimesOut options startedAtMs entry := by
  obtain ⟨event, nowMs⟩ := entry
  cases event <;> simp [decision, TimesOut]

theorem decision_eq_adopted :
    decision options startedAtMs entry = some (.adopted result) ↔
      entry.1 = .settlement result ∧ elapsedMs startedAtMs entry.2 < options.timeoutMs := by
  obtain ⟨event, nowMs⟩ := entry
  cases event with
  | settlement other =>
    by_cases h : options.timeoutMs ≤ elapsedMs startedAtMs nowMs
    · simp [decision, h]
    · simp [decision, h, not_le.mp h]
  | _ => simp [decision]

theorem Run.last {before : List (Entry α X)} (h : Run options startedAtMs (before ++ [entry]) s)
    (hentry : entry.1 ≠ .initial) :
    ∃ s₁, Run options startedAtMs before s₁ ∧ Step options s₁ entry s := by
  generalize htrace : before ++ [entry] = trace at h
  cases h with
  | create hclock =>
    obtain ⟨-, hlast⟩ := List.append_inj' (htrace.trans (List.nil_append _).symm) rfl
    obtain rfl := (List.cons.inj hlast).1
    exact absurd rfl hentry
  | step h hstep =>
    obtain ⟨rfl, hlast⟩ := List.append_inj' htrace rfl
    obtain rfl := (List.cons.inj hlast).1
    exact ⟨_, h, hstep⟩

/-- A run up to one of its events. -/
theorem Run.split {before after : List (Entry α X)}
    (h : Run options startedAtMs (before ++ entry :: after) s) (hbefore : before ≠ []) :
    ∃ s₁ s₂, Run options startedAtMs before s₁ ∧ Step options s₁ entry s₂ := by
  generalize htrace : before ++ entry :: after = trace at h
  induction h generalizing after with
  | create hclock =>
    have hlength := congrArg List.length htrace
    have hpos := List.length_pos_iff.mpr hbefore
    simp only [List.length_append, List.length_cons, List.length_nil] at hlength
    omega
  | @step trace s₁ s₂ last hrun hstep ih =>
    rcases List.eq_nil_or_concat after with rfl | ⟨rest, last', rfl⟩
    · obtain ⟨rfl, hlast⟩ := List.append_inj' htrace rfl
      obtain rfl := List.cons.inj hlast |>.1
      exact ⟨s₁, s₂, hrun, hstep⟩
    · apply @ih rest
      rw [List.concat_eq_append, ← List.cons_append, ← List.append_assoc] at htrace
      exact (List.append_inj' htrace rfl).1

/-- The operation's promise after its reaction. -/
def Operation.Observed : Operation α X → Prop
  | .observed _ _ => True
  | _ => False

theorem operation_rejectTimeout (s : State α X) :
    (rejectTimeout options s).operation = s.operation := by
  rw [rejectTimeout, callOnTimeout_eq]
  split
  · rfl
  · rfl

theorem operation_onTimer (nowMs : ℚ) (s : State α X) :
    (onTimer options nowMs s).operation = s.operation := by
  rw [onTimer]
  dsimp only
  split
  · rfl
  · split
    · rfl
    · exact operation_rejectTimeout _

theorem operation_settleBeforeDeadline (nowMs : ℚ) (result : Except X α) (s : State α X) :
    (settleBeforeDeadline options nowMs result s).operation = s.operation := by
  rw [settleBeforeDeadline]
  split
  · rfl
  · split
    · exact operation_rejectTimeout _
    · rfl

theorem observed_of_settlement (h : Run options startedAtMs trace s)
    (hmem : (.settlement result, nowMs) ∈ trace) : s.operation.Observed := by
  induction h with
  | create hclock => simp at hmem
  | step h hstep ih =>
    rw [List.mem_append, List.mem_singleton] at hmem
    cases hstep with
    | invoke invocation hclock hoperation | complete result' hclock hoperation =>
      rcases hmem with hmem | hmem
      · have hobserved := ih hmem
        rw [hoperation] at hobserved
        cases hobserved
      · simp at hmem
    | timer hclock htimer =>
      rcases hmem with hmem | hmem
      · rw [operation_onTimer]
        exact ih hmem
      · simp at hmem
    | settlement hclock hoperation =>
      rw [operation_settleBeforeDeadline]
      trivial

/-- The operation's settlement is processed once. -/
theorem no_earlier_settlement {before after : List (Entry α X)}
    (h : Run options startedAtMs (before ++ (.settlement result, nowMs) :: after) s)
    {earlier : Entry α X} (hearlier : earlier ∈ before) (other : Except X α) :
    earlier.1 ≠ .settlement other := by
  obtain ⟨s₁, s₂, hrun, hstep⟩ := h.split (List.ne_nil_of_mem hearlier)
  obtain ⟨event, atMs⟩ := earlier
  rintro rfl
  have hobserved := observed_of_settlement hrun hearlier
  cases hstep with
  | settlement hclock hoperation =>
    rw [hoperation] at hobserved
    cases hobserved

theorem verdict_eq_some {v : Verdict (Except X α)} :
    verdict options startedAtMs trace = some v ↔
      ∃ before entry after, trace = before ++ entry :: after ∧
        decision options startedAtMs entry = some v ∧
        ∀ earlier ∈ before, decision options startedAtMs earlier = none := by
  rw [verdict, List.findSome?_eq_some_iff]

theorem verdict_eq_adopted (h : Run options startedAtMs trace s) (result : Except X α) :
    verdict options startedAtMs trace = some (.adopted result) ↔
      ∃ before nowMs after, trace = before ++ (.settlement result, nowMs) :: after ∧
        elapsedMs startedAtMs nowMs < options.timeoutMs ∧
        ∀ earlier ∈ before, ¬ TimesOut options startedAtMs earlier := by
  rw [verdict_eq_some]
  constructor
  · rintro ⟨before, ⟨event, nowMs⟩, after, htrace, hdecision, hbefore⟩
    obtain ⟨rfl, helapsed⟩ := decision_eq_adopted.mp hdecision
    exact ⟨before, nowMs, after, htrace, helapsed,
      fun earlier hearlier => (decision_eq_none.mp (hbefore earlier hearlier)).1⟩
  · rintro ⟨before, nowMs, after, rfl, helapsed, hbefore⟩
    refine ⟨before, _, after, rfl, decision_eq_adopted.mpr ⟨rfl, helapsed⟩, ?_⟩
    intro earlier hearlier
    exact decision_eq_none.mpr ⟨hbefore earlier hearlier, no_earlier_settlement h hearlier⟩

theorem verdict_eq_timedOut :
    verdict options startedAtMs trace = some .timedOut ↔
      ∃ before entry after, trace = before ++ entry :: after ∧
        TimesOut options startedAtMs entry ∧
        ∀ earlier ∈ before, ¬ TimesOut options startedAtMs earlier ∧
          ∀ result, earlier.1 ≠ .settlement result := by
  simp only [verdict_eq_some, decision_eq_timedOut, decision_eq_none]

end Decisions

/-! ### The combinator as a whole -/

section OnTimeout

variable {timeoutMs : ℚ} {first : Except X Unit} (second : Except X Unit)

/-- What `onTimeout` throws is dropped. -/
theorem rejectTimeout_onTimeout (s : State α X) :
    rejectTimeout ⟨timeoutMs, some first⟩ s = rejectTimeout ⟨timeoutMs, some second⟩ s := by
  rw [rejectTimeout, rejectTimeout, callOnTimeout_eq, callOnTimeout_eq]
  rfl

theorem step_onTimeout (h : Step ⟨timeoutMs, some first⟩ s entry s') :
    Step ⟨timeoutMs, some second⟩ s entry s' := by
  cases h with
  | invoke invocation hclock hoperation => exact .invoke invocation hclock hoperation
  | complete result hclock hoperation => exact .complete result hclock hoperation
  | timer hclock htimer =>
    rw [onTimer, rejectTimeout_onTimeout second]
    exact .timer hclock htimer
  | settlement hclock hoperation =>
    rw [settleBeforeDeadline, rejectTimeout_onTimeout second]
    exact .settlement hclock hoperation

theorem run_onTimeout (h : Run ⟨timeoutMs, some first⟩ startedAtMs trace s) :
    Run ⟨timeoutMs, some second⟩ startedAtMs trace s := by
  induction h with
  | create hclock =>
    rw [withMonotonicDeadline, rejectTimeout_onTimeout second]
    exact .create hclock
  | step h hstep ih => exact .step ih (step_onTimeout second hstep)

end OnTimeout

/-- A timer that is delivered early is armed again for the rest of the budget. -/
theorem rearmed_of_early {verdict : Option (Verdict (Except X α))}
    (h : Settles options startedAtMs verdict s) (hstep : Step options s (.timer, nowMs) s')
    (hearly : elapsedMs startedAtMs nowMs < options.timeoutMs) :
    verdict = none ∧
      s'.timer = some ⟨nowMs, ⌈remainingMs options startedAtMs nowMs⌉⟩ := by
  cases hstep with
  | timer hclock htimer =>
    cases verdict with
    | some v =>
      rw [h.cleared rfl] at htimer
      cases htimer
    | none =>
      obtain ⟨rfl, -, hsettled, -, -, -, -⟩ := h
      have hremaining := remainingMs_pos.mpr hearly
      refine ⟨rfl, ?_⟩
      rw [onTimer]
      dsimp only
      rw [if_neg (Bool.eq_false_iff.mp hsettled), if_pos hremaining]
      rfl

/-- The promise of `withMonotonicDeadline` after any run. -/
theorem withMonotonicDeadline_decides_first {options : Options X} {startedAtMs : ℚ}
    {trace : List (Entry α X)} {s : State α X} (h : Run options startedAtMs trace s) :
    s.settlements.length ≤ 1 ∧
    (∀ result, .adopted result ∈ s.settlements ↔
      ∃ before nowMs after, trace = before ++ (.settlement result, nowMs) :: after ∧
        elapsedMs startedAtMs nowMs < options.timeoutMs ∧
        ∀ earlier ∈ before, ¬ TimesOut options startedAtMs earlier) ∧
    (.timedOut ∈ s.settlements ↔
      ∃ before entry after, trace = before ++ entry :: after ∧
        TimesOut options startedAtMs entry ∧
        ∀ earlier ∈ before, ¬ TimesOut options startedAtMs earlier ∧
          ∀ result, earlier.1 ≠ .settlement result) ∧
    s.timeoutErrors = (s.settlements.filter Verdict.isTimedOut).length ∧
    s.onTimeouts = (if options.onTimeout.isSome then s.timeoutErrors else 0) ∧
    (∀ {first : Except X Unit}, options.onTimeout = some first → ∀ second,
      Run { options with onTimeout := some second } startedAtMs trace s) ∧
    (∀ {before nowMs}, trace = before ++ [(.timer, nowMs)] →
      elapsedMs startedAtMs nowMs < options.timeoutMs → s.settlements = [] ∧
        s.timer = some ⟨nowMs, ⌈remainingMs options startedAtMs nowMs⌉⟩) ∧
    (s.settlements = [] → ∃ timer, s.timer = some timer ∧ timer.Covers options startedAtMs) ∧
    (s.settlements ≠ [] → s.timer = none) := by
  obtain ⟨-, hsettlements, -, herrors, hcalls, harmed, hcleared⟩ := settles_run h
  have hmem : ∀ v, v ∈ s.settlements ↔ verdict options startedAtMs trace = some v := by
    intro v
    rw [hsettlements, Option.mem_toList]
  refine ⟨?_, ?_, ?_, ?_, ?_, ?_, ?_, ?_, ?_⟩
  · rw [hsettlements]
    cases verdict options startedAtMs trace <;> simp
  · intro result
    rw [hmem, verdict_eq_adopted h]
  · rw [hmem, verdict_eq_timedOut]
  · rw [herrors, hsettlements]
    cases verdict options startedAtMs trace with
    | none => rfl
    | some v => cases v <;> rfl
  · rw [hcalls, herrors, timeoutCalls]
    cases options.onTimeout <;> simp
  · intro first hfirst second
    obtain ⟨timeoutMs, onTimeout⟩ := options
    obtain rfl : onTimeout = some first := hfirst
    exact run_onTimeout second h
  · rintro before nowMs rfl hearly
    obtain ⟨s₁, hrun, hstep⟩ := h.last (by simp)
    obtain ⟨hnone, htimer⟩ := rearmed_of_early (settles_run hrun) hstep hearly
    have hdecision : decision options startedAtMs ((.timer : Event α X), nowMs) = none := by
      simp [decision, hearly]
    refine ⟨?_, htimer⟩
    rw [(settles_step (settles_run hrun) hstep).settlements, hnone, hdecision]
    rfl
  · intro hnil
    apply harmed
    rw [hsettlements] at hnil
    exact Option.toList_eq_nil_iff.mp hnil
  · intro hnonempty
    apply hcleared
    rw [hsettlements] at hnonempty
    rw [Option.isSome_iff_ne_none]
    exact fun hnone => hnonempty (Option.toList_eq_nil_iff.mpr hnone)

/-! ### What callers see -/

section Callers

variable {timeoutMs : ℕ} {timeout : X} {settled : Except X α}

/-- What the caller gets; `timeout` is the error that `timeoutError` makes. -/
def Verdict.settlement (timeout : X) : Verdict (Except X α) → Except X α
  | .adopted result => result
  | .timedOut => .error timeout

/-- What a promise with a deadline of `timeoutMs` gave its caller. -/
def Bounded (timeoutMs : ℕ) (timeout : X) (settled : Except X α) : Prop :=
  ∃ (options : Options X) (startedAtMs : ℚ) (trace : List (Entry α X)) (s : State α X)
    (v : Verdict (Except X α)), options.timeoutMs = timeoutMs ∧ Run options startedAtMs trace s ∧
      s.settlements = [v] ∧ settled = v.settlement timeout

/-- The operation settled, and its reaction ran before the deadline. -/
def InTime (timeoutMs : ℕ) (settled : Except X α) : Prop :=
  ∃ (options : Options X) (startedAtMs nowMs : ℚ) (trace : List (Entry α X)) (s : State α X),
    options.timeoutMs = timeoutMs ∧ Run options startedAtMs trace s ∧
      (.settlement settled, nowMs) ∈ trace ∧ elapsedMs startedAtMs nowMs < timeoutMs

theorem Bounded.cases (h : Bounded timeoutMs timeout settled) :
    InTime timeoutMs settled ∨ settled = .error timeout := by
  obtain ⟨options, startedAtMs, trace, s, v, htimeout, hrun, hsettlements, rfl⟩ := h
  have hverdict : verdict options startedAtMs trace = some v := by
    have h := (settles_run hrun).settlements.symm.trans hsettlements
    cases hv : verdict options startedAtMs trace with
    | none => simp [hv] at h
    | some w =>
      rw [hv] at h
      exact congrArg some (List.cons.inj h).1
  cases v with
  | timedOut => exact .inr rfl
  | adopted result =>
    obtain ⟨before, nowMs, after, rfl, helapsed, -⟩ := (verdict_eq_adopted hrun result).mp hverdict
    exact .inl ⟨options, startedAtMs, nowMs, _, s, htimeout, hrun, by simp [Verdict.settlement],
      htimeout ▸ helapsed⟩

end Callers

/-- A budget of five milliseconds whose timer is delivered after three, and an operation that is
fulfilled in time. -/
def earlyTimer : List (Entry ℕ String) :=
  [(.initial, 0), (.invoke .deferred, 0), (.timer, 3), (.complete (.ok 7), 4),
    (.settlement (.ok 7), 9 / 2)]

theorem elapsedMs_of_exact (nowMs : ℚ) (h : binary64 nowMs = nowMs) (hpos : 0 ≤ nowMs) :
    elapsedMs 0 nowMs = nowMs := by
  rw [elapsedMs, sub_zero, h, max_eq_left hpos]

theorem withMonotonicDeadline_decides_first_early :
    ∃ s, Run ⟨5, some (.error "abort failed")⟩ 0 earlyTimer s ∧
      s.settlements.length ≤ 1 ∧ .adopted (.ok 7) ∈ s.settlements := by
  have hexact : ∀ n : ℤ, |n| < 2 ^ 53 → binary64 n = n := fun n => binary64_intCast
  have h0 := elapsedMs_of_exact 0 (by exact_mod_cast hexact 0 (by norm_num)) le_rfl
  have h3 := elapsedMs_of_exact 3 (by exact_mod_cast hexact 3 (by norm_num)) (by norm_num)
  have hlast : elapsedMs 0 (9 / 2) = 9 / 2 := by
    refine elapsedMs_of_exact _ ?_ (by norm_num)
    have hhalves : (9 / 2 : ℚ) = (9 : ℤ) * 2 ^ (-1 : ℤ) := by norm_num
    rw [hhalves, binary64_eq_self _ (by norm_num)]
  have hfive : remainingMs ⟨5, some (.error "abort failed")⟩ 0 0 = 5 := by
    rw [remainingMs, h0, sub_zero]
    exact_mod_cast hexact 5 (by norm_num)
  have htwo : remainingMs ⟨5, some (.error "abort failed")⟩ 0 3 = 2 := by
    have hdifference : (5 : ℚ) - 3 = (2 : ℤ) := by norm_num
    rw [remainingMs, h3, hdifference, hexact 2 (by norm_num)]
    rfl
  have hcreate : (withMonotonicDeadline ⟨5, some (.error "abort failed")⟩ 0 0 : State ℕ String) =
      ⟨0, 0, .scheduled, false, some ⟨0, 5⟩, [], 0, 0⟩ := by
    norm_num [withMonotonicDeadline, hfive, scheduleTimer]
  have htimer : onTimer ⟨5, some (.error "abort failed")⟩ 3
      (⟨0, 3, .running, false, some ⟨0, 5⟩, [], 0, 0⟩ : State ℕ String) =
        ⟨0, 3, .running, false, some ⟨3, 2⟩, [], 0, 0⟩ := by
    norm_num [onTimer, htwo, scheduleTimer]
  have hinitial : Run ⟨5, some (.error "abort failed")⟩ 0 [((.initial : Event ℕ String), 0)] _ :=
    .create le_rfl
  rw [hcreate] at hinitial
  have hrun := hinitial.step (@Step.invoke _ _ _ _ 0 .deferred le_rfl rfl)
  have hrearmed := hrun.step (@Step.timer _ _ _ _ 3 _ (by norm_num) rfl)
  dsimp only [Invocation.operation] at hrearmed
  rw [htimer] at hrearmed
  have hcomplete := hrearmed.step (@Step.complete _ _ _ _ 4 (.ok 7) (by norm_num) rfl)
  have h := hcomplete.step (@Step.settlement _ _ _ _ (9 / 2) _ (by norm_num) rfl)
  obtain ⟨honce, hadopted, -⟩ := withMonotonicDeadline_decides_first h
  refine ⟨_, h, honce, (hadopted (.ok 7)).mpr ⟨_, _, [], rfl, ?_, ?_⟩⟩
  · norm_num [hlast]
  · norm_num [TimesOut, h0, h3]
    simp

end DialCache.DeadlineRaces
