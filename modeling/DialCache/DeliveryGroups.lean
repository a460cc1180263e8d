import Mathlib.Data.List.Basic
import Mathlib.Logic.Function.Basic

/-!
# Delivery groups

Shadow work of an operation starts when everyone its flight serves has been served. Every call
marks its delivery with a future; an operation keeps a set of the futures to wait for, and a
call that joins a flight moves what its own set holds into the set of the flight's owner. Other
operations may still refer to the old set. The invariant says which set holds the futures that
an operation waits for.

A set is named by the operation it was created with. What runs between two awaits is one step,
and so is one callback of a finished future.
-/

namespace DialCache.DeliveryBarriers

open Function (update update_of_ne update_self)

inductive Future
  | delivered (call : ℕ)
  | task (flight : ℕ)
  deriving DecidableEq, Repr

inductive Tier
  | request
  | process
  deriving DecidableEq, Repr

/-- A table of flights: the one of the process, or the one of a request. -/
inductive Scope
  | process
  | request (memo : ℕ)
  deriving DecidableEq, Repr

def Scope.tier : Scope → Tier
  | .process => .process
  | .request _ => .request

/-- How a future ends; the result `none` is `None`. -/
inductive Outcome (V E : Type)
  | result (value : Option V)
  | exception (error : E)
  | cancelled

/-- What an operation is to a flight. -/
inductive Role
  | leads (flight : ℕ)
  | follows (flight : ℕ)
  deriving DecidableEq, Repr

def Role.flight : Role → ℕ
  | .leads flight => flight
  | .follows flight => flight

structure Flight where
  started : ℕ
  owner : ℕ
  followers : ℕ

/-- The task of a leader: it runs for its place in a table, or has ended. -/
inductive Lead (K V E : Type)
  | running (place : Scope × K)
  | ended (outcome : Outcome V E)

inductive Barrier (V E : Type)
  | checking
  | waiting (pending : List Future)
  | ended (outcome : Outcome V E)

structure State (K V E : Type) where
  calls : ℕ
  flights : ℕ
  deliveries : ℕ → ℕ
  group : ℕ → List Future
  role : ℕ × Tier → Option Role
  flight : ℕ → Flight
  lead : ℕ → Option (Lead K V E)
  outcome : Future → Option (Outcome V E)
  table : Scope × K → Option ℕ
  /-- The sets that a pending future is to be discarded from. -/
  callbacks : List (Future × ℕ)
  /-- Callbacks of finished futures that have not run yet. -/
  ready : List (Future × ℕ)
  barriers : List (ℕ × Barrier V E)

inductive Entry
  | joined (flight : ℕ)
  | leads (flight : ℕ)
  deriving DecidableEq, Repr

variable {K V E : Type}

namespace State

def empty : State K V E where
  calls := 0
  flights := 0
  deliveries := id
  group := fun _ => []
  role := fun _ => none
  flight := fun _ => ⟨0, 0, 0⟩
  lead := fun _ => none
  outcome := fun _ => none
  table := fun _ => none
  callbacks := []
  ready := []
  barriers := []

variable (s : State K V E)

def done (future : Future) : Bool := (s.outcome future).isSome

/-- A future gets its outcome, which makes its callbacks ready. -/
def complete (future : Future) (outcome : Outcome V E) : State K V E :=
  { s with
    outcome := update s.outcome future (some outcome)
    callbacks := s.callbacks.filter fun callback => callback.1 ≠ future
    ready := s.ready ++ s.callbacks.filter fun callback => callback.1 = future }

/-- A callback runs: `discard` of a set. -/
def discard (group : ℕ) (future : Future) : State K V E :=
  { s with
    ready := s.ready.erase (future, group)
    group := update s.group group ((s.group group).filter fun other => other ≠ future) }

/-- `_track_delivery`. -/
def trackDelivery (group : ℕ) (pending : Future) : State K V E :=
  if s.done pending = false ∧ pending ∉ s.group group then
    { s with
      group := update s.group group (s.group group ++ [pending])
      callbacks := s.callbacks ++ [(pending, group)] }
  else s

/-- `_join_delivery`. -/
def joinDelivery (op owner : ℕ) : State K V E :=
  let group := s.deliveries owner
  if s.deliveries op ≠ group then
    let s' := (s.group (s.deliveries op)).foldl (fun s pending => s.trackDelivery group pending) s
    { s' with deliveries := update s'.deliveries op group }
  else s

/-- The start of `_execute`: an operation with a set of its own, and its mark in it. -/
def execute : State K V E :=
  let s' := { s with
    calls := s.calls + 1
    deliveries := update s.deliveries s.calls s.calls
    group := update s.group s.calls [] }
  s'.trackDelivery s.calls (.delivered s.calls)

/-- `_single_flight` where the table has a flight. -/
def follow (op : ℕ) (tier : Tier) (id : ℕ) : State K V E :=
  let existing := s.flight id
  let s' := s.joinDelivery op existing.owner
  { s' with
    flight := update s.flight id { existing with followers := existing.followers + 1 }
    role := update s.role (op, tier) (some (.follows id)) }

variable [DecidableEq K]

/-- `_single_flight` where the table has none. -/
def register (op : ℕ) (scope : Scope) (key : K) (started : ℕ) : State K V E :=
  let s' := { s with
    flights := s.flights + 1
    flight := update s.flight s.flights ⟨started, op, 0⟩ }
  let s'' := s'.trackDelivery (s.deliveries op) (.task s.flights)
  { s'' with
    table := update s.table (scope, key) (some s.flights)
    lead := update s.lead s.flights (some (.running (scope, key)))
    role := update s.role (op, scope.tier) (some (.leads s.flights)) }

def singleFlight (op : ℕ) (scope : Scope) (key : K) (started : ℕ) : Entry × State K V E :=
  match s.table (scope, key) with
  | some id => (.joined id, s.follow op scope.tier id)
  | none => (.leads s.flights, s.register op scope key started)

/-- The end of a leader's task, which takes its own flight out of the table. -/
def endLead (id : ℕ) (place : Scope × K) (outcome : Outcome V E) : State K V E :=
  { s with
    lead := update s.lead id (some (.ended outcome))
    table := if s.table place = some id then update s.table place none else s.table }

/-- One turn of the loop of `_await_delivery`. -/
def awaitDelivery (op : ℕ) : Barrier V E :=
  match (s.group (s.deliveries op)).filter fun future => !s.done future with
  | [] => .ended (.result none)
  | pending => .waiting pending

def setBarrier (id op : ℕ) (barrier : Barrier V E) : State K V E :=
  { s with barriers := s.barriers.set id (op, barrier) }

/-- Whether the operation gets to the table of a tier: in the task of its caller, or behind its
own request flight in the task that leads it. -/
inductive Enters (s : State K V E) (op : ℕ) : Tier → Prop
  | calling {tier : Tier} (known : op < s.calls) (caller : s.done (.delivered op) = false)
      (request : s.role (op, .request) = none) (process : s.role (op, .process) = none) :
      Enters s op tier
  | leading {id : ℕ} {place : Scope × K} (request : s.role (op, .request) = some (.leads id))
      (running : s.lead id = some (.running place)) (process : s.role (op, .process) = none) :
      Enters s op .process

/-- The flight that the caller of an operation awaits. -/
def awaited (op : ℕ) : Option ℕ :=
  ((s.role (op, .request)).orElse fun _ => s.role (op, .process)).map Role.flight

end State

inductive Event (K V E : Type)
  | executed (op : ℕ)
  | entered (op : ℕ) (scope : Scope) (key : K) (entry : Entry)
  | ended (flight : ℕ) (outcome : Outcome V E)
  | settled (flight : ℕ) (outcome : Outcome V E)
  | finished (op : ℕ)
  | cancelled (op : ℕ)
  | discarded (future : Future) (group : ℕ)
  | awaits (barrier op : ℕ)
  | checked (barrier op : ℕ) (next : Barrier V E)
  | woken (barrier : ℕ)
  | aborted (barrier : ℕ)

section Steps

variable [DecidableEq K]

inductive Step : State K V E → Event K V E → State K V E → Prop
  | executed (s : State K V E) : Step s (.executed s.calls) s.execute
  | entered {s : State K V E} {op : ℕ} {scope : Scope} (enters : s.Enters op scope.tier) (key : K)
      (started : ℕ) : Step s (.entered op scope key (s.singleFlight op scope key started).1)
        (s.singleFlight op scope key started).2
  /-- The task that leads a flight ends, by itself or cancelled from outside. -/
  | ended {s : State K V E} {id : ℕ} {place : Scope × K}
      (running : s.lead id = some (.running place))
      (outcome : Outcome V E) : Step s (.ended id outcome) (s.endLead id place outcome)
  /-- `transfer`, the callback of the task that leads. -/
  | settled {s : State K V E} {id : ℕ} {outcome : Outcome V E}
      (ended : s.lead id = some (.ended outcome)) (pending : s.done (.task id) = false) :
      Step s (.settled id outcome) (s.complete (.task id) outcome)
  | finished {s : State K V E} {op : ℕ} (known : op < s.calls)
      (pending : s.done (.delivered op) = false)
      (settled : ∀ id, s.awaited op = some id → s.done (.task id) = true) :
      Step s (.finished op) (s.complete (.delivered op) (.result none))
  /-- A cancelled caller leaves at once; what it awaits is shielded. -/
  | cancelled {s : State K V E} {op : ℕ} (known : op < s.calls)
      (pending : s.done (.delivered op) = false) :
      Step s (.cancelled op) (s.complete (.delivered op) (.result none))
  | discarded {s : State K V E} {future : Future} {group : ℕ} (due : (future, group) ∈ s.ready) :
      Step s (.discarded future group) (s.discard group future)
  | awaits {s : State K V E} {op : ℕ} (known : op < s.calls) :
      Step s (.awaits s.barriers.length op) { s with barriers := s.barriers ++ [(op, .checking)] }
  | checked {s : State K V E} {id op : ℕ} (checking : s.barriers[id]? = some (op, .checking)) :
      Step s (.checked id op (s.awaitDelivery op)) (s.setBarrier id op (s.awaitDelivery op))
  /-- `asyncio.wait` returns when all are done, however they ended. -/
  | woken {s : State K V E} {id op : ℕ} {pending : List Future}
      (waiting : s.barriers[id]? = some (op, .waiting pending))
      (all : ∀ future ∈ pending, s.done future = true) :
      Step s (.woken id) (s.setBarrier id op .checking)
  /-- The task that waits is itself cancelled. -/
  | aborted {s : State K V E} {id op : ℕ} {pending : List Future}
      (waiting : s.barriers[id]? = some (op, .waiting pending)) :
      Step s (.aborted id) (s.setBarrier id op (.ended .cancelled))

/-- The states that a history leads to, the latest event first. -/
inductive Run : List (Event K V E) → State K V E → Prop
  | start : Run [] State.empty
  | step {history : List (Event K V E)} {s s' : State K V E} {e : Event K V E}
      (past : Run history s) (h : Step s e s') : Run (e :: history) s'

end Steps

variable {s s' : State K V E} {history : List (Event K V E)}

/-! ### Sets -/

/-- A set holds pending futures, and finished ones whose callback is due. -/
structure Sets (s : State K V E) : Prop where
  pending : ∀ {future g}, future ∈ s.group g → s.done future = false → (future, g) ∈ s.callbacks
  due : ∀ {future g}, future ∈ s.group g → s.done future = true → (future, g) ∈ s.ready
  done : ∀ {future g}, (future, g) ∈ s.ready → s.done future = true
  empty : ∀ {g}, s.calls ≤ g → s.group g = []
  deliveries : ∀ {op}, op < s.calls → s.deliveries op < s.calls

/-- Futures were added to sets, and nothing else happened. -/
structure Grown (s s' : State K V E) : Prop where
  rest : s' = { s with group := s'.group, callbacks := s'.callbacks }
  group : ∀ {future g}, future ∈ s.group g → future ∈ s'.group g

theorem Grown.refl (s : State K V E) : Grown s s := ⟨rfl, id⟩

theorem Grown.trans {s'' : State K V E} (h : Grown s s') (h' : Grown s' s'') : Grown s s'' where
  rest := by
    rw [h'.rest, h.rest]
  group hmem := h'.group (h.group hmem)

theorem Grown.done (h : Grown s s') : s'.done = s.done :=
  (congrArg State.done h.rest).trans rfl

theorem Grown.calls (h : Grown s s') : s'.calls = s.calls :=
  (congrArg State.calls h.rest).trans rfl

theorem Grown.deliveries (h : Grown s s') : s'.deliveries = s.deliveries :=
  (congrArg State.deliveries h.rest).trans rfl

theorem grown_trackDelivery (s : State K V E) (g : ℕ) (pending : Future) :
    Grown s (s.trackDelivery g pending) := by
  rw [State.trackDelivery]
  split
  · refine ⟨rfl, fun {future h} hmem => ?_⟩
    dsimp only
    rcases eq_or_ne h g with rfl | hne
    · rw [update_self]
      exact List.mem_append_left _ hmem
    · rw [update_of_ne hne]
      exact hmem
  · exact Grown.refl s

theorem tracked (s : State K V E) (g : ℕ) (pending : Future) :
    s.done pending = true ∨ pending ∈ (s.trackDelivery g pending).group g := by
  rw [State.trackDelivery]
  split
  · right
    dsimp only
    rw [update_self]
    exact List.mem_append_right _ (List.mem_singleton_self _)
  next h =>
    by_cases hdone : s.done pending = true
    · exact .inl hdone
    · refine .inr (by_contra fun hmem => h ⟨?_, hmem⟩)
      exact Bool.eq_false_iff.mpr hdone

theorem Sets.trackDelivery (h : Sets s) {g : ℕ} (hg : g < s.calls) (pending : Future) :
    Sets (s.trackDelivery g pending) := by
  rw [State.trackDelivery]
  split
  next hnew =>
    have hmem : ∀ {future : Future} {g' : ℕ},
        future ∈ update s.group g (s.group g ++ [pending]) g' →
        future ∈ s.group g' ∨ (future, g') = (pending, g) := by
      intro future g' hin
      rcases eq_or_ne g' g with rfl | hne
      · rw [update_self] at hin
        rcases List.mem_append.mp hin with hold | hlast
        · exact .inl hold
        · rw [List.mem_singleton.mp hlast]
          exact .inr rfl
      · rw [update_of_ne hne] at hin
        exact .inl hin
    refine ⟨fun hin hdone => ?_, fun hin hdone => ?_, h.done, fun {g'} hle => ?_, h.deliveries⟩
    · rcases hmem hin with hold | heq
      · exact List.mem_append_left _ (h.pending hold hdone)
      · rw [heq]
        exact List.mem_append_right _ (List.mem_singleton_self _)
    · rcases hmem hin with hold | heq
      · exact h.due hold hdone
      · cases heq
        have hfalse : s.done pending = true := hdone
        rw [hnew.1] at hfalse
        cases hfalse
    · have hne : g' ≠ g := Nat.ne_of_gt (Nat.lt_of_lt_of_le hg hle)
      exact (update_of_ne hne _ _).trans (h.empty hle)
  · exact h

/-- What `_join_delivery` does: what is pending behind the operation goes to the set of the owner. -/
structure Merged (s s' : State K V E) (op owner : ℕ) : Prop where
  rest : s' = { s with
    deliveries := update s.deliveries op (s.deliveries owner)
    group := s'.group
    callbacks := s'.callbacks }
  group : ∀ {future g}, future ∈ s.group g → future ∈ s'.group g
  moved : ∀ {future}, future ∈ s.group (s.deliveries op) →
    s.done future = true ∨ future ∈ s'.group (s.deliveries owner)

theorem grown_trackAll (g : ℕ) (pendings : List Future) (s : State K V E) :
    Grown s (pendings.foldl (fun s pending => s.trackDelivery g pending) s) ∧
      ∀ future ∈ pendings, s.done future = true ∨
        future ∈ (pendings.foldl (fun s pending => s.trackDelivery g pending) s).group g := by
  induction pendings generalizing s with
  | nil => exact ⟨Grown.refl s, fun _ hmem => absurd hmem List.not_mem_nil⟩
  | cons pending pendings ih =>
    obtain ⟨hgrown, hall⟩ := ih (s.trackDelivery g pending)
    have hfirst := grown_trackDelivery s g pending
    refine ⟨hfirst.trans hgrown, fun future hmem => ?_⟩
    rcases List.mem_cons.mp hmem with rfl | hrest
    · exact (tracked s g future).imp_right hgrown.group
    · rw [← hfirst.done]
      exact hall future hrest

theorem Sets.trackAll {g : ℕ} (pendings : List Future) (h : Sets s) (hg : g < s.calls) :
    Sets (pendings.foldl (fun s pending => s.trackDelivery g pending) s) := by
  induction pendings generalizing s with
  | nil => exact h
  | cons pending pendings ih =>
    exact ih (h.trackDelivery hg pending) ((grown_trackDelivery s g pending).calls ▸ hg)

theorem merged_joinDelivery (s : State K V E) (op owner : ℕ) :
    Merged s (s.joinDelivery op owner) op owner := by
  rw [State.joinDelivery]
  dsimp only
  split
  · obtain ⟨hgrown, hall⟩ :=
      grown_trackAll (s.deliveries owner) (s.group (s.deliveries op)) s
    generalize (s.group (s.deliveries op)).foldl _ s = t at hgrown hall
    refine ⟨?_, hgrown.group, fun {future} hmem => hall future hmem⟩
    rw [hgrown.rest]
  next heq =>
    have hsame : s.deliveries op = s.deliveries owner := not_not.mp heq
    refine ⟨?_, id, fun {future} hmem => .inr (hsame ▸ hmem)⟩
    rw [← hsame, Function.update_eq_self]

theorem Sets.joinDelivery (h : Sets s) {op owner : ℕ} (hop : op < s.calls)
    (howner : owner < s.calls) : Sets (s.joinDelivery op owner) := by
  rw [State.joinDelivery]
  dsimp only
  split
  · have hall := h.trackAll (s.group (s.deliveries op)) (h.deliveries howner)
    have hcalls := (grown_trackAll (s.deliveries owner) (s.group (s.deliveries op)) s).1.calls
    generalize (s.group (s.deliveries op)).foldl _ s = t at hall hcalls
    refine ⟨hall.pending, hall.due, hall.done, hall.empty, fun {o} ho => ?_⟩
    rcases eq_or_ne o op with rfl | hne
    · dsimp only
      rw [update_self, hcalls]
      exact h.deliveries howner
    · dsimp only
      rw [update_of_ne hne]
      exact hall.deliveries ho
  · exact h

/-! ### Roles -/

section Serves

variable (role : ℕ × Tier → Option Role) (flight : ℕ → Flight)

/-- The call is the operation's own, or joined a flight of one the operation serves. -/
inductive Serves : ℕ → ℕ → Prop
  | refl (op : ℕ) : Serves op op
  | join {op follower call id : ℕ} {tier : Tier}
      (follows : role (follower, tier) = some (.follows id)) (owner : (flight id).owner = op)
      (rest : Serves follower call) : Serves op call

variable {role flight} {role' : ℕ × Tier → Option Role} {flight' : ℕ → Flight} {op call : ℕ}

theorem Serves.of_follows (h : Serves role' flight' op call)
    (hsame : ∀ follower tier id, role' (follower, tier) = some (.follows id) →
      role (follower, tier) = some (.follows id) ∧ (flight' id).owner = (flight id).owner) :
    Serves role flight op call := by
  induction h with
  | refl op => exact .refl op
  | join follows owner rest ih =>
    obtain ⟨hold, howner⟩ := hsame _ _ _ follows
    exact .join hold (howner.symm.trans owner) ih

/-- With one more follower, an operation serves what it did, or what is behind the follower. -/
theorem Serves.of_update {follower id : ℕ} {tier : Tier}
    (h : Serves (update role (follower, tier) (some (.follows id))) flight' op call)
    (hsame : ∀ i, (flight' i).owner = (flight i).owner) :
    Serves role flight op call ∨
      Serves role flight op (flight id).owner ∧ Serves role flight follower call := by
  induction h with
  | refl op => exact .inl (.refl op)
  | @join op c call i t follows owner rest ih =>
    rw [hsame] at owner
    by_cases hedge : (c, t) = (follower, tier)
    · rw [hedge, update_self] at follows
      cases follows
      cases hedge
      subst owner
      exact .inr ⟨.refl _, ih.elim (fun h => h) And.right⟩
    · rw [update_of_ne hedge] at follows
      exact ih.imp (.join follows owner) (And.imp_left (.join follows owner))

theorem Serves.trans {other : ℕ} (h : Serves role flight op call)
    (h' : Serves role flight call other) : Serves role flight op other := by
  induction h with
  | refl op => exact h'
  | join follows owner rest ih => exact .join follows owner (ih h')

theorem Serves.eq_of_not_follows (h : Serves role flight op call)
    (hnot : ∀ tier id, role (call, tier) ≠ some (.follows id)) : op = call := by
  induction h with
  | refl op => rfl
  | join follows owner rest ih =>
    have heq := ih hnot
    subst heq
    exact absurd follows (hnot _ _)

end Serves

def State.Serves (s : State K V E) : ℕ → ℕ → Prop := DeliveryBarriers.Serves s.role s.flight

/-- The futures of a call: its delivery, and the flights it leads. -/
def State.Owns (s : State K V E) (call : ℕ) : Future → Prop
  | .delivered c => c = call
  | .task id => id < s.flights ∧ (s.flight id).owner = call

structure Roles (s : State K V E) : Prop where
  leads : ∀ {op tier id}, s.role (op, tier) = some (.leads id) →
    id < s.flights ∧ (s.flight id).owner = op
  follows : ∀ {op tier id}, s.role (op, tier) = some (.follows id) →
    id < s.flights ∧ s.role ((s.flight id).owner, tier) = some (.leads id)
  owned : ∀ {id}, id < s.flights → ∃ tier, s.role ((s.flight id).owner, tier) = some (.leads id)
  known : ∀ {op tier role}, s.role (op, tier) = some role → op < s.calls
  last : ∀ {op id}, s.role (op, .request) = some (.follows id) → s.role (op, .process) = none
  deliveries : ∀ {op id}, s.role (op, .process) = some (.follows id) →
    s.deliveries op = s.deliveries (s.flight id).owner

theorem Roles.owner_lt (h : Roles s) {id : ℕ} (hid : id < s.flights) :
    (s.flight id).owner < s.calls := by
  obtain ⟨tier, hrole⟩ := h.owned hid
  exact h.known hrole

/-- Who owns a flight follows flights of the process only. -/
theorem Roles.process_of_follows (h : Roles s) {id other : ℕ} {tier : Tier} (hid : id < s.flights)
    (hfollows : s.role ((s.flight id).owner, tier) = some (.follows other)) : tier = .process := by
  obtain ⟨tier', hleads⟩ := h.owned hid
  cases tier with
  | process => rfl
  | request =>
    cases tier' with
    | request =>
      rw [hleads] at hfollows
      cases hfollows
    | process =>
      rw [h.last hfollows] at hleads
      cases hleads

theorem Roles.owns_of_serves (h : Roles s) {op call id : ℕ} (hserves : s.Serves op call)
    (hid : id < s.flights) (howner : (s.flight id).owner = call) :
    ∃ i < s.flights, (s.flight i).owner = op := by
  cases hserves with
  | refl op => exact ⟨id, hid, howner⟩
  | join follows owner rest => exact ⟨_, (h.follows follows).1, owner⟩

/-- Everyone who serves an owner of a flight refers to the same set. -/
theorem Roles.deliveries_of_serves (h : Roles s) {op call id : ℕ} (hserves : s.Serves op call)
    (hid : id < s.flights) (howner : (s.flight id).owner = call) :
    s.deliveries op = s.deliveries call := by
  induction hserves with
  | refl op => rfl
  | join follows owner rest ih =>
    obtain ⟨i, hi, hown⟩ := h.owns_of_serves rest hid howner
    subst hown
    cases h.process_of_follows hi follows
    rw [← ih howner, h.deliveries follows, owner]

/-! ### Tables -/

structure Tables (s : State K V E) : Prop where
  registered : ∀ {place id}, s.table place = some id →
    s.lead id = some (.running place) ∧
      s.role ((s.flight id).owner, place.1.tier) = some (.leads id)
  fresh : ∀ {id}, s.flights ≤ id → s.lead id = none
  settled : ∀ {id}, s.done (.task id) = true → ∃ outcome, s.lead id = some (.ended outcome)

theorem Tables.pending_of_running (h : Tables s) {id : ℕ} {place : Scope × K}
    (hrunning : s.lead id = some (.running place)) : s.done (.task id) = false := by
  by_contra hdone
  obtain ⟨outcome, hended⟩ := h.settled (Bool.not_eq_false _ ▸ hdone)
  rw [hrunning] at hended
  cases hended

/-- What an operation waits for is done or in its set. -/
def Cover (s : State K V E) : Prop :=
  ∀ op call future, op < s.calls → s.Serves op call → s.Owns call future →
    s.done future = true ∨ future ∈ s.group (s.deliveries op)

structure Inv (s : State K V E) : Prop where
  sets : Sets s
  roles : Roles s
  tables : Tables s
  cover : Cover s

/-! ### Steps -/

/-- A step that adds no call and no flight: futures may finish, finished ones may leave a set. -/
theorem Cover.mono (h : Cover s) (hcalls : s'.calls = s.calls) (hflights : s'.flights = s.flights)
    (hdeliveries : s'.deliveries = s.deliveries) (hrole : s'.role = s.role)
    (hflight : s'.flight = s.flight)
    (hdone : ∀ future, s.done future = true → s'.done future = true)
    (hgroup : ∀ future g, future ∈ s.group g → s'.done future = true ∨ future ∈ s'.group g) :
    Cover s' := by
  intro op call future hop hserves howns
  rw [State.Serves, hrole, hflight] at hserves
  have howns' : s.Owns call future := by
    cases future with
    | delivered c => exact howns
    | task id =>
      rw [State.Owns, hflights, hflight] at howns
      exact howns
  rw [hdeliveries]
  rcases h op call future (hcalls ▸ hop) hserves howns' with hd | hmem
  · exact .inl (hdone future hd)
  · exact hgroup future _ hmem

theorem done_complete (s : State K V E) (future : Future) (outcome : Outcome V E) (other : Future) :
    (s.complete future outcome).done other = (decide (other = future) || s.done other) := by
  rw [State.done, State.complete]
  dsimp only
  rcases eq_or_ne other future with rfl | hne
  · rw [update_self, decide_eq_true rfl]
    rfl
  · rw [update_of_ne hne, decide_eq_false hne]
    rfl

variable {future : Future}

theorem done_complete_of_done {other : Future} {outcome : Outcome V E} (h : s.done other = true) :
    (s.complete future outcome).done other = true := by
  rw [done_complete, h, Bool.or_true]

theorem Sets.complete (h : Sets s) (future : Future) (outcome : Outcome V E) :
    Sets (s.complete future outcome) where
  pending {other g} hmem hpending := by
    rw [done_complete, Bool.or_eq_false_iff, decide_eq_false_iff_not] at hpending
    have hcallback := h.pending (g := g) hmem hpending.2
    exact List.mem_filter.mpr ⟨hcallback, decide_eq_true hpending.1⟩
  due {other g} hmem hdone := by
    rw [done_complete, Bool.or_eq_true, decide_eq_true_eq] at hdone
    by_cases hold : s.done other = true
    · exact List.mem_append_left _ (h.due hmem hold)
    · have hcallback := h.pending (g := g) hmem (Bool.eq_false_iff.mpr hold)
      have heq := hdone.resolve_right hold
      exact List.mem_append_right _ (List.mem_filter.mpr ⟨hcallback, decide_eq_true heq⟩)
  done {other g} hready := by
    rcases List.mem_append.mp hready with hold | hnew
    · exact done_complete_of_done (h.done hold)
    · have heq := of_decide_eq_true (List.mem_filter.mp hnew).2
      rw [done_complete, decide_eq_true heq, Bool.true_or]
  empty := h.empty
  deliveries := h.deliveries

theorem Inv.complete (h : Inv s) {outcome : Outcome V E}
    (hlead : ∀ id, future = .task id → ∃ outcome, s.lead id = some (.ended outcome)) :
    Inv (s.complete future outcome) where
  sets := h.sets.complete future outcome
  roles := { h.roles with }
  tables := by
    refine ⟨h.tables.registered, h.tables.fresh, fun {id} hdone => ?_⟩
    rw [done_complete, Bool.or_eq_true, decide_eq_true_eq] at hdone
    rcases hdone with heq | hold
    · exact hlead id heq.symm
    · exact h.tables.settled hold
  cover := h.cover.mono rfl rfl rfl rfl rfl (fun _ => done_complete_of_done)
    fun _ _ hmem => .inr hmem

theorem mem_discard {g g' : ℕ} {other : Future} :
    other ∈ (s.discard g future).group g' ↔ other ∈ s.group g' ∧ (other, g') ≠ (future, g) := by
  rw [State.discard]
  dsimp only
  rcases eq_or_ne g' g with rfl | hne
  · rw [update_self, List.mem_filter, decide_eq_true_eq, ne_eq, ne_eq, Prod.mk.injEq,
      and_iff_left rfl]
  · rw [update_of_ne hne, ne_eq, Prod.mk.injEq]
    exact (and_iff_left fun h => hne h.2).symm

theorem Inv.discard (h : Inv s) {g : ℕ} (hdue : (future, g) ∈ s.ready) :
    Inv (s.discard g future) where
  sets := by
    refine ⟨fun hmem => h.sets.pending (mem_discard.mp hmem).1, fun hmem hdone => ?_,
      fun hready => h.sets.done (List.mem_of_mem_erase hready), fun {g'} hle => ?_,
      h.sets.deliveries⟩
    · obtain ⟨hin, hne⟩ := mem_discard.mp hmem
      exact (List.mem_erase_of_ne hne).mpr (h.sets.due hin hdone)
    · refine List.eq_nil_iff_forall_not_mem.mpr fun other hmem => ?_
      have hin := (mem_discard.mp hmem).1
      rw [h.sets.empty hle] at hin
      exact List.not_mem_nil hin
  roles := { h.roles with }
  tables := { h.tables with }
  cover := by
    refine h.cover.mono rfl rfl rfl rfl rfl (fun _ hdone => hdone) fun other g' hmem => ?_
    by_cases heq : (other, g') = (future, g)
    · cases heq
      exact .inl (h.sets.done hdue)
    · exact .inr (mem_discard.mpr ⟨hmem, heq⟩)

/-- The barriers are no part of the invariant. -/
theorem Inv.withBarriers (h : Inv s) (barriers : List (ℕ × Barrier V E)) :
    Inv { s with barriers := barriers } where
  sets := { h.sets with }
  roles := { h.roles with }
  tables := { h.tables with }
  cover := h.cover.mono rfl rfl rfl rfl rfl (fun _ hdone => hdone) fun _ _ hmem => .inr hmem

theorem Roles.grown (h : Roles s) (hgrown : Grown s s') : Roles s' := by
  rw [hgrown.rest]
  exact { h with }

theorem Tables.grown (h : Tables s) (hgrown : Grown s s') : Tables s' := by
  rw [hgrown.rest]
  exact { h with }

theorem serves_of_new {op call : ℕ} (h : Roles s) (hop : s.calls ≤ op) (hserves : s.Serves op call) :
    op = call := by
  cases hserves with
  | refl op => rfl
  | join follows owner rest =>
    have hlt := h.owner_lt (h.follows follows).1
    rw [owner] at hlt
    exact absurd hlt (Nat.not_lt.mpr hop)

theorem Inv.execute (h : Inv s) : Inv s.execute := by
  rw [State.execute]
  -- The set of the new operation is empty before, so nothing is lost.
  have hempty : update s.group s.calls [] = s.group := by
    rw [← h.sets.empty (Nat.le_refl s.calls), Function.update_eq_self]
  rw [hempty]
  set t : State K V E := { s with
    calls := s.calls + 1
    deliveries := update s.deliveries s.calls s.calls } with ht
  have hold : ∀ {op}, op < s.calls → t.deliveries op = s.deliveries op :=
    fun hop => update_of_ne (Nat.ne_of_lt hop) _ _
  have hown : t.deliveries s.calls = s.calls := update_self _ _ _
  have hsets : Sets t := by
    refine ⟨h.sets.pending, h.sets.due, h.sets.done,
      fun hle => h.sets.empty (Nat.le_of_succ_le hle), fun {op} hop => ?_⟩
    rcases Nat.lt_succ_iff_lt_or_eq.mp hop with hlt | rfl
    · rw [hold hlt]
      exact Nat.lt_succ_of_lt (h.sets.deliveries hlt)
    · rw [hown]
      exact Nat.lt_succ_self _
  have hroles : Roles t := by
    refine ⟨h.roles.leads, h.roles.follows, h.roles.owned,
      fun hrole => Nat.lt_succ_of_lt (h.roles.known hrole), h.roles.last, fun {op id} hrole => ?_⟩
    rw [hold (h.roles.known hrole), hold (h.roles.owner_lt (h.roles.follows hrole).1)]
    exact h.roles.deliveries hrole
  have htables : Tables t := { h.tables with }
  have hgrown := grown_trackDelivery t s.calls (.delivered s.calls)
  refine ⟨hsets.trackDelivery (Nat.lt_succ_self _) _, hroles.grown hgrown, htables.grown hgrown,
    fun op call future hop hserves howns => ?_⟩
  have hserves' : s.Serves op call := by
    rw [State.Serves, hgrown.rest] at hserves
    exact hserves
  have howns' : s.Owns call future := by
    rw [hgrown.rest] at howns
    cases future <;> exact howns
  rw [hgrown.done, hgrown.deliveries]
  rcases Nat.lt_succ_iff_lt_or_eq.mp (hgrown.calls ▸ hop) with hlt | rfl
  · rw [hold hlt]
    exact (h.cover op call future hlt hserves' howns').imp_right hgrown.group
  · have hself := serves_of_new h.roles (Nat.le_refl _) hserves'
    subst hself
    cases future with
    | delivered c =>
      cases howns'
      rw [hown]
      exact tracked t s.calls (.delivered s.calls)
    | task id =>
      have hlt := h.roles.owner_lt howns'.1
      rw [howns'.2] at hlt
      exact absurd hlt (Nat.lt_irrefl _)

section Entering

variable {op : ℕ} {tier : Tier}

theorem State.Enters.process (h : s.Enters op tier) : s.role (op, .process) = none := by
  cases h with
  | calling _ _ _ process => exact process
  | leading _ _ process => exact process

theorem State.Enters.vacant (h : s.Enters op tier) : s.role (op, tier) = none := by
  cases h with
  | calling _ _ request process => cases tier <;> assumption
  | leading _ _ process => exact process

theorem State.Enters.not_follows (h : s.Enters op tier) (t : Tier) (id : ℕ) :
    s.role (op, t) ≠ some (.follows id) := by
  intro hrole
  cases t with
  | process =>
    rw [h.process] at hrole
    cases hrole
  | request =>
    cases h with
    | calling _ _ request _ | leading request _ _ =>
      rw [request] at hrole
      cases hrole

theorem State.Enters.known (h : s.Enters op tier) (hroles : Roles s) : op < s.calls := by
  cases h with
  | calling known _ _ _ => exact known
  | leading request _ _ => exact hroles.known request

/-- The role a step gives to an operation that had none in the tier. -/
theorem role_update {role : Role} {other : ℕ × Tier} {r : Role} (hvacant : s.role (op, tier) = none)
    (h : s.role other = some r) : update s.role (op, tier) (some role) other = some r := by
  have hne : other ≠ (op, tier) := by
    rintro rfl
    rw [hvacant] at h
    cases h
  rw [update_of_ne hne, h]

theorem of_role_update {role : Role} {other : ℕ × Tier} {r : Role}
    (h : update s.role (op, tier) (some role) other = some r) :
    other = (op, tier) ∧ r = role ∨ s.role other = some r := by
  rcases eq_or_ne other (op, tier) with rfl | hne
  · rw [update_self] at h
    exact .inl ⟨rfl, (Option.some.inj h).symm⟩
  · rw [update_of_ne hne] at h
    exact .inr h

variable {id : ℕ} {place : Scope × K}

theorem owner_follow (flight : ℕ → Flight) (id i : ℕ) :
    (update flight id { flight id with followers := (flight id).followers + 1 } i).owner =
      (flight i).owner := by
  rcases eq_or_ne i id with rfl | hne
  · rw [update_self]
  · rw [update_of_ne hne]

theorem Roles.follow (h : Roles s) (henters : s.Enters op tier) (hid : id < s.flights)
    (hleads : s.role ((s.flight id).owner, tier) = some (.leads id)) :
    Roles (s.follow op tier id) := by
  have hmerged := merged_joinDelivery s op (s.flight id).owner
  have howner : (s.flight id).owner ≠ op := by
    intro heq
    rw [heq, henters.vacant] at hleads
    cases hleads
  rw [State.follow, hmerged.rest]
  refine ⟨fun {o t i} hrole => ?_, fun {o t i} hrole => ?_, fun {i} hi => ?_, fun {o t r} hrole => ?_,
    fun {o i} hrole => ?_, fun {o i} hrole => ?_⟩
  all_goals dsimp only at *
  · rw [owner_follow]
    rcases of_role_update hrole with ⟨-, heq⟩ | hold
    · cases heq
    · exact h.leads hold
  · rw [owner_follow]
    rcases of_role_update hrole with ⟨heq, hr⟩ | hold
    · cases heq
      cases hr
      exact ⟨hid, role_update henters.vacant hleads⟩
    · exact ⟨(h.follows hold).1, role_update henters.vacant (h.follows hold).2⟩
  · rw [owner_follow]
    obtain ⟨t, ht⟩ := h.owned hi
    exact ⟨t, role_update henters.vacant ht⟩
  · rcases of_role_update hrole with ⟨heq, -⟩ | hold
    · cases heq
      exact henters.known h
    · exact h.known hold
  · rcases of_role_update hrole with ⟨heq, -⟩ | hold
    · cases heq
      rw [update_of_ne (fun hp => Tier.noConfusion (congrArg Prod.snd hp))]
      exact henters.process
    · have hne : o ≠ op := fun heq => henters.not_follows _ _ (heq ▸ hold)
      rw [update_of_ne (fun hp => hne (congrArg Prod.fst hp))]
      exact h.last hold
  · rw [owner_follow]
    rcases of_role_update hrole with ⟨heq, hr⟩ | hold
    · cases heq
      cases hr
      rw [update_self, update_of_ne howner]
    · have hne : o ≠ op := fun heq => henters.not_follows _ _ (heq ▸ hold)
      have hother : (s.flight i).owner ≠ op := by
        intro heq
        have hrole := (h.follows hold).2
        rw [heq, henters.process] at hrole
        cases hrole
      rw [update_of_ne hne, update_of_ne hother]
      exact h.deliveries hold

theorem owns_follow {call : ℕ} (h : (s.follow op tier id).Owns call future) :
    s.Owns call future := by
  rw [State.follow, (merged_joinDelivery s op (s.flight id).owner).rest] at h
  cases future with
  | delivered c => exact h
  | task i => exact ⟨h.1, (owner_follow s.flight id i).symm.trans h.2⟩

theorem done_follow (s : State K V E) (op id : ℕ) (tier : Tier) :
    (s.follow op tier id).done = s.done := by
  rw [State.follow, (merged_joinDelivery s op (s.flight id).owner).rest]
  rfl

theorem Inv.follow (h : Inv s) (henters : s.Enters op place.1.tier)
    (htable : s.table place = some id) : Inv (s.follow op place.1.tier id) := by
  obtain ⟨-, hleads⟩ := h.tables.registered htable
  have hid := (h.roles.leads hleads).1
  have hop := henters.known h.roles
  have hsets := h.sets.joinDelivery hop (h.roles.owner_lt hid)
  have hmerged := merged_joinDelivery s op (s.flight id).owner
  have hroles := h.roles.follow henters hid hleads
  refine ⟨?_, hroles, ?_, fun o call future ho hserves howns => ?_⟩
  · exact ⟨hsets.pending, hsets.due, hsets.done, hsets.empty, hsets.deliveries⟩
  · rw [State.follow, hmerged.rest]
    refine ⟨fun {p i} hp => ?_, h.tables.fresh, h.tables.settled⟩
    obtain ⟨hrunning, hrole⟩ := h.tables.registered hp
    dsimp only
    rw [owner_follow]
    exact ⟨hrunning, role_update henters.vacant hrole⟩
  · have howns' := owns_follow howns
    have hlt : o < s.calls := by
      rw [State.follow, hmerged.rest] at ho
      exact ho
    have hdone := done_follow s op id place.1.tier
    have hdeliveries : (s.follow op place.1.tier id).deliveries =
        update s.deliveries op (s.deliveries (s.flight id).owner) := by
      rw [State.follow, hmerged.rest]
    -- What was behind the operation is in the set of the owner, to which it refers now.
    have hmoved : s.Serves op call → s.done future = true ∨
        future ∈ (s.follow op place.1.tier id).group (s.deliveries (s.flight id).owner) := by
      intro hbehind
      rcases h.cover op call future hop hbehind howns' with hd | hmem
      · exact .inl hd
      · exact hmerged.moved hmem
    rw [hdone, hdeliveries]
    rcases hserves.of_update (owner_follow s.flight id) with hold | ⟨hup, hbehind⟩
    · rcases eq_or_ne o op with rfl | hne
      · rw [update_self]
        exact hmoved hold
      · rw [update_of_ne hne]
        exact (h.cover o call future hlt hold howns').imp_right hmerged.group
    · have hset := h.roles.deliveries_of_serves hup hid rfl
      rcases eq_or_ne o op with rfl | hne
      · rw [update_self]
        exact hmoved hbehind
      · rw [update_of_ne hne, hset]
        exact hmoved hbehind

theorem flight_register {id : ℕ} (hid : id < s.flights) (flight : Flight) :
    update s.flight s.flights flight id = s.flight id :=
  update_of_ne (Nat.ne_of_lt hid) _ _

variable [DecidableEq K]

theorem register_rest (s : State K V E) (op : ℕ) (scope : Scope) (key : K) (started : ℕ) :
    s.register op scope key started = { s with
      flights := s.flights + 1
      flight := update s.flight s.flights ⟨started, op, 0⟩
      table := update s.table (scope, key) (some s.flights)
      lead := update s.lead s.flights (some (.running (scope, key)))
      role := update s.role (op, scope.tier) (some (.leads s.flights))
      group := (s.register op scope key started).group
      callbacks := (s.register op scope key started).callbacks } := by
  rw [State.register, (grown_trackDelivery _ _ _).rest]

variable {scope : Scope}

theorem Roles.register (h : Roles s) (henters : s.Enters op scope.tier) (key : K) (started : ℕ) :
    Roles (s.register op scope key started) := by
  rw [register_rest]
  refine ⟨fun {o t i} hrole => ?_, fun {o t i} hrole => ?_, fun {i} hi => ?_,
    fun {o t r} hrole => ?_, fun {o i} hrole => ?_, fun {o i} hrole => ?_⟩
  all_goals dsimp only at *
  · rcases of_role_update hrole with ⟨heq, hr⟩ | hold
    · cases heq
      cases hr
      rw [update_self]
      exact ⟨Nat.lt_succ_self _, rfl⟩
    · obtain ⟨hi, howner⟩ := h.leads hold
      rw [flight_register hi]
      exact ⟨Nat.lt_succ_of_lt hi, howner⟩
  · rcases of_role_update hrole with ⟨-, hr⟩ | hold
    · cases hr
    · obtain ⟨hi, hleads⟩ := h.follows hold
      rw [flight_register hi]
      exact ⟨Nat.lt_succ_of_lt hi, role_update henters.vacant hleads⟩
  · rcases Nat.lt_succ_iff_lt_or_eq.mp hi with hlt | rfl
    · obtain ⟨t, ht⟩ := h.owned hlt
      rw [flight_register hlt]
      exact ⟨t, role_update henters.vacant ht⟩
    · rw [update_self]
      exact ⟨scope.tier, update_self _ _ _⟩
  · rcases of_role_update hrole with ⟨heq, -⟩ | hold
    · cases heq
      exact henters.known h
    · exact h.known hold
  · rcases of_role_update hrole with ⟨-, hr⟩ | hold
    · cases hr
    · have hne : o ≠ op := fun heq => henters.not_follows _ _ (heq ▸ hold)
      rw [update_of_ne (fun hp => hne (congrArg Prod.fst hp))]
      exact h.last hold
  · rcases of_role_update hrole with ⟨-, hr⟩ | hold
    · cases hr
    · rw [flight_register (h.follows hold).1]
      exact h.deliveries hold

theorem Tables.register (h : Tables s) (hroles : Roles s) (henters : s.Enters op scope.tier)
    (key : K) (started : ℕ) : Tables (s.register op scope key started) := by
  rw [register_rest]
  refine ⟨fun {p i} hp => ?_, fun {i} hi => ?_, fun {i} hdone => ?_⟩
  all_goals dsimp only at *
  · rcases eq_or_ne p (scope, key) with rfl | hne
    · rw [update_self] at hp
      cases hp
      rw [update_self, update_self]
      exact ⟨rfl, update_self _ _ _⟩
    · rw [update_of_ne hne] at hp
      obtain ⟨hrunning, hleads⟩ := h.registered hp
      have hi := (hroles.leads hleads).1
      rw [flight_register hi, update_of_ne (Nat.ne_of_lt hi)]
      exact ⟨hrunning, role_update henters.vacant hleads⟩
  · rw [update_of_ne (Nat.ne_of_gt hi)]
    exact h.fresh (Nat.le_of_succ_le hi)
  · obtain ⟨outcome, hended⟩ := h.settled hdone
    have hne : i ≠ s.flights := by
      rintro rfl
      rw [h.fresh (Nat.le_refl _)] at hended
      cases hended
    rw [update_of_ne hne]
    exact ⟨outcome, hended⟩

theorem serves_register (h : Roles s) {key : K} {started o call : ℕ}
    (hserves : (s.register op scope key started).Serves o call) : s.Serves o call := by
  rw [State.Serves, register_rest] at hserves
  refine Serves.of_follows hserves fun c t i hrole => ?_
  rcases of_role_update hrole with ⟨-, hr⟩ | hold
  · cases hr
  · exact ⟨hold, congrArg Flight.owner (flight_register (h.follows hold).1 _)⟩

/-- The one new future is the task of the flight. -/
theorem owns_register {key : K} {started call : ℕ}
    (howns : (s.register op scope key started).Owns call future) :
    s.Owns call future ∨ future = .task s.flights ∧ call = op := by
  rw [register_rest] at howns
  cases future with
  | delivered c => exact .inl howns
  | task i =>
    obtain ⟨hi, howner⟩ := howns
    rcases Nat.lt_succ_iff_lt_or_eq.mp hi with hlt | rfl
    · exact .inl ⟨hlt, (congrArg Flight.owner (flight_register hlt _)).symm.trans howner⟩
    · dsimp only at howner
      rw [update_self] at howner
      exact .inr ⟨rfl, howner.symm⟩

theorem Inv.register (h : Inv s) (henters : s.Enters op scope.tier) (key : K) (started : ℕ) :
    Inv (s.register op scope key started) := by
  have hop := henters.known h.roles
  set t : State K V E := { s with
    flights := s.flights + 1
    flight := update s.flight s.flights ⟨started, op, 0⟩ } with ht
  have hgrown := grown_trackDelivery t (s.deliveries op) (.task s.flights)
  have hsets : Sets t := { h.sets with }
  have hsets' := hsets.trackDelivery (h.sets.deliveries hop) (.task s.flights)
  refine ⟨{ hsets' with },
    h.roles.register henters key started, h.tables.register h.roles henters key started,
    fun o call future ho hserves howns => ?_⟩
  have hserves' := serves_register h.roles hserves
  have hdone : (s.register op scope key started).done = s.done := hgrown.done
  have hdeliveries : (s.register op scope key started).deliveries = s.deliveries :=
    hgrown.deliveries
  have hlt : o < s.calls := hgrown.calls ▸ ho
  rw [hdone, hdeliveries]
  rcases owns_register howns with hold | ⟨rfl, rfl⟩
  · exact (h.cover o call future hlt hserves' hold).imp_right hgrown.group
  · -- An operation that still enters follows nobody, so no one else serves it.
    have hself := hserves'.eq_of_not_follows henters.not_follows
    subst hself
    exact tracked t (s.deliveries o) (.task s.flights)

end Entering

end DialCache.DeliveryBarriers
