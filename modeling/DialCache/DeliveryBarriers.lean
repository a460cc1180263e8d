import DialCache.DeliveryGroups

/-!
# Delivery barriers

A barrier waits until nothing in the set of its operation is pending, and looks again. When it
returns, everyone behind the flights of the operation has been served, and nobody can join them
any more.
-/

namespace DialCache.DeliveryBarriers

variable {K V E : Type} {s s' : State K V E} {history : List (Event K V E)}

/-! ### Barriers that have returned -/

/-- Everyone the operation serves is served, and all their flights are settled. -/
def State.Sealed (s : State K V E) (op : ℕ) : Prop :=
  ∀ call future, s.Serves op call → s.Owns call future → s.done future = true

variable {op : ℕ}

theorem Inv.sealed_of_ended (h : Inv s) (hop : op < s.calls) {outcome : Outcome V E}
    (hended : s.awaitDelivery op = .ended outcome) : s.Sealed op ∧ outcome = .result none := by
  rw [State.awaitDelivery] at hended
  split at hended
  next hnone =>
    cases hended
    refine ⟨fun call future hserves howns => ?_, rfl⟩
    rcases h.cover op call future hop hserves howns with hdone | hmem
    · exact hdone
    · by_contra hpending
      have hin : future ∈ (s.group (s.deliveries op)).filter fun future => !s.done future :=
        List.mem_filter.mpr ⟨hmem, by rw [Bool.eq_false_iff.mpr hpending]; rfl⟩
      rw [hnone] at hin
      exact List.not_mem_nil hin
  · cases hended

theorem State.Sealed.mono (h : s.Sealed op) (hflights : s'.flights = s.flights)
    (hrole : s'.role = s.role) (hflight : s'.flight = s.flight)
    (hdone : ∀ future, s.done future = true → s'.done future = true) :
    s'.Sealed op ∧ ∀ call, s'.Serves op call → s.Serves op call := by
  have hserves : ∀ call, s'.Serves op call → s.Serves op call := by
    intro call hcall
    rw [State.Serves, hrole, hflight] at hcall
    exact hcall
  refine ⟨fun call future hcall howns => hdone future (h call future (hserves call hcall) ?_),
    hserves⟩
  cases future with
  | delivered c => exact howns
  | task id =>
    rw [State.Owns, hflights, hflight] at howns
    exact howns

/-- An operation that still enters a table is not served by a sealed one. -/
theorem Inv.not_serves_of_enters (h : Inv s) {other : ℕ} {tier : Tier} (hsealed : s.Sealed op)
    (henters : s.Enters other tier) : ¬ s.Serves op other := by
  intro hserves
  cases henters with
  | calling known caller request process =>
    rw [hsealed other (.delivered other) hserves rfl] at caller
    cases caller
  | leading request running process =>
    have hdone := hsealed other (.task _) hserves (h.roles.leads request)
    rw [h.tables.pending_of_running running] at hdone
    cases hdone

variable {id : ℕ} {place : Scope × K}

/-- A flight in a table has no owner that a sealed operation serves. -/
theorem Inv.not_serves_owner (h : Inv s) (hsealed : s.Sealed op) (htable : s.table place =
      some id) :
    ¬ s.Serves op (s.flight id).owner := by
  intro hserves
  obtain ⟨hrunning, hleads⟩ := h.tables.registered htable
  have hdone := hsealed _ (.task id) hserves ⟨(h.roles.leads hleads).1, rfl⟩
  rw [h.tables.pending_of_running hrunning] at hdone
  cases hdone

/-! ### Runs -/

theorem inv_empty : Inv (State.empty : State K V E) := by
  refine ⟨⟨fun hmem => ?_, fun hmem => ?_, fun hmem => ?_, fun _ => rfl, fun hop => ?_⟩,
    ⟨fun hrole => ?_, fun hrole => ?_, fun hid => ?_, fun hrole => ?_, fun hrole => ?_,
      fun hrole => ?_⟩, ⟨fun htable => ?_, fun _ => rfl, fun hdone => ?_⟩,
    fun op call future hop => ?_⟩
  · exact absurd hmem List.not_mem_nil
  · exact absurd hmem List.not_mem_nil
  · exact absurd hmem List.not_mem_nil
  · exact absurd hop (Nat.not_lt_zero _)
  · cases hrole
  · cases hrole
  · exact absurd hid (Nat.not_lt_zero _)
  · cases hrole
  · cases hrole
  · cases hrole
  · cases htable
  · cases hdone
  · exact absurd hop (Nat.not_lt_zero _)

variable {i : ℕ} {e : Event K V E}

section Run

variable [DecidableEq K]

/-- The place of an ended flight is free, and no other place has it. -/
theorem table_endLead (h : Tables s) {p : Scope × K} (hrunning : s.lead id = some (.running place))
    {outcome : Outcome V E} (hp : (s.endLead id place outcome).table p = some i) :
    s.table p = some i ∧ i ≠ id := by
  have hplace : s.table p = some id → p = place := by
    intro hin
    have hsame := (h.registered hin).1
    rw [hrunning] at hsame
    cases hsame
    rfl
  rw [State.endLead] at hp
  dsimp only at hp
  split at hp
  next hin =>
    rcases eq_or_ne p place with rfl | hne
    · rw [Function.update_self] at hp
      cases hp
    · rw [Function.update_of_ne hne] at hp
      exact ⟨hp, fun heq => hne (hplace (heq ▸ hp))⟩
  next hout =>
    refine ⟨hp, fun heq => hout ?_⟩
    subst heq
    rw [← hplace hp, hp]

theorem Tables.endLead (h : Tables s) (hrunning : s.lead id = some (.running place))
    (outcome : Outcome V E) : Tables (s.endLead id place outcome) := by
  refine ⟨fun {p i} hp => ?_, fun {i} hi => ?_, fun {i} hdone => ?_⟩
  · obtain ⟨hold, hne⟩ := table_endLead h hrunning hp
    obtain ⟨hrun, hleads⟩ := h.registered hold
    exact ⟨(Function.update_of_ne hne _ _).trans hrun, hleads⟩
  · have hnone := h.fresh hi
    have hne : i ≠ id := by
      rintro rfl
      rw [hrunning] at hnone
      cases hnone
    exact (Function.update_of_ne hne _ _).trans hnone
  · obtain ⟨o, hended⟩ := h.settled hdone
    have hne : i ≠ id := by
      rintro rfl
      rw [hrunning] at hended
      cases hended
    exact ⟨o, (Function.update_of_ne hne _ _).trans hended⟩

theorem Inv.endLead (h : Inv s) (hrunning : s.lead id = some (.running place))
    (outcome : Outcome V E) :
    Inv (s.endLead id place outcome) where
  sets := { h.sets with }
  roles := { h.roles with }
  tables := h.tables.endLead hrunning outcome
  cover := h.cover.mono rfl rfl rfl rfl rfl (fun _ hdone => hdone) fun _ _ hmem => .inr hmem

theorem singleFlight_joined (started : ℕ) (h : s.table place = some id) :
    s.singleFlight op place.1 place.2 started = (.joined id, s.follow op place.1.tier id) := by
  rw [State.singleFlight, h]

theorem singleFlight_leads (started : ℕ) (h : s.table place = none) :
    s.singleFlight op place.1 place.2 started =
      (.leads s.flights, s.register op place.1 place.2 started) := by
  rw [State.singleFlight, h]

theorem Inv.step (h : Inv s) (hstep : Step s e s') : Inv s' := by
  cases hstep with
  | executed => exact h.execute
  | @entered op scope enters key started =>
    cases htable : s.table (scope, key) with
    | some id =>
      rw [singleFlight_joined started htable]
      exact h.follow enters htable
    | none =>
      rw [singleFlight_leads started htable]
      exact h.register enters key started
  | ended running outcome => exact h.endLead running outcome
  | settled ended pending =>
    refine h.complete fun i heq => ?_
    cases heq
    exact ⟨_, ended⟩
  | finished known pending settled | cancelled known pending =>
    exact h.complete fun i heq => Future.noConfusion heq
  | discarded due => exact h.discard due
  | awaits known | checked checking | woken waiting all | aborted waiting => exact h.withBarriers _

theorem inv_of_run (h : Run history s) : Inv s := by
  induction h with
  | start => exact inv_empty
  | step past hstep ih => exact ih.step hstep

/-- A sealed operation serves nobody new. -/
theorem Inv.sealed_step (h : Inv s) (hstep : Step s e s') (hsealed : s.Sealed op) :
    s'.Sealed op ∧ ∀ call, s'.Serves op call → s.Serves op call := by
  have hcomplete : ∀ {future : Future} {outcome : Outcome V E},
      (s.complete future outcome).Sealed op ∧
        ∀ call, (s.complete future outcome).Serves op call → s.Serves op call :=
    hsealed.mono rfl rfl rfl fun _ => done_complete_of_done
  cases hstep with
  | executed =>
    have hgrown := grown_trackDelivery { s with
      calls := s.calls + 1
      deliveries := Function.update s.deliveries s.calls s.calls
      group := Function.update s.group s.calls [] } s.calls (.delivered s.calls)
    rw [State.execute, hgrown.rest]
    exact hsealed.mono rfl rfl rfl fun _ hdone => hdone
  | @entered other scope enters key started =>
    cases htable : s.table (scope, key) with
    | some id =>
      rw [singleFlight_joined started htable]
      have hserves : ∀ call, (s.follow other scope.tier id).Serves op call → s.Serves op call := by
        intro call hcall
        rcases hcall.of_update (owner_follow s.flight id) with hold | ⟨hup, -⟩
        · exact hold
        · exact absurd hup (h.not_serves_owner hsealed htable)
      refine ⟨fun call future hcall howns => ?_, hserves⟩
      rw [done_follow]
      exact hsealed call future (hserves call hcall) (owns_follow howns)
    | none =>
      rw [singleFlight_leads started htable]
      refine ⟨fun call future hcall howns => ?_, fun call => serves_register h.roles⟩
      have hold := serves_register h.roles hcall
      rw [register_rest]
      rcases owns_register howns with howns | ⟨-, rfl⟩
      · exact hsealed call future hold howns
      · exact absurd hold (h.not_serves_of_enters hsealed enters)
  | ended running outcome => exact hsealed.mono rfl rfl rfl fun _ hdone => hdone
  | settled ended pending => exact hcomplete
  | finished known pending settled => exact hcomplete
  | cancelled known pending => exact hcomplete
  | discarded due | awaits known | checked checking | woken waiting all | aborted waiting =>
    exact hsealed.mono rfl rfl rfl fun _ hdone => hdone

/-- The state only grows: calls, flights and roles stay. -/
structure Kept (s s' : State K V E) : Prop where
  calls : s.calls ≤ s'.calls
  flights : s.flights ≤ s'.flights
  role : ∀ {place role}, s.role place = some role → s'.role place = some role
  owner : ∀ {id}, id < s.flights → (s'.flight id).owner = (s.flight id).owner

theorem kept_step (hstep : Step s e s') : Kept s s' := by
  have hsame : ∀ {t : State K V E}, t.calls = s.calls → t.flights = s.flights → t.role = s.role →
      t.flight = s.flight → Kept s t := by
    intro t hcalls hflights hrole hflight
    exact ⟨Nat.le_of_eq hcalls.symm, Nat.le_of_eq hflights.symm, fun h => hrole ▸ h, fun _ => by rw [hflight]⟩
  cases hstep with
  | executed =>
    rw [State.execute, (grown_trackDelivery _ _ _).rest]
    exact ⟨Nat.le_succ _, Nat.le_refl _, id, fun _ => rfl⟩
  | @entered op scope enters key started =>
    cases htable : s.table (scope, key) with
    | some id =>
      rw [singleFlight_joined started htable, State.follow,
        (merged_joinDelivery s op (s.flight id).owner).rest]
      exact ⟨Nat.le_refl _, Nat.le_refl _, role_update enters.vacant,
        fun _ => owner_follow s.flight id _⟩
    | none =>
      rw [singleFlight_leads started htable, register_rest]
      exact ⟨Nat.le_refl _, Nat.le_succ _, role_update enters.vacant,
        fun hid => congrArg Flight.owner (flight_register hid _)⟩
  | ended running outcome => exact hsame rfl rfl rfl rfl
  | settled ended pending => exact hsame rfl rfl rfl rfl
  | finished known pending settled => exact hsame rfl rfl rfl rfl
  | cancelled known pending => exact hsame rfl rfl rfl rfl
  | discarded due | awaits known | checked checking | woken waiting all | aborted waiting =>
    exact hsame rfl rfl rfl rfl

end Run

/-! ### Histories -/

def Joined (history : List (Event K V E)) (op flight : ℕ) : Prop :=
  ∃ scope key, .entered op scope key (.joined flight) ∈ history

def Led (history : List (Event K V E)) (op flight : ℕ) : Prop :=
  ∃ scope key, .entered op scope key (.leads flight) ∈ history

/-- A flight, or one whose leader joined it. -/
def Behind (history : List (Event K V E)) (flight other : ℕ) : Prop :=
  other = flight ∨ ∃ leader, Joined history leader flight ∧ Led history leader other

/-- A barrier of the operation has returned. -/
def Returned (history : List (Event K V E)) (op : ℕ) : Prop :=
  ∃ barrier, .checked barrier op (.ended (.result none)) ∈ history

/-- The events of barriers. -/
def Event.isBarrier : Event K V E → Bool
  | .awaits .. | .checked .. | .woken .. | .aborted .. => true
  | _ => false

/-- What holds of the delivery barriers after a history. -/
structure BarrierLaw [DecidableEq K] (history : List (Event K V E)) (s : State K V E) : Prop where
  delivered : ∀ op flight other call, Returned history op → Led history op flight →
    Behind history flight other → Joined history call other → s.done (.delivered call) = true
  settled : ∀ op flight other, Returned history op → Led history op flight →
    Behind history flight other → s.done (.task other) = true
  closed : ∀ later earlier barrier op flight other call,
    history = later ++ .checked barrier op (.ended (.result none)) :: earlier →
    Led history op flight → Behind history flight other → ¬ Joined later call other
  outcome : ∀ barrier op outcome, s.barriers[barrier]? = some (op, .ended outcome) →
    outcome = .result none ∧ .checked barrier op (.ended outcome) ∈ history ∨
      outcome = .cancelled ∧ .aborted barrier ∈ history
  quiet : ∀ e s', Step s e s' → e.isBarrier = true → ∃ barriers, s' = { s with barriers := barriers }
  wakes : ∀ barrier op pending, s.barriers[barrier]? = some (op, .waiting pending) →
    (∀ future ∈ pending, s.done future = true) → ∃ s', Step s (.woken barrier) s'
  clean : ∀ group future, future ∈ s.group group → (future, group) ∉ s.ready →
    s.done future = false

theorem Joined.cons (h : Joined (e :: history) op id) :
    (∃ scope key, e = .entered op scope key (.joined id)) ∨ Joined history op id := by
  obtain ⟨scope, key, hmem⟩ := h
  rcases List.mem_cons.mp hmem with heq | hold
  · exact .inl ⟨scope, key, heq.symm⟩
  · exact .inr ⟨scope, key, hold⟩

theorem Led.cons (h : Led (e :: history) op id) :
    (∃ scope key, e = .entered op scope key (.leads id)) ∨ Led history op id := by
  obtain ⟨scope, key, hmem⟩ := h
  rcases List.mem_cons.mp hmem with heq | hold
  · exact .inl ⟨scope, key, heq.symm⟩
  · exact .inr ⟨scope, key, hold⟩

variable {state : Barrier V E}

theorem barrier_setBarrier {o : ℕ} {next : Barrier V E}
    (h : (s.setBarrier id op next).barriers[i]? = some (o, state)) :
    s.barriers[i]? = some (o, state) ∨ i = id ∧ o = op ∧ state = next := by
  rw [State.setBarrier] at h
  dsimp only at h
  rw [List.getElem?_set] at h
  split at h
  next heq =>
    split at h
    · cases h
      exact .inr ⟨heq.symm, rfl, rfl⟩
    · cases h
  · exact .inl h

/-- What the events of a history have left in the state. -/
structure Account (history : List (Event K V E)) (s : State K V E) : Prop where
  joined : ∀ {op id}, Joined history op id → ∃ tier, s.role (op, tier) = some (.follows id)
  led : ∀ {op id}, Led history op id → ∃ tier, s.role (op, tier) = some (.leads id)
  known : ∀ {barrier op : ℕ} {state}, s.barriers[barrier]? = some (op, state) → op < s.calls
  outcome : ∀ {barrier op : ℕ} {outcome}, s.barriers[barrier]? = some (op, .ended outcome) →
    outcome = .result none ∧ .checked barrier op (.ended outcome) ∈ history ∨
      outcome = .cancelled ∧ .aborted barrier ∈ history
  returned : ∀ {op}, Returned history op → s.Sealed op
  closed : ∀ {later earlier barrier op call id},
    history = later ++ .checked barrier op (.ended (.result none)) :: earlier →
    Joined later call id → ¬ s.Serves op (s.flight id).owner

/-- The owner of a flight behind a flight of the operation is one the operation serves. -/
theorem Account.serves_of_behind (h : Account history s) (hroles : Roles s) {flight other : ℕ}
    (hled : Led history op flight) (hbehind : Behind history flight other) :
    other < s.flights ∧ s.Serves op (s.flight other).owner := by
  obtain ⟨tier, hleads⟩ := h.led hled
  obtain ⟨hflight, howner⟩ := hroles.leads hleads
  rcases hbehind with rfl | ⟨leader, hjoined, hown⟩
  · rw [howner]
    exact ⟨hflight, .refl op⟩
  · obtain ⟨_, hfollows⟩ := h.joined hjoined
    obtain ⟨_, hrole⟩ := h.led hown
    obtain ⟨hother, hleader⟩ := hroles.leads hrole
    rw [hleader]
    exact ⟨hother, .join hfollows howner (.refl leader)⟩

section Accounts

variable [DecidableEq K]

variable {scope : Scope} {key : K}

theorem entered_step {entry : Entry} (h : Step s (.entered op scope key entry) s') :
    s.Enters op scope.tier ∧
      ∃ started, entry = (s.singleFlight op scope key started).1 ∧
        s' = (s.singleFlight op scope key started).2 := by
  generalize he : Event.entered op scope key entry = e at h
  cases h with
  | entered enters key started =>
    cases he
    exact ⟨enters, started, rfl, rfl⟩
  | executed | ended | settled | finished | cancelled | discarded | awaits | checked | woken
  | aborted => cases he

theorem joined_step (h : Step s (.entered op scope key (.joined id)) s') :
    s.table (scope, key) = some id ∧ s'.role (op, scope.tier) = some (.follows id) := by
  obtain ⟨-, started, hentry, rfl⟩ := entered_step h
  cases htable : s.table (scope, key) with
  | some i =>
    rw [singleFlight_joined started htable] at hentry ⊢
    cases hentry
    exact ⟨rfl, Function.update_self _ _ _⟩
  | none =>
    rw [singleFlight_leads started htable] at hentry
    cases hentry

theorem led_step (h : Step s (.entered op scope key (.leads id)) s') :
    s'.role (op, scope.tier) = some (.leads id) := by
  obtain ⟨-, started, hentry, rfl⟩ := entered_step h
  cases htable : s.table (scope, key) with
  | some i =>
    rw [singleFlight_joined started htable] at hentry
    cases hentry
  | none =>
    rw [singleFlight_leads started htable] at hentry ⊢
    cases hentry
    exact Function.update_self _ _ _

/-- How a barrier comes to its state. -/
inductive BarrierMove (s : State K V E) (e : Event K V E) (barrier op : ℕ) : Barrier V E → Prop
  | started (known : op < s.calls) : BarrierMove s e barrier op .checking
  | woken {pending : List Future} (waiting : s.barriers[barrier]? = some (op, .waiting pending)) :
      BarrierMove s e barrier op .checking
  | checked (checking : s.barriers[barrier]? = some (op, .checking))
      (event : e = .checked barrier op (s.awaitDelivery op)) :
      BarrierMove s e barrier op (s.awaitDelivery op)
  | aborted {pending : List Future} (waiting : s.barriers[barrier]? = some (op, .waiting pending))
      (event : e = .aborted barrier) : BarrierMove s e barrier op (.ended .cancelled)

theorem barrier_step (hstep : Step s e s') (h : s'.barriers[i]? = some (op, state)) :
    s.barriers[i]? = some (op, state) ∨ BarrierMove s e i op state := by
  cases hstep with
  | executed =>
    rw [State.execute, (grown_trackDelivery _ _ _).rest] at h
    exact .inl h
  | @entered other scope enters key started =>
    cases htable : s.table (scope, key) with
    | some id =>
      rw [singleFlight_joined started htable, State.follow,
        (merged_joinDelivery s other (s.flight id).owner).rest] at h
      exact .inl h
    | none =>
      rw [singleFlight_leads started htable, register_rest] at h
      exact .inl h
  | ended running outcome => exact .inl h
  | settled ended pending => exact .inl h
  | finished known pending settled => exact .inl h
  | cancelled known pending => exact .inl h
  | discarded due => exact .inl h
  | @awaits other known =>
    rw [List.getElem?_append] at h
    split at h
    · exact .inl h
    · cases List.mem_singleton.mp (List.mem_of_getElem? h)
      exact .inr (.started known)
  | checked checking =>
    rcases barrier_setBarrier h with hold | ⟨rfl, rfl, rfl⟩
    · exact .inl hold
    · exact .inr (.checked checking rfl)
  | woken waiting all =>
    rcases barrier_setBarrier h with hold | ⟨rfl, rfl, rfl⟩
    · exact .inl hold
    · exact .inr (.woken waiting)
  | aborted waiting =>
    rcases barrier_setBarrier h with hold | ⟨rfl, rfl, rfl⟩
    · exact .inl hold
    · exact .inr (.aborted waiting rfl)

theorem checked_step {barrier : ℕ} (h : Step s (.checked barrier op state) s') :
    s.barriers[barrier]? = some (op, .checking) ∧ state = s.awaitDelivery op ∧
      s' = s.setBarrier barrier op state := by
  generalize he : Event.checked barrier op state = e at h
  cases h with
  | checked checking =>
    cases he
    exact ⟨checking, rfl, rfl⟩
  | executed | entered | ended | settled | finished | cancelled | discarded | awaits | woken
  | aborted => cases he

theorem Account.step (h : Account history s) (hinv : Inv s) (hstep : Step s e s') :
    Account (e :: history) s' := by
  have hkept := kept_step hstep
  -- The barriers that have returned stay sealed, and one that returns now is sealed.
  have hreturned : ∀ {op}, Returned (e :: history) op → s'.Sealed op := by
    rintro op ⟨barrier, hmem⟩
    rcases List.mem_cons.mp hmem with rfl | hold
    · obtain ⟨hchecking, hended, -⟩ := checked_step hstep
      have hsealed := (hinv.sealed_of_ended (h.known hchecking) hended.symm).1
      exact (hinv.sealed_step hstep hsealed).1
    · exact (hinv.sealed_step hstep (h.returned ⟨barrier, hold⟩)).1
  refine ⟨fun {op id} hjoined => ?_, fun {op id} hled => ?_, fun {barrier op state} hb => ?_,
    fun {barrier op outcome} hb => ?_, hreturned,
    fun {later earlier barrier op call id} heq hjoined => ?_⟩
  · rcases hjoined.cons with ⟨scope, key, rfl⟩ | hold
    · exact ⟨_, (joined_step hstep).2⟩
    · obtain ⟨tier, hrole⟩ := h.joined hold
      exact ⟨tier, hkept.role hrole⟩
  · rcases hled.cons with ⟨scope, key, rfl⟩ | hold
    · exact ⟨_, led_step hstep⟩
    · obtain ⟨tier, hrole⟩ := h.led hold
      exact ⟨tier, hkept.role hrole⟩
  · refine Nat.lt_of_lt_of_le ?_ hkept.calls
    rcases barrier_step hstep hb with hold | hmove
    · exact h.known hold
    · cases hmove with
      | started known => exact known
      | woken waiting => exact h.known waiting
      | checked checking event => exact h.known checking
      | aborted waiting event => exact h.known waiting
  · rcases barrier_step hstep hb with hold | hmove
    · exact (h.outcome hold).imp (And.imp_right (List.mem_cons_of_mem e))
        (And.imp_right (List.mem_cons_of_mem e))
    · generalize hstate : Barrier.ended outcome = state at hmove
      cases hmove with
      | started known => cases hstate
      | woken waiting => cases hstate
      | checked checking event =>
        have hresult := (hinv.sealed_of_ended (h.known checking) hstate.symm).2
        rw [event, ← hstate]
        exact .inl ⟨hresult, List.mem_cons_self⟩
      | aborted waiting event =>
        cases hstate
        rw [event]
        exact .inr ⟨rfl, List.mem_cons_self⟩
  · cases later with
    | nil =>
      obtain ⟨_, _, hmem⟩ := hjoined
      exact absurd hmem List.not_mem_nil
    | cons e' later =>
      obtain ⟨rfl, hrest⟩ := List.cons.inj heq
      have hsealed : s.Sealed op := by
        refine h.returned ⟨barrier, ?_⟩
        rw [hrest]
        exact List.mem_append_right _ List.mem_cons_self
      have hserves := (hinv.sealed_step hstep hsealed).2
      rcases hjoined.cons with ⟨scope, key, rfl⟩ | hold
      · have htable := (joined_step hstep).1
        have hid := (hinv.roles.leads (hinv.tables.registered htable).2).1
        rw [hkept.owner hid]
        exact fun hcall => hinv.not_serves_owner hsealed htable (hserves _ hcall)
      · have hin : Joined history call id := by
          obtain ⟨scope, key, hmem⟩ := hold
          rw [hrest]
          exact ⟨scope, key, List.mem_append_left _ hmem⟩
        obtain ⟨tier, hrole⟩ := h.joined hin
        rw [hkept.owner (hinv.roles.follows hrole).1]
        exact fun hcall => h.closed hrest hold (hserves _ hcall)

theorem account_of_run (h : Run history s) : Account history s := by
  induction h with
  | start =>
    refine ⟨fun hjoined => ?_, fun hled => ?_, fun hb => ?_, fun hb => ?_, fun hreturned => ?_,
      fun heq => ?_⟩
    · obtain ⟨_, _, hmem⟩ := hjoined
      exact absurd hmem List.not_mem_nil
    · obtain ⟨_, _, hmem⟩ := hled
      exact absurd hmem List.not_mem_nil
    · cases hb
    · cases hb
    · obtain ⟨_, hmem⟩ := hreturned
      exact absurd hmem List.not_mem_nil
    · exact absurd heq.symm (List.append_ne_nil_of_right_ne_nil _ (List.cons_ne_nil _ _))
  | step past hstep ih => exact ih.step (inv_of_run past) hstep

theorem quiet_step (h : Step s e s') (he : e.isBarrier = true) :
    ∃ barriers, s' = { s with barriers := barriers } := by
  cases h with
  | awaits | checked | woken | aborted => exact ⟨_, rfl⟩
  | executed | entered | ended | settled | finished | cancelled | discarded => cases he

/-- The delivery barriers keep their law along every run. -/
theorem delivery_barrier_law (h : Run history s) : BarrierLaw history s := by
  have hinv := inv_of_run h
  have haccount := account_of_run h
  refine ⟨fun op flight other call hreturned hled hbehind hjoined => ?_,
    fun op flight other hreturned hled hbehind => ?_,
    fun later earlier barrier op flight other call heq hled hbehind hjoined => ?_,
    fun barrier op outcome => haccount.outcome, fun e s' => quiet_step,
    fun barrier op pending hwaiting hall => ⟨_, .woken hwaiting hall⟩,
    fun group future hmem hran => ?_⟩
  · -- A follower of the flight is served by whoever serves its owner.
    obtain ⟨-, hserves⟩ := haccount.serves_of_behind hinv.roles hled hbehind
    obtain ⟨tier, hfollows⟩ := haccount.joined hjoined
    have hcall : s.Serves op call := hserves.trans (.join hfollows rfl (.refl call))
    exact haccount.returned hreturned call (.delivered call) hcall rfl
  · obtain ⟨hother, hserves⟩ := haccount.serves_of_behind hinv.roles hled hbehind
    exact haccount.returned hreturned _ (.task other) hserves ⟨hother, rfl⟩
  · obtain ⟨-, hserves⟩ := haccount.serves_of_behind hinv.roles hled hbehind
    exact haccount.closed heq hjoined hserves
  · by_contra hdone
    exact hran (hinv.sets.due hmem (Bool.not_eq_false _ ▸ hdone))

end Accounts

/-- A barrier of a leader behind which the leader of a request flight has brought its follower,
who is cancelled. -/
theorem delivery_barrier_law_follower :
    ∃ (history : List (Event ℕ Unit Unit)) (s : State ℕ Unit Unit), Returned history 0 ∧
      Led history 0 0 ∧ Joined history 1 0 ∧ Led history 1 1 ∧ Joined history 2 1 ∧
      BarrierLaw history s := by
  have hfirst := Run.step Run.start (Step.executed (State.empty : State ℕ Unit Unit))
  have hleads := Run.step hfirst (@Step.entered ℕ Unit Unit _ _ 0 .process
    (.calling (by decide) rfl rfl rfl) 7 0)
  have hsecond := Run.step hleads (Step.executed _)
  have hrequest := Run.step hsecond (@Step.entered ℕ Unit Unit _ _ 1 (.request 0)
    (.calling (by decide) rfl rfl rfl) 7 0)
  have hthird := Run.step hrequest (Step.executed _)
  have hfollows := Run.step hthird (@Step.entered ℕ Unit Unit _ _ 2 (.request 0)
    (.calling (by decide) rfl rfl rfl) 7 0)
  have hjoins := Run.step hfollows (@Step.entered ℕ Unit Unit _ _ 1 .process
    (.leading rfl rfl rfl) 7 0)
  have hawaits := Run.step hjoins (@Step.awaits ℕ Unit Unit _ _ 0 (by decide))
  have hcancelled := Run.step hawaits (@Step.cancelled ℕ Unit Unit _ _ 2 (by decide) rfl)
  have hended := Run.step hcancelled (@Step.ended ℕ Unit Unit _ _ 0 (.process, 7) rfl
    (.exception ()))
  have hsettled := Run.step hended (@Step.settled ℕ Unit Unit _ _ 0 (.exception ()) rfl rfl)
  have hended' := Run.step hsettled (@Step.ended ℕ Unit Unit _ _ 1 (.request 0, 7) rfl .cancelled)
  have hsettled' := Run.step hended' (@Step.settled ℕ Unit Unit _ _ 1 .cancelled rfl rfl)
  have hfinished := Run.step hsettled' (@Step.finished ℕ Unit Unit _ _ 0 (by decide) rfl
    (fun id hid => by cases hid; rfl))
  have hfinished' := Run.step hfinished (@Step.finished ℕ Unit Unit _ _ 1 (by decide) rfl
    (fun id hid => by cases hid; rfl))
  have hchecked := Run.step hfinished' (@Step.checked ℕ Unit Unit _ _ 0 0 rfl)
  refine ⟨_, _, ⟨0, List.mem_cons_self⟩, ⟨.process, 7, ?_⟩, ⟨.process, 7, ?_⟩, ⟨.request 0, 7, ?_⟩,
    ⟨.request 0, 7, ?_⟩, delivery_barrier_law hchecked⟩
  · exact List.mem_of_getElem? (i := 14) rfl
  · exact List.mem_of_getElem? (i := 9) rfl
  · exact List.mem_of_getElem? (i := 12) rfl
  · exact List.mem_of_getElem? (i := 10) rfl

end DialCache.DeliveryBarriers
