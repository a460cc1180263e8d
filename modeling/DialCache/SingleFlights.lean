import DialCache.InsertionMaps
import DialCache.SettledCells
import Mathlib.Algebra.Ring.Nat

/-!
# Single flights

Calls for one key share a flight: the first one registers it in the table of the process or
of its request and leads it, later ones join it. The leader runs the operation and may
complete, panic or be dropped; then it unregisters its flight and settles it, in this order.
An owner may close meanwhile, which empties its table and turns later calls away.
Every section under a lock is one step.
-/

namespace DialCache.SingleFlights

open InsertionMaps

inductive Error (ε : Type)
  | panic (message : String)
  | other (error : ε)

/-- How the operation of a leader ends. -/
inductive Ending (ε V : Type)
  | completed (result : Except (Error ε) V)
  | panicked (message : String)
  | dropped

def Ending.result {ε V : Type} : Ending ε V → Except (Error ε) V
  | .completed result => result
  | .panicked message => .error (.panic message)
  | .dropped => .error (.panic SettledCells.droppedMessage)

/-- How far a leader is: its operation runs, has ended, its flight is unregistered, settled. -/
inductive Leader (ε V : Type)
  | running
  | ended (ending : Ending ε V)
  | unregistered (ending : Ending ε V)
  | settled (ending : Ending ε V)

/-- The table of a flight. -/
inductive Place
  | process
  | request (owner : ℕ)
  deriving DecidableEq, Repr

structure Flight (K ε V : Type) where
  place : Place
  key : K
  started : ℕ
  followers : ℕ
  result : Option (Except (Error ε) V)
  leader : Leader ε V

structure Owner (K : Type) where
  live : Bool
  flights : InsertionMap K ℕ

structure State (K ε V : Type) where
  process : InsertionMap K ℕ
  owners : List (Owner K)
  flights : List (Flight K ε V)

/-- What a call does with its key. -/
inductive Entry
  | direct
  | joined (flight : ℕ)
  | leads (flight : ℕ)
  deriving DecidableEq, Repr

variable {K ε V : Type}

namespace State

def empty : State K ε V := ⟨InsertionMap.empty, [], []⟩

variable (s : State K ε V)

def table : Place → InsertionMap K ℕ
  | .process => s.process
  | .request owner => ((s.owners[owner]?).map Owner.flights).getD InsertionMap.empty

def setTable (place : Place) (table : InsertionMap K ℕ) : State K ε V :=
  match place with
  | .process => { s with process := table }
  | .request owner =>
    { s with owners := s.owners.modify owner fun state => { state with flights := table } }

/-- Whether calls are taken: an owner that was not closed. -/
def live (s : State K ε V) : Place → Bool
  | .process => true
  | .request owner => ((s.owners[owner]?).map Owner.live).getD false

def openOwner : State K ε V :=
  { s with owners := s.owners ++ [⟨true, InsertionMap.empty⟩] }

/-- `Owner::close`. -/
def close (owner : ℕ) : State K ε V :=
  { s with owners := s.owners.modify owner fun _ => ⟨false, InsertionMap.empty⟩ }

def modifyFlight (id : ℕ) (f : Flight K ε V → Flight K ε V) : State K ε V :=
  { s with flights := s.flights.modify id f }

variable [DecidableEq K]

/-- The first section of `single_flight`. -/
def enter (place : Place) (key : K) (started : ℕ) : Entry × State K ε V :=
  if s.live place then
    match (s.table place).get key with
    | some id =>
      (.joined id, s.modifyFlight id fun flight => { flight with followers := flight.followers + 1 })
    | none =>
      let s' := s.setTable place ((s.table place).set key s.flights.length)
      (.leads s.flights.length,
        { s' with flights := s.flights ++ [⟨place, key, started, 0, none, .running⟩] })
  else (.direct, s)

/-- `Leader::unregister`. -/
def unregister (id : ℕ) (place : Place) (key : K) : State K ε V :=
  if (s.table place).get key = some id then s.setTable place ((s.table place).delete key) else s

end State

/-- `Settled::settle` of the result of a flight. -/
def Flight.settle (flight : Flight K ε V) (result : Except (Error ε) V) : Bool × Flight K ε V :=
  match flight.result with
  | some _ => (false, flight)
  | none => (true, { flight with result := some result })

structure ProcessCoalescingState where
  activeLeaders : ℕ
  activeFollowers : ℕ
  oldestLeaderAgeMs : Option ℕ
  deriving DecidableEq, Repr

/-- The larger age, as the loop of `coalescing_state` keeps it. -/
def olderAge (oldest : Option ℕ) (age : ℕ) : Option ℕ :=
  match oldest with
  | none => some age
  | some old => if old < age then some age else some old

def coalescingState (s : State K ε V) (nowMs : ℕ) : ProcessCoalescingState :=
  let flights := (s.process.entries.map Prod.snd).filterMap fun id => s.flights[id]?
  ⟨s.process.size, (flights.map Flight.followers).sum,
    (flights.map fun flight => min (nowMs - flight.started) (2 ^ 64 - 1)).foldl olderAge none⟩

inductive Event (K ε V : Type)
  | open
  | close (owner : ℕ)
  | enter (place : Place) (key : K) (entry : Entry)
  | ended (flight : ℕ) (ending : Ending ε V)
  | unregister (flight : ℕ)
  | settle (flight : ℕ) (first : Bool)

section Steps

variable [DecidableEq K]

inductive Step : State K ε V → Event K ε V → State K ε V → Prop
  | open (s : State K ε V) : Step s .open s.openOwner
  | close {s : State K ε V} {owner : ℕ} (known : owner < s.owners.length) :
      Step s (.close owner) (s.close owner)
  | enter (s : State K ε V) (place : Place) (key : K) (started : ℕ) :
      Step s (.enter place key (s.enter place key started).1) (s.enter place key started).2
  | ended {s : State K ε V} {id : ℕ} {flight : Flight K ε V} (found : s.flights[id]? = some flight)
      (running : flight.leader = .running) (ending : Ending ε V) :
      Step s (.ended id ending) (s.modifyFlight id fun flight => { flight with leader := .ended ending })
  | unregister {s : State K ε V} {id : ℕ} {flight : Flight K ε V} {ending : Ending ε V}
      (found : s.flights[id]? = some flight) (leader : flight.leader = .ended ending) :
      Step s (.unregister id) ((s.unregister id flight.place flight.key).modifyFlight id
        fun flight => { flight with leader := .unregistered ending })
  | settle {s : State K ε V} {id : ℕ} {flight : Flight K ε V} {ending : Ending ε V}
      (found : s.flights[id]? = some flight) (leader : flight.leader = .unregistered ending) :
      Step s (.settle id (flight.settle ending.result).1) (s.modifyFlight id fun flight =>
        { (flight.settle ending.result).2 with leader := .settled ending })

/-- The states that a history leads to, the latest event first. -/
inductive Run : List (Event K ε V) → State K ε V → Prop
  | start : Run [] State.empty
  | step {history : List (Event K ε V)} {s s' : State K ε V} {e : Event K ε V}
      (past : Run history s) (h : Step s e s') : Run (e :: history) s'

end Steps

/-- The calls that joined a flight. -/
def joins : List (Event K ε V) → ℕ → ℕ
  | [], _ => 0
  | .enter _ _ (.joined flight) :: rest, id => joins rest id + if flight = id then 1 else 0
  | _ :: rest, id => joins rest id

/-- The settlements of a flight. -/
def settlements : List (Event K ε V) → ℕ → List Bool
  | [], _ => []
  | .settle flight first :: rest, id => (if flight = id then [first] else []) ++ settlements rest id
  | _ :: rest, id => settlements rest id

/-! ### Tables and flights of an updated state -/

variable {place : Place} {id : ℕ}

variable {key : K} {flight : Flight K ε V}

section Updates

variable {s : State K ε V}

/-- The owner of the place exists. -/
def State.Known (s : State K ε V) : Place → Prop
  | .process => True
  | .request owner => owner < s.owners.length

theorem known_of_live (h : s.live place = true) : s.Known place := by
  cases place with
  | process => exact True.intro
  | request owner =>
    by_contra hnot
    rw [State.live, List.getElem?_eq_none (Nat.not_lt.mp hnot)] at h
    cases h

theorem known_of_get [DecidableEq K] (h : (s.table place).get key = some id) : s.Known place := by
  cases place with
  | process => exact True.intro
  | request owner =>
    by_contra hnot
    rw [State.table, List.getElem?_eq_none (Nat.not_lt.mp hnot)] at h
    cases h

theorem getElem?_modify {α : Type} (l : List α) (f : α → α) (i j : ℕ) :
    (l.modify i f)[j]? = if j = i then l[j]?.map f else l[j]? := by
  rw [List.getElem?_modify]
  by_cases hij : j = i
  · simp [hij]
  · simp [hij, Ne.symm hij]

theorem table_setTable (h : s.Known place) (m : InsertionMap K ℕ) (other : Place) :
    (s.setTable place m).table other =
      if other = place then m else s.table other := by
  cases place with
  | process => cases other <;> rfl
  | request owner =>
    cases other with
    | process => rfl
    | request owner' =>
      rw [State.setTable, State.table, getElem?_modify]
      by_cases heq : owner' = owner
      · subst heq
        rw [if_pos rfl, if_pos rfl, List.getElem?_eq_getElem h]
        rfl
      · rw [if_neg heq, if_neg (fun hp => heq (Place.request.inj hp))]
        rfl

theorem live_setTable (place : Place) (m : InsertionMap K ℕ) (other : Place) :
    (s.setTable place m).live other = s.live other := by
  cases place with
  | process => cases other <;> rfl
  | request owner =>
    cases other with
    | process => rfl
    | request owner' =>
      rw [State.setTable, State.live, State.live, getElem?_modify]
      split
      · cases s.owners[owner']? <;> rfl
      · rfl

theorem known_setTable (place : Place) (m : InsertionMap K ℕ) (other : Place) :
    (s.setTable place m).Known other ↔ s.Known other := by
  cases place with
  | process => cases other <;> rfl
  | request owner =>
    cases other with
    | process => rfl
    | request owner' =>
      rw [State.setTable, State.Known, State.Known, List.length_modify]

theorem flights_setTable (place : Place) (m : InsertionMap K ℕ) :
    (s.setTable place m).flights = s.flights := by
  cases place <;> rfl

theorem table_openOwner (place : Place) : s.openOwner.table place = s.table place := by
  cases place with
  | process => rfl
  | request owner =>
    rw [State.openOwner, State.table, State.table]
    rcases Nat.lt_trichotomy owner s.owners.length with hlt | rfl | hgt
    · rw [List.getElem?_append_left hlt]
    · rw [List.getElem?_concat_length, List.getElem?_eq_none (Nat.le_refl _)]
      rfl
    · rw [List.getElem?_eq_none (by rw [List.length_append, List.length_singleton]; omega),
        List.getElem?_eq_none (by omega)]

theorem live_openOwner (h : s.Known place) : s.openOwner.live place = s.live place := by
  cases place with
  | process => rfl
  | request owner => rw [State.openOwner, State.live, State.live, List.getElem?_append_left h]

theorem known_openOwner (h : s.Known place) : s.openOwner.Known place := by
  cases place with
  | process => exact True.intro
  | request owner =>
    rw [State.openOwner, State.Known, List.length_append]
    exact Nat.lt_add_right _ h

theorem close_eq (owner : ℕ) (place : Place) :
    (s.close owner).table place =
        (if place = .request owner then InsertionMap.empty else s.table place) ∧
      (s.close owner).live place = if place = .request owner then false else s.live place := by
  cases place with
  | process => exact ⟨rfl, rfl⟩
  | request owner' =>
    rw [State.close, State.table, State.live, getElem?_modify]
    by_cases heq : owner' = owner
    · subst heq
      rw [if_pos rfl, if_pos rfl, if_pos rfl]
      cases s.owners[owner']? <;> exact ⟨rfl, rfl⟩
    · rw [if_neg heq, if_neg (fun hp => heq (Place.request.inj hp)), if_neg (fun hp => heq (Place.request.inj hp))]
      exact ⟨rfl, rfl⟩

theorem known_close (owner : ℕ) (place : Place) : (s.close owner).Known place ↔ s.Known place := by
  cases place with
  | process => rfl
  | request owner' => rw [State.close, State.Known, State.Known, List.length_modify]

/-- The flights after a change of one of them. -/
theorem flight_of_modify {base : State K ε V} {j : ℕ} {f : Flight K ε V → Flight K ε V}
    {other : Flight K ε V} (hflights : base.flights = s.flights)
    (found : s.flights[id]? = some flight) (h : (base.modifyFlight id f).flights[j]? = some other) :
    (j = id ∧ other = f flight) ∨ (j ≠ id ∧ s.flights[j]? = some other) := by
  rw [State.modifyFlight, getElem?_modify, hflights] at h
  split at h
  · rename_i hj
    rw [hj, found] at h
    exact Or.inl ⟨hj, (Option.some.inj h).symm⟩
  · rename_i hj
    exact Or.inr ⟨hj, h⟩

theorem settle_unsettled (h : flight.result = none) (result : Except (Error ε) V) :
    flight.settle result = (true, { flight with result := some result }) := by
  rw [Flight.settle, h]

end Updates

/-! ### The invariant -/

/-- The operation runs, or it has ended and the flight is still registered. -/
def Leader.isRegistered : Leader ε V → Bool
  | .running => true
  | .ended _ => true
  | .unregistered _ => false
  | .settled _ => false

/-- What a leader has settled. -/
def Leader.outcome : Leader ε V → Option (Except (Error ε) V)
  | .settled ending => some ending.result
  | _ => none

section Invariant

variable [DecidableEq K]

/-- What the history says of a flight. -/
structure Recorded (history : List (Event K ε V)) (s : State K ε V) (id : ℕ)
    (flight : Flight K ε V) : Prop where
  known : s.Known flight.place
  result : flight.result = flight.leader.outcome
  followers : flight.followers = joins history id
  settled : settlements history id = if flight.leader.outcome.isSome then [true] else []

structure Inv (history : List (Event K ε V)) (s : State K ε V) : Prop where
  registered : ∀ place key id, (s.table place).get key = some id →
    ∃ flight, s.flights[id]? = some flight ∧ flight.place = place ∧ flight.key = key ∧
      flight.leader.isRegistered = true
  kept : ∀ (id : ℕ) flight, s.flights[id]? = some flight → flight.leader.isRegistered = true →
    s.live flight.place = true → (s.table flight.place).get flight.key = some id
  recorded : ∀ (id : ℕ) flight, s.flights[id]? = some flight → Recorded history s id flight
  unborn : ∀ id, s.flights.length ≤ id → joins history id = 0 ∧ settlements history id = []

variable {history : List (Event K ε V)} {s : State K ε V}

theorem inv_empty : Inv ([] : List (Event K ε V)) State.empty where
  registered := by
    intro place key id h
    cases place with
    | process => cases h
    | request owner => cases h
  kept := by
    intro id flight h
    cases h
  recorded := by
    intro id flight h
    cases h
  unborn := fun _ _ => ⟨rfl, rfl⟩

theorem Inv.openOwner (h : Inv history s) : Inv (.open :: history) s.openOwner where
  registered := by
    intro place key id hget
    rw [table_openOwner] at hget
    exact h.registered place key id hget
  kept := by
    intro id flight hflight hleader hlive
    rw [live_openOwner (h.recorded id flight hflight).known] at hlive
    rw [table_openOwner]
    exact h.kept id flight hflight hleader hlive
  recorded := by
    intro id flight hflight
    have hrecorded := h.recorded id flight hflight
    exact { hrecorded with known := known_openOwner hrecorded.known }
  unborn := h.unborn

theorem Inv.close (h : Inv history s) (owner : ℕ) :
    Inv (.close owner :: history) (s.close owner) where
  registered := by
    intro place key id hget
    rw [(close_eq owner place).1] at hget
    split at hget
    · cases hget
    · exact h.registered place key id hget
  kept := by
    intro id flight hflight hleader hlive
    rw [(close_eq owner flight.place).2] at hlive
    rw [(close_eq owner flight.place).1]
    split at hlive
    · cases hlive
    · rename_i hne
      rw [if_neg hne]
      exact h.kept id flight hflight hleader hlive
  recorded := by
    intro id flight hflight
    have hrecorded := h.recorded id flight hflight
    exact { hrecorded with known := (known_close owner flight.place).mpr hrecorded.known }
  unborn := h.unborn

variable {e : Event K ε V}

/-- A change of one flight and of the tables that keeps the registered flights registered. -/
theorem Inv.update (h : Inv history s) {base : State K ε V} {f : Flight K ε V → Flight K ε V}
    (found : s.flights[id]? = some flight) (hflights : base.flights = s.flights)
    (hlive : ∀ place, base.live place = s.live place)
    (hknown : ∀ place, base.Known place ↔ s.Known place)
    (hhistory : ∀ j, j ≠ id → joins (e :: history) j = joins history j ∧
      settlements (e :: history) j = settlements history j)
    (htable : ∀ place key j, (base.table place).get key = some j ↔ (s.table place).get key =
      some j ∧ (j = id → (f flight).leader.isRegistered = true))
    (hplace : (f flight).place = flight.place) (hkey : (f flight).key = flight.key)
    (hregistered : (f flight).leader.isRegistered = true → flight.leader.isRegistered = true)
    (hresult : (f flight).result = (f flight).leader.outcome)
    (hfollowers : (f flight).followers = joins (e :: history) id)
    (hsettled : settlements (e :: history) id = if (f flight).leader.outcome.isSome then [true]
      else []) :
    Inv (e :: history) (base.modifyFlight id f) where
  registered := by
    intro place key j hget
    obtain ⟨hold, hself⟩ := (htable place key j).mp hget
    obtain ⟨other, hother, hp, hk, hleader⟩ := h.registered place key j hold
    rw [State.modifyFlight, getElem?_modify, hflights, hother]
    by_cases hj : j = id
    · rw [if_pos hj]
      rw [hj, found] at hother
      obtain rfl := Option.some.inj hother
      exact ⟨f flight, rfl, hplace.trans hp, hkey.trans hk, hself hj⟩
    · rw [if_neg hj]
      exact ⟨other, rfl, hp, hk, hleader⟩
  kept := by
    intro j other hother hleader hopen
    rcases flight_of_modify hflights found hother with ⟨rfl, rfl⟩ | ⟨hj, hother⟩
    · change base.live (f flight).place = true at hopen
      change (base.table _).get _ = _
      rw [hplace] at hopen ⊢
      rw [hlive] at hopen
      rw [hkey]
      exact (htable _ _ _).mpr
        ⟨h.kept j flight found (hregistered hleader) hopen, fun _ => hleader⟩
    · change base.live other.place = true at hopen
      rw [hlive] at hopen
      exact (htable _ _ _).mpr ⟨h.kept j other hother hleader hopen, fun heq => absurd heq hj⟩
  recorded := by
    intro j other hother
    rcases flight_of_modify hflights found hother with ⟨rfl, rfl⟩ | ⟨hj, hother⟩
    · exact ⟨(hknown _).mpr (hplace ▸ (h.recorded j flight found).known), hresult, hfollowers, hsettled⟩
    · have hrecorded := h.recorded j other hother
      obtain ⟨hjoins, hsettlements⟩ := hhistory j hj
      exact ⟨(hknown _).mpr hrecorded.known, hrecorded.result, hjoins ▸ hrecorded.followers,
        hsettlements ▸ hrecorded.settled⟩
  unborn := by
    intro j hj
    rw [State.modifyFlight, List.length_modify, hflights] at hj
    have hlt := (List.getElem?_eq_some_iff.mp found).1
    obtain ⟨hjoins, hsettlements⟩ := hhistory j (by omega)
    rw [hjoins, hsettlements]
    exact h.unborn j hj

/-- A call joins a registered flight. -/
theorem Inv.join (h : Inv history s) (hget : (s.table place).get key = some id) :
    Inv (.enter place key (.joined id) :: history)
      (s.modifyFlight id fun flight => { flight with followers := flight.followers + 1 }) := by
  obtain ⟨flight, found, -, -, hleader⟩ := h.registered place key id hget
  have hrecorded := h.recorded id flight found
  refine h.update found rfl (fun _ => rfl) (fun _ => Iff.rfl) ?_ ?_ rfl rfl (fun hr => hr)
    hrecorded.result ?_ hrecorded.settled
  · intro j hj
    refine ⟨?_, rfl⟩
    change joins history j + (if id = j then 1 else 0) = joins history j
    rw [if_neg (Ne.symm hj), Nat.add_zero]
  · intro place key j
    exact (and_iff_left (fun _ => hleader)).symm
  · change flight.followers + 1 = joins history id + if id = id then 1 else 0
    rw [if_pos rfl, hrecorded.followers]

/-- The operation of a leader ends. -/
theorem Inv.ended (h : Inv history s) (found : s.flights[id]? = some flight)
    (running : flight.leader = .running) (ending : Ending ε V) : Inv (.ended id ending :: history)
      (s.modifyFlight id fun flight => { flight with leader := .ended ending }) := by
  obtain ⟨-, hresult, hfollowers, hsettled⟩ := h.recorded id flight found
  rw [running] at hresult hsettled
  refine h.update found rfl (fun _ => rfl) (fun _ => Iff.rfl) (fun _ _ => ⟨rfl, rfl⟩) ?_ rfl rfl ?_
    hresult hfollowers hsettled
  · intro place key j
    exact (and_iff_left (fun _ => rfl)).symm
  · intro _
    rw [running]
    rfl

theorem table_unregister (other : Place) (key' : K) (j : ℕ) :
    ((s.unregister id place key).table other).get key' = some j ↔
      (s.table other).get key' = some j ∧ ¬ (other = place ∧ key' = key ∧ j = id) := by
  unfold State.unregister
  by_cases hown : (s.table place).get key = some id
  · rw [if_pos hown, table_setTable (known_of_get hown)]
    by_cases hplace : other = place
    · subst hplace
      rw [if_pos rfl]
      by_cases hkey : key' = key
      · subst hkey
        rw [InsertionMap.get_delete_self, hown]
        constructor
        · intro h
          cases h
        · rintro ⟨hj, hne⟩
          exact absurd ⟨rfl, rfl, (Option.some.inj hj).symm⟩ hne
      · rw [InsertionMap.get_delete_of_ne _ hkey]
        exact (and_iff_left (fun h => hkey h.2.1)).symm
    · rw [if_neg hplace]
      exact (and_iff_left (fun h => hplace h.1)).symm
  · rw [if_neg hown]
    refine (and_iff_left_of_imp ?_).symm
    rintro hget ⟨rfl, rfl, rfl⟩
    exact hown hget

theorem unregister_eq (s : State K ε V) (id : ℕ) (place : Place) (key : K) :
    (s.unregister id place key).flights = s.flights ∧
      (∀ other, (s.unregister id place key).live other = s.live other) ∧
      ∀ other, (s.unregister id place key).Known other ↔ s.Known other := by
  unfold State.unregister
  split
  · exact ⟨flights_setTable _ _, live_setTable _ _, known_setTable _ _⟩
  · exact ⟨rfl, fun _ => rfl, fun _ => Iff.rfl⟩

/-- A leader takes its own flight out of the table. -/
theorem Inv.unregister (h : Inv history s) {ending : Ending ε V}
    (found : s.flights[id]? = some flight) (leader : flight.leader = .ended ending) :
    Inv (.unregister id :: history) ((s.unregister id flight.place flight.key).modifyFlight id
      fun flight => { flight with leader := .unregistered ending }) := by
  obtain ⟨-, hresult, hfollowers, hsettled⟩ := h.recorded id flight found
  rw [leader] at hresult hsettled
  obtain ⟨hflights, hlive, hknown⟩ := unregister_eq s id flight.place flight.key
  refine h.update found hflights hlive hknown (fun _ _ => ⟨rfl, rfl⟩) ?_ rfl rfl ?_ hresult hfollowers
    hsettled
  · intro place key j
    rw [table_unregister]
    apply and_congr_right
    intro hget
    constructor
    · intro hne heq
      subst heq
      obtain ⟨other, hother, hp, hk, -⟩ := h.registered place key j hget
      rw [found] at hother
      obtain rfl := Option.some.inj hother
      exact absurd ⟨hp.symm, hk.symm, rfl⟩ hne
    · rintro hnot ⟨-, -, hj⟩
      exact absurd (hnot hj) Bool.false_ne_true
  · intro hr
    exact absurd hr Bool.false_ne_true

theorem Inv.settle (h : Inv history s) {ending : Ending ε V} (found : s.flights[id]? = some flight)
    (leader : flight.leader = .unregistered ending) :
    (flight.settle ending.result).1 = true ∧
      Inv (.settle id (flight.settle ending.result).1 :: history)
        (s.modifyFlight id fun flight =>
          { (flight.settle ending.result).2 with leader := .settled ending }) := by
  obtain ⟨-, hresult, hfollowers, hsettled⟩ := h.recorded id flight found
  have hleader : ∀ place key, (s.table place).get key ≠ some id := by
    intro place key hget
    obtain ⟨other, hother, -, -, hregistered⟩ := h.registered place key id hget
    rw [found] at hother
    obtain rfl := Option.some.inj hother
    rw [leader] at hregistered
    cases hregistered
  rw [leader] at hresult hsettled
  have hsettle := settle_unsettled hresult ending.result
  refine ⟨by rw [hsettle], ?_⟩
  refine h.update found rfl (fun _ => rfl) (fun _ => Iff.rfl) ?_ ?_ ?_ ?_ ?_ ?_ ?_ ?_
  · intro j hj
    refine ⟨rfl, ?_⟩
    change (if id = j then _ else []) ++ settlements history j = _
    rw [if_neg (Ne.symm hj), List.nil_append]
  · intro place key j
    refine (and_iff_left_of_imp ?_).symm
    rintro hget rfl
    exact absurd hget (hleader place key)
  · rw [hsettle]
  · rw [hsettle]
  · intro hr
    exact absurd hr Bool.false_ne_true
  · rw [hsettle]
    rfl
  · rw [hsettle]
    exact hfollowers
  · rw [hsettle]
    change (if id = id then [true] else []) ++ settlements history id = _
    rw [if_pos rfl, hsettled]
    rfl

/-- A call registers a new flight. -/
theorem Inv.lead (h : Inv history s) (started : ℕ) (hlive : s.live place = true)
    (hget : (s.table place).get key = none) :
    Inv (.enter place key (.leads s.flights.length) :: history)
      { s.setTable place ((s.table place).set key s.flights.length) with
        flights := s.flights ++ [⟨place, key, started, 0, none, .running⟩] } := by
  have hplaced := known_of_live hlive
  have hnew : (s.flights ++ [⟨place, key, started, 0, none, .running⟩])[s.flights.length]? =
      some ⟨place, key, started, 0, none, .running⟩ := List.getElem?_concat_length
  have hkeep : ∀ (id : ℕ) flight, s.flights[id]? = some flight →
      (s.flights ++ [⟨place, key, started, 0, none, .running⟩])[id]? = some flight := by
    intro id flight hflight
    rw [List.getElem?_append_left (List.getElem?_eq_some_iff.mp hflight).1, hflight]
  have hold : ∀ (id : ℕ) flight,
      (s.flights ++ [⟨place, key, started, 0, none, .running⟩])[id]? = some flight →
      (id = s.flights.length ∧ flight = ⟨place, key, started, 0, none, .running⟩) ∨
        s.flights[id]? = some flight := by
    intro id flight hflight
    rcases Nat.lt_trichotomy id s.flights.length with hlt | rfl | hgt
    · rw [List.getElem?_append_left hlt] at hflight
      exact Or.inr hflight
    · rw [hnew] at hflight
      exact Or.inl ⟨rfl, (Option.some.inj hflight).symm⟩
    · rw [List.getElem?_eq_none (by rw [List.length_append, List.length_singleton]; omega)]
        at hflight
      cases hflight
  have hunborn := h.unborn s.flights.length (Nat.le_refl _)
  refine ⟨?_, ?_, ?_, ?_⟩
  · intro other key' id hid
    change ((s.setTable _ _).table other).get key' = some id at hid
    rw [table_setTable hplaced] at hid
    by_cases hother : other = place
    · rw [if_pos hother] at hid
      by_cases hkey : key' = key
      · rw [hkey, InsertionMap.get_set_self] at hid
        obtain rfl := Option.some.inj hid
        exact ⟨_, hnew, hother.symm, hkey.symm, rfl⟩
      · rw [InsertionMap.get_set_of_ne _ hkey, ← hother] at hid
        obtain ⟨flight, hflight, hrest⟩ := h.registered other key' id hid
        exact ⟨flight, hkeep id flight hflight, hrest⟩
    · rw [if_neg hother] at hid
      obtain ⟨flight, hflight, hrest⟩ := h.registered other key' id hid
      exact ⟨flight, hkeep id flight hflight, hrest⟩
  · intro id flight hflight hleader hopen
    change (s.setTable _ _).live flight.place = true at hopen
    change ((s.setTable _ _).table flight.place).get flight.key = some id
    rw [table_setTable hplaced]
    rcases hold id flight hflight with ⟨rfl, rfl⟩ | hflight
    · rw [if_pos rfl, InsertionMap.get_set_self]
    · rw [live_setTable] at hopen
      have hkept := h.kept id flight hflight hleader hopen
      by_cases hother : flight.place = place
      · rw [hother] at hkept
        rw [if_pos hother, InsertionMap.get_set_of_ne]
        · exact hkept
        · intro heq
          rw [heq, hget] at hkept
          cases hkept
      · rw [if_neg hother]
        exact hkept
  · intro id flight hflight
    have hknown := known_setTable (s := s) place ((s.table place).set key s.flights.length)
    rcases hold id flight hflight with ⟨rfl, rfl⟩ | hflight
    · exact ⟨(hknown place).mpr hplaced, rfl, hunborn.1.symm, hunborn.2⟩
    · have hrecorded := h.recorded id flight hflight
      exact { hrecorded with known := (hknown _).mpr hrecorded.known }
  · intro id hid
    change (s.flights ++ [_]).length ≤ id at hid
    rw [List.length_append, List.length_singleton] at hid
    exact h.unborn id (by omega)

theorem enter_direct (h : s.live place = false) (key : K) (started : ℕ) :
    s.enter place key started = (.direct, s) := by
  rw [State.enter, h, if_neg Bool.false_ne_true]

theorem enter_live (h : s.live place = true) (key : K) (started : ℕ) :
    ∃ id, ((s.enter place key started).2.table place).get key = some id ∧
      ((s.enter place key started).1 = .joined id ∨ (s.enter place key started).1 = .leads id) := by
  rw [State.enter, if_pos h]
  cases hget : (s.table place).get key with
  | some id => exact ⟨id, hget, .inl rfl⟩
  | none =>
    refine ⟨s.flights.length, ?_, .inr rfl⟩
    change ((s.setTable _ _).table place).get key = _
    rw [table_setTable (known_of_live h), if_pos rfl, InsertionMap.get_set_self]

theorem get_of_joined {started : ℕ} (h : (s.enter place key started).1 = .joined id) :
    (s.table place).get key = some id := by
  rw [State.enter] at h
  split at h
  · cases hget : (s.table place).get key with
    | some id' =>
      rw [hget] at h
      rw [Entry.joined.inj h]
    | none =>
      rw [hget] at h
      cases h
  · cases h

theorem Inv.enter (h : Inv history s) (place : Place) (key : K) (started : ℕ) :
    Inv (.enter place key (s.enter place key started).1 :: history)
      (s.enter place key started).2 := by
  cases hlive : s.live place with
  | false =>
    rw [enter_direct hlive]
    exact { h with recorded := fun id flight hflight => { h.recorded id flight hflight with } }
  | true =>
    rw [State.enter, if_pos hlive]
    cases hget : (s.table place).get key with
    | some id => exact h.join hget
    | none => exact h.lead started hlive hget

theorem inv_step {s' : State K ε V} (h : Inv history s) (hstep : Step s e s') :
    Inv (e :: history) s' := by
  cases hstep with
  | «open» => exact h.openOwner
  | close known => exact h.close _
  | enter place key started => exact h.enter place key started
  | ended found running ending => exact h.ended found running ending
  | unregister found leader => exact h.unregister found leader
  | settle found leader => exact (h.settle found leader).2

theorem inv_of_run (h : Run history s) : Inv history s := by
  induction h with
  | start => exact inv_empty
  | step _ hstep ih => exact inv_step ih hstep

/-- An owner that was closed stays closed. -/
theorem closed_step {s' : State K ε V} (hstep : Step s e s')
    (h : s.Known place ∧ s.live place = false) : s'.Known place ∧ s'.live place = false := by
  cases hstep with
  | «open» =>
    rw [live_openOwner h.1]
    exact ⟨known_openOwner h.1, h.2⟩
  | close known =>
    rw [known_close, (close_eq _ _).2]
    refine ⟨h.1, ?_⟩
    split
    · rfl
    · exact h.2
  | enter other key started =>
    rw [State.enter]
    split
    · split
      · exact h
      · exact ⟨(known_setTable _ _ _).mpr h.1, (live_setTable _ _ _).trans h.2⟩
    · exact h
  | ended found running ending => exact h
  | unregister found leader =>
    obtain ⟨-, hlive, hknown⟩ := unregister_eq s _ _ _
    exact ⟨(hknown place).mpr h.1, (hlive place).trans h.2⟩
  | settle found leader => exact h

theorem closed_of_run (h : Run history s) {owner : ℕ} (hclose : .close owner ∈ history) :
    s.Known (.request owner) ∧ s.live (.request owner) = false := by
  induction h with
  | start => cases hclose
  | @step _ s _ _ past hstep ih =>
    rcases List.mem_cons.mp hclose with rfl | hclose
    · cases hstep with
      | close known => exact ⟨(known_close owner _).mpr known, (close_eq owner _).2.trans (if_pos rfl)⟩
    · exact closed_step hstep (ih hclose)

/-! ### The law of the flights -/

/-- What holds of the flights after a history. -/
structure FlightLaw (history : List (Event K ε V)) (s : State K ε V) : Prop where
  settledOnce : ∀ (id : ℕ) flight, s.flights[id]? = some flight →
    flight.result = flight.leader.outcome ∧
      settlements history id = if flight.leader.outcome.isSome then [true] else []
  progress : ∀ (id : ℕ) flight ending, s.flights[id]? = some flight →
    (flight.leader = .ended ending → ∃ s', Step s (.unregister id) s') ∧
      (flight.leader = .unregistered ending → ∃ s', Step s (.settle id true) s')
  unsettled : ∀ place key id, (s.table place).get key = some id →
    ∃ flight, s.flights[id]? = some flight ∧ flight.result = none ∧
      flight.leader.isRegistered = true
  joinsUnsettled : ∀ place key id s', Step s (.enter place key (.joined id)) s' →
    ∃ flight, s.flights[id]? = some flight ∧ flight.place = place ∧ flight.key = key ∧
      flight.result = none ∧ flight.leader.isRegistered = true
  ownOnly : ∀ id s', Step s (.unregister id) s' → ∀ place key other, other ≠ id →
    (s.table place).get key = some other → (s'.table place).get key = some other
  closed : ∀ owner, .close owner ∈ history → s.live (.request owner) = false
  direct : ∀ owner key entry s', s.live (.request owner) = false →
    Step s (.enter (.request owner) key entry) s' → entry = .direct ∧ s' = s
  taken : ∀ place key entry s', s.live place = true → Step s (.enter place key entry) s' →
    ∃ id, (s'.table place).get key = some id ∧ (entry = .joined id ∨ entry = .leads id)
  followers : ∀ nowMs, (coalescingState s nowMs).activeFollowers =
    ((s.process.entries.map Prod.snd).map (joins history)).sum

theorem outcome_of_isRegistered {leader : Leader ε V} (h : leader.isRegistered = true) :
    leader.outcome = none := by
  cases leader with
  | running => rfl
  | ended ending => rfl
  | unregistered ending => rfl
  | settled ending => cases h

theorem Inv.followers_eq (h : Inv history s) {ids : List ℕ}
    (hids : ∀ id ∈ ids, ∃ flight, s.flights[id]? = some flight) :
    (ids.filterMap fun id => s.flights[id]?).map Flight.followers = ids.map (joins history) := by
  induction ids with
  | nil => rfl
  | cons id ids ih =>
    obtain ⟨flight, hflight⟩ := hids id List.mem_cons_self
    rw [List.filterMap_cons_some hflight, List.map_cons, List.map_cons,
      (h.recorded id flight hflight).followers, ih fun j hj => hids j (List.mem_cons_of_mem id hj)]

end Invariant

end DialCache.SingleFlights
