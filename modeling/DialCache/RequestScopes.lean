import DialCache.CacheOperations
import Mathlib.Data.List.Induction

/-!
# Request scopes

`DialCacheContext` and the request-local caches of its scopes, under every order of nested,
concurrent and detached work.
-/

namespace DialCache.RequestScopes

open CacheKeys CacheOperations

variable {V : Type}

structure RequestLocalCache (V : Type) where
  values : JsString → Option V
  closed : Bool

namespace RequestLocalCache

def empty : RequestLocalCache V := ⟨fun _ => none, false⟩

def read (cache : RequestLocalCache V) (key : JsString) : Option V :=
  if cache.closed then none else cache.values key

def set (cache : RequestLocalCache V) (key : JsString) (value : V) : RequestLocalCache V :=
  if cache.closed then cache
  else { cache with values := fun k => if k = key then some value else cache.values k }

/-- What `close` leaves behind. -/
def close : RequestLocalCache V := ⟨fun _ => none, true⟩

theorem read_set (cache : RequestLocalCache V) (key k : JsString) (value : V) :
    (cache.set key value).read k =
      if cache.closed = false ∧ k = key then some value else cache.read k := by
  cases hclosed : cache.closed <;> simp [set, read, hclosed]

end RequestLocalCache

structure RequestHolder where
  closed : Bool
  requestLocalCache : Option ℕ

/-- Holders and caches are named in the order of their creation; `owners` lists the holders
that the caches were created for. -/
structure Scopes (V : Type) where
  holders : List RequestHolder
  owners : List ℕ
  caches : ℕ → RequestLocalCache V

/-- One step of some task, in whatever context and with whatever cache it holds. -/
inductive Action (V : Type) where
  | enable (store : Option ContextStore)
  | settle (holder : ℕ)
  | getOrCreate (store : Option ContextStore)
  | set (memo : ℕ) (key : JsString) (value : V)

namespace Scopes

variable (s : Scopes V)

def live (holder : ℕ) : Bool := s.holders[holder]?.any fun h => !h.closed

def liveHolder (store : Option ContextStore) : Option ℕ :=
  (store.bind (·.holder)).filter s.live

def isEnabled : Option ContextStore → Bool
  | some ⟨true, some holder⟩ => s.live holder
  | _ => false

/-- The store of the callback, and the holder made for an outermost scope. -/
def enable (store : Option ContextStore) : ContextStore × Scopes V :=
  match s.liveHolder store with
  | some holder => (⟨true, some holder⟩, s)
  | none => (⟨true, some s.holders.length⟩, { s with holders := s.holders ++ [⟨false, none⟩] })

def disable (store : Option ContextStore) : ContextStore :=
  ⟨false, s.liveHolder store⟩

/-- The `finally` block of an outermost scope. -/
def settle (holder : ℕ) : Scopes V where
  holders := s.holders.set holder ⟨true, none⟩
  owners := s.owners
  caches memo :=
    if s.holders[holder]?.bind (·.requestLocalCache) = some memo then .close else s.caches memo

/-- `holder.requestLocalCache ??= new RequestLocalCache()`, where there is none. -/
def create (holder : ℕ) : Scopes V where
  holders := s.holders.set holder ⟨false, some s.owners.length⟩
  owners := s.owners ++ [holder]
  caches memo := if memo = s.owners.length then .empty else s.caches memo

def getOrCreateRequestLocalCache : Option ContextStore → Option ℕ × Scopes V
  | some ⟨true, some holder⟩ =>
    match s.holders[holder]? with
    | some ⟨false, some memo⟩ => (some memo, s)
    | some ⟨false, none⟩ => (some s.owners.length, s.create holder)
    | _ => (none, s)
  | _ => (none, s)

def step : Action V → Scopes V
  | .enable store => (s.enable store).2
  | .settle holder => s.settle holder
  | .getOrCreate store => (s.getOrCreateRequestLocalCache store).2
  | .set memo key value =>
    { s with caches := fun m => if m = memo then (s.caches m).set key value else s.caches m }

def run (actions : List (Action V)) : Scopes V := actions.foldl step ⟨[], [], fun _ => .empty⟩

/-- A cache is attached to the holder it was created for until both are closed. -/
structure Lawful (s : Scopes V) : Prop where
  owned : ∀ m h : ℕ, s.owners[m]? = some h →
    s.holders[h]? = some (if (s.caches m).closed then ⟨true, none⟩ else ⟨false, some m⟩)
  attached : ∀ h m : ℕ, s.holders[h]?.bind (·.requestLocalCache) = some m → s.owners[m]? = some h
  nodup : s.owners.Nodup

variable {s : Scopes V} {actions : List (Action V)} {m holder : ℕ} {key : JsString} {value : V}

/-- What `getOrCreateRequestLocalCache` can do. -/
theorem getOrCreate_cases (s : Scopes V) (store : Option ContextStore) :
    (s.getOrCreateRequestLocalCache store).2 = s ∨ ∃ holder,
      s.holders[holder]? = some ⟨false, none⟩ ∧
      (s.getOrCreateRequestLocalCache store).2 = s.create holder := by
  unfold getOrCreateRequestLocalCache
  split
  · split
    · exact .inl rfl
    · exact .inr ⟨_, ‹_›, rfl⟩
    · exact .inl rfl
  · exact .inl rfl

theorem Lawful.settle (h : s.Lawful) (holder : ℕ) : (s.settle holder).Lawful := by
  obtain ⟨owned, attached, nodup⟩ := h
  refine ⟨fun m h' hm => ?_, fun h' m hh => ?_, nodup⟩
  · have howned := owned m h' hm
    have hattached := attached holder m
    grind [Scopes.settle, RequestLocalCache.close]
  · have hattached := attached h' m
    grind [Scopes.settle]

theorem Lawful.create (h : s.Lawful)
    (hholder : s.holders[holder]? = some ⟨false, none⟩) : (s.create holder).Lawful := by
  obtain ⟨owned, attached, nodup⟩ := h
  have hnew : holder ∉ s.owners := by
    intro hmem
    obtain ⟨m, hm⟩ := List.getElem?_of_mem hmem
    have howned := owned m holder hm
    grind
  refine ⟨?_, ?_, ?_⟩ <;> grind [Scopes.create, RequestLocalCache.empty]

theorem Lawful.step (h : s.Lawful) (action : Action V) : (s.step action).Lawful := by
  cases action with
  | enable store =>
    obtain ⟨owned, attached, nodup⟩ := h
    simp only [Scopes.step, enable]
    split
    · exact ⟨owned, attached, nodup⟩
    · refine ⟨?_, ?_, nodup⟩ <;> grind
  | settle holder => exact h.settle holder
  | getOrCreate store =>
    rw [Scopes.step]
    rcases s.getOrCreate_cases store with hs | ⟨holder, hholder, hs⟩
    · rwa [hs]
    · rw [hs]
      exact h.create hholder
  | set memo key value =>
    refine ⟨fun m h' hm => ?_, h.attached, h.nodup⟩
    have howned := h.owned m h' hm
    grind [Scopes.step, RequestLocalCache.set]

theorem run_append (actions later : List (Action V)) :
    run (actions ++ later) = later.foldl step (run actions) :=
  List.foldl_append

theorem lawful_run (actions : List (Action V)) : (run actions).Lawful := by
  induction actions using List.reverseRecOn with
  | nil => exact ⟨by simp [run], by simp [run], List.nodup_nil⟩
  | append_singleton actions action ih =>
    rw [run_append]
    exact ih.step action

/-- A value that a step leaves in a cache was there, or the step stored it in a live scope. -/
theorem read_step (h : s.Lawful) (action : Action V)
    (hread : ((s.step action).caches m).read key = some value)
    (howner : (s.step action).owners[m]? = some holder) :
    (action = .set m key value ∧ s.live holder = true) ∨
      ((s.caches m).read key = some value ∧ s.owners[m]? = some holder) := by
  cases action with
  | enable store =>
    simp only [Scopes.step, enable] at hread howner
    grind
  | settle holder =>
    grind [Scopes.step, Scopes.settle, RequestLocalCache.close, RequestLocalCache.read]
  | getOrCreate store =>
    rw [Scopes.step] at hread howner
    rcases s.getOrCreate_cases store with hs | ⟨holder, -, hs⟩
    · rw [hs] at hread howner
      exact .inr ⟨hread, howner⟩
    · grind [Scopes.create, RequestLocalCache.empty, RequestLocalCache.read]
  | set memo key' value' =>
    have howned := h.owned m holder howner
    grind [Scopes.step, Scopes.live, RequestLocalCache.read_set]

theorem live_step (action : Action V) (hknown : holder < s.holders.length)
    (hclosed : s.live holder = false) :
    holder < (s.step action).holders.length ∧ (s.step action).live holder = false := by
  cases action with
  | enable store =>
    simp only [Scopes.step, enable]
    grind [Scopes.live]
  | settle holder => grind [Scopes.step, Scopes.settle, Scopes.live]
  | getOrCreate store =>
    rw [Scopes.step]
    rcases s.getOrCreate_cases store with hs | ⟨holder', hlive, hs⟩
    · rw [hs]
      exact ⟨hknown, hclosed⟩
    · grind [Scopes.create, Scopes.live]
  | set memo key value => exact ⟨hknown, hclosed⟩

theorem live_foldl (later : List (Action V)) (hknown : holder < s.holders.length)
    (hclosed : s.live holder = false) : (later.foldl step s).live holder = false := by
  induction later generalizing s with
  | nil => exact hclosed
  | cons action later ih =>
    obtain ⟨hknown', hclosed'⟩ := live_step action hknown hclosed
    exact ih hknown' hclosed'

theorem stored_before (hread : ((run actions).caches m).read key = some value)
    (howner : (run actions).owners[m]? = some holder) : ∃ before after,
      actions = before ++ .set m key value :: after ∧ (run before).live holder = true := by
  induction actions using List.reverseRecOn with
  | nil => simp [run] at howner
  | append_singleton actions action ih =>
    rw [run_append] at hread howner
    rcases read_step (lawful_run actions) action hread howner with ⟨rfl, hlive⟩ | ⟨hread, howner⟩
    · exact ⟨actions, [], rfl, hlive⟩
    · obtain ⟨before, after, rfl, hlive⟩ := ih hread howner
      exact ⟨before, after ++ [action], by simp, hlive⟩

/-- What holds of the scopes after any sequence of steps. -/
structure Isolated (actions : List (Action V)) : Prop where
  memo : ∀ store m, ((run actions).getOrCreateRequestLocalCache store).1 = some m → ∃ holder,
    store = some ⟨true, some holder⟩ ∧ (run actions).live holder = true ∧
      (run (actions ++ [.getOrCreate store])).owners[m]? = some holder
  once : (run actions).owners.Nodup
  hit : ∀ m holder key value, ((run actions).caches m).read key = some value →
    (run actions).owners[m]? = some holder → (run actions).live holder = true ∧
      ∃ before after, actions = before ++ .set m key value :: after ∧ (run before).live holder = true
  nested : ∀ store holder, (run actions).liveHolder store = some holder →
    ((run actions).enable store).1 = ⟨true, some holder⟩ ∧
      (run actions).disable store = ⟨false, some holder⟩
  fresh : ∀ store, (run actions).liveHolder store = none → ∃ holder,
    ((run actions).enable store).1 = ⟨true, some holder⟩ ∧ holder ∉ (run actions).owners
  closed : ∀ holder enabled later, holder < (run actions).holders.length →
    (run actions).live holder = false →
    (run (actions ++ later)).isEnabled (some ⟨enabled, some holder⟩) = false ∧
      ((run (actions ++ later)).getOrCreateRequestLocalCache (some ⟨enabled, some holder⟩)).1 = none

/-- Requests share nothing through their scopes, whatever work outlives them. -/
theorem request_isolation (actions : List (Action V)) : Isolated actions := by
  have hlawful := lawful_run actions
  refine ⟨fun store m hm => ?_, hlawful.nodup, fun m holder key value hread howner =>
    ⟨?_, stored_before hread howner⟩, fun store holder h => ?_, fun store h => ?_,
    fun holder enabled later hknown hclosed => ?_⟩
  · have hattached := hlawful.attached
    rw [run_append, List.foldl_cons, List.foldl_nil, step]
    unfold getOrCreateRequestLocalCache at hm ⊢
    grind [create, live]
  · have howned := hlawful.owned m holder howner
    grind [live, RequestLocalCache.read]
  · simp [enable, disable, h]
  · refine ⟨(run actions).holders.length, by simp [enable, h], fun hmem => ?_⟩
    obtain ⟨m, hm⟩ := List.getElem?_of_mem hmem
    have howned := hlawful.owned m _ hm
    grind
  · have hlater := live_foldl later hknown hclosed
    rw [← run_append] at hlater
    cases enabled
    · exact ⟨rfl, rfl⟩
    · refine ⟨hlater, ?_⟩
      unfold getOrCreateRequestLocalCache
      grind [live]

end Scopes

end DialCache.RequestScopes
