import Mathlib.Data.List.Basic

/-!
# Effectful programs and monitors

A program is a tree of operations: it returns, throws, or performs an operation and goes
on with the answer. Asynchronous functions are such programs, with the operations whose
answer they await among the others. A monitor watches one program: it folds the
operations and answers into a state and says which operation that state allows. The
weakest precondition `wp` runs a monitor along every path of a program.
-/

namespace DialCache.AsyncPrograms

variable {Op : Type} {Ans : Op → Type} {ε δ α β H : Type}

inductive Program (Op : Type) (Ans : Op → Type) (ε α : Type) where
  | ret (a : α)
  | fail (e : ε)
  | op (o : Op) (next : Ans o → Program Op Ans ε α)

namespace Program

def bind : Program Op Ans ε α → (α → Program Op Ans ε β) → Program Op Ans ε β
  | .ret a, f => f a
  | .fail e, _ => .fail e
  | .op o next, f => .op o fun a => (next a).bind f

/-- Run a program and hand its outcome over as a value. -/
def attempt : Program Op Ans ε α → Program Op Ans δ (Except ε α)
  | .ret a => .ret (.ok a)
  | .fail e => .ret (.error e)
  | .op o next => .op o fun a => (next a).attempt

def ofExcept : Except ε α → Program Op Ans ε α
  | .ok a => .ret a
  | .error e => .fail e

instance : Monad (Program Op Ans ε) where
  pure := .ret
  bind := bind

instance : MonadExceptOf ε (Program Op Ans ε) where
  throw := .fail
  tryCatch p handler := p.attempt.bind fun
    | .ok a => .ret a
    | .error e => handler e

/-- `try p finally q`: `q` runs after `p` whether `p` returns or throws. -/
def andFinally (p : Program Op Ans ε α) (q : Program Op Ans ε Unit) : Program Op Ans ε α :=
  p.attempt.bind fun r => q.bind fun _ => ofExcept r

/-- Perform one operation. -/
def perform (o : Op) : Program Op Ans ε (Ans o) := .op o .ret

end Program

/-- An operation performed, with its answer. -/
structure Event (Op : Type) (Ans : Op → Type) where
  op : Op
  answer : Ans op

/-- The complete runs of a program, for every choice of answers. -/
inductive Runs : Program Op Ans ε α → List (Event Op Ans) → Except ε α → Prop where
  | ret (a : α) : Runs (.ret a) [] (.ok a)
  | fail (e : ε) : Runs (.fail e) [] (.error e)
  | op {o : Op} {next : Ans o → Program Op Ans ε α} {events : List (Event Op Ans)}
      {r : Except ε α} (a : Ans o) (rest : Runs (next a) events r) :
      Runs (.op o next) (⟨o, a⟩ :: events) r

/-- The run in which every operation is answered by `oracle`. -/
def Program.runWith (oracle : (o : Op) → Ans o) :
    Program Op Ans ε α → List (Event Op Ans) × Except ε α
  | .ret a => ([], .ok a)
  | .fail e => ([], .error e)
  | .op o next =>
    let rest := (next (oracle o)).runWith oracle
    (⟨o, oracle o⟩ :: rest.1, rest.2)

theorem runs_runWith (oracle : (o : Op) → Ans o) (p : Program Op Ans ε α) :
    Runs p (p.runWith oracle).1 (p.runWith oracle).2 := by
  induction p with
  | ret a => exact .ret a
  | fail e => exact .fail e
  | op o next ih => exact .op (oracle o) (ih (oracle o))

variable {p : Program Op Ans ε α}

theorem answer_of_runWith {oracle : (o : Op) → Ans o} {e : Event Op Ans}
    (h : e ∈ (p.runWith oracle).1) : e.answer = oracle e.op := by
  induction p with
  | ret a => cases h
  | fail e => cases h
  | op o next ih =>
    rcases List.mem_cons.mp h with rfl | h
    · rfl
    · exact ih _ h

structure Monitor (Op : Type) (Ans : Op → Type) (H : Type) where
  allows : H → Op → Prop
  track : H → (o : Op) → Ans o → H

def Monitor.follow (M : Monitor Op Ans H) (h : H) (events : List (Event Op Ans)) : H :=
  events.foldl (fun h e => M.track h e.op e.answer) h

/-- Every operation `p` performs from monitor state `h` on is allowed, and every outcome
satisfies `Q` in the monitor state then reached. -/
def wp (M : Monitor Op Ans H) : Program Op Ans ε α → (Except ε α → H → Prop) → H → Prop
  | .ret a, Q, h => Q (.ok a) h
  | .fail e, Q, h => Q (.error e) h
  | .op o next, Q, h => M.allows h o ∧ ∀ a, wp M (next a) Q (M.track h o a)

variable {M : Monitor Op Ans H}

@[simp] theorem wp_pure (a : α) (Q : Except ε α → H → Prop) (h : H) :
    wp M (pure a : Program Op Ans ε α) Q h ↔ Q (.ok a) h := Iff.rfl

@[simp] theorem wp_throw (e : ε) (Q : Except ε α → H → Prop) (h : H) :
    wp M (throw e : Program Op Ans ε α) Q h ↔ Q (.error e) h := Iff.rfl

@[simp] theorem wp_ofExcept (r : Except ε α) (Q : Except ε α → H → Prop) (h : H) :
    wp M (Program.ofExcept r) Q h ↔ Q r h := by
  cases r <;> rfl

variable {Q : Except ε α → H → Prop} {h : H}

theorem wp_mono {R : Except ε α → H → Prop} (hp : wp M p Q h) (hqr : ∀ r h', Q r h' → R r h') :
    wp M p R h := by
  induction p generalizing h with
  | ret a => exact hqr _ _ hp
  | fail e => exact hqr _ _ hp
  | op o next ih => exact ⟨hp.1, fun a => ih a (hp.2 a)⟩

/-- Continue a postcondition through the rest of a sequence. -/
def thenWp (M : Monitor Op Ans H) (f : α → Program Op Ans ε β) (Q : Except ε β → H → Prop) :
    Except ε α → H → Prop
  | .ok a, h => wp M (f a) Q h
  | .error e, h => Q (.error e) h

@[simp] theorem thenWp_ok (f : α → Program Op Ans ε β) (Q : Except ε β → H → Prop) (a : α)
    (h : H) : thenWp M f Q (.ok a) h ↔ wp M (f a) Q h := Iff.rfl

@[simp] theorem thenWp_error (f : α → Program Op Ans ε β) (Q : Except ε β → H → Prop) (e : ε)
    (h : H) : thenWp M f Q (.error e) h ↔ Q (.error e) h := Iff.rfl

theorem wp_programBind (p : Program Op Ans ε α) (f : α → Program Op Ans ε β)
    (Q : Except ε β → H → Prop) (h : H) :
    wp M (p.bind f) Q h ↔ wp M p (thenWp M f Q) h := by
  induction p generalizing h with
  | ret a => rfl
  | fail e => rfl
  | op o next ih => exact and_congr_right fun _ => forall_congr' fun a => ih a _

@[simp] theorem wp_bind (p : Program Op Ans ε α) (f : α → Program Op Ans ε β)
    (Q : Except ε β → H → Prop) (h : H) :
    wp M (p >>= f) Q h ↔ wp M p (thenWp M f Q) h :=
  wp_programBind p f Q h

@[simp] theorem wp_attempt (p : Program Op Ans ε α) (Q : Except δ (Except ε α) → H → Prop)
    (h : H) : wp M (p.attempt : Program Op Ans δ (Except ε α)) Q h ↔
      wp M p (fun r => Q (.ok r)) h := by
  induction p generalizing h with
  | ret a => rfl
  | fail e => rfl
  | op o next ih => exact and_congr_right fun _ => forall_congr' fun a => ih a _

/-- Continue a postcondition through an error handler. -/
def catchWp (M : Monitor Op Ans H) (handler : ε → Program Op Ans ε α)
    (Q : Except ε α → H → Prop) : Except ε α → H → Prop
  | .ok a, h => Q (.ok a) h
  | .error e, h => wp M (handler e) Q h

@[simp] theorem catchWp_ok (handler : ε → Program Op Ans ε α) (Q : Except ε α → H → Prop) (a : α)
    (h : H) : catchWp M handler Q (.ok a) h ↔ Q (.ok a) h := Iff.rfl

@[simp] theorem catchWp_error (handler : ε → Program Op Ans ε α) (Q : Except ε α → H → Prop)
    (e : ε) (h : H) : catchWp M handler Q (.error e) h ↔ wp M (handler e) Q h := Iff.rfl

@[simp] theorem wp_tryCatch (p : Program Op Ans ε α) (handler : ε → Program Op Ans ε α)
    (Q : Except ε α → H → Prop) (h : H) :
    wp M (tryCatch p handler) Q h ↔ wp M p (catchWp M handler Q) h := by
  change wp M (p.attempt.bind _) Q h ↔ _
  rw [wp_programBind, wp_attempt]
  constructor <;> intro hp <;> refine wp_mono hp ?_ <;> intro r h' hr <;> cases r <;> exact hr

/-- Continue a postcondition through a `finally` block. -/
def finallyWp (M : Monitor Op Ans H) (q : Program Op Ans ε Unit) (Q : Except ε α → H → Prop)
    (r : Except ε α) (h : H) : Prop :=
  wp M q (thenWp M (fun _ => Program.ofExcept r) Q) h

@[simp] theorem finallyWp_iff (q : Program Op Ans ε Unit) (Q : Except ε α → H → Prop)
    (r : Except ε α) (h : H) :
    finallyWp M q Q r h ↔ wp M q (thenWp M (fun _ => Program.ofExcept r) Q) h := Iff.rfl

@[simp] theorem wp_andFinally (p : Program Op Ans ε α) (q : Program Op Ans ε Unit)
    (Q : Except ε α → H → Prop) (h : H) :
    wp M (p.andFinally q) Q h ↔ wp M p (finallyWp M q Q) h := by
  rw [Program.andFinally, wp_programBind, wp_attempt]
  constructor <;> intro hp <;> refine wp_mono hp ?_ <;> intro r h' hr
  · exact (wp_programBind _ _ _ _).mp hr
  · exact (wp_programBind _ _ _ _).mpr hr

@[simp] theorem wp_ite (c : Prop) [Decidable c] (p q : Program Op Ans ε α)
    (Q : Except ε α → H → Prop) (h : H) :
    wp M (if c then p else q) Q h ↔ (c → wp M p Q h) ∧ (¬ c → wp M q Q h) := by
  by_cases hc : c <;> simp [hc]

/-- The weakest precondition speaks about every complete run. -/
theorem wp_sound {events : List (Event Op Ans)} {r : Except ε α} (hp : wp M p Q h)
    (hr : Runs p events r) : Q r (M.follow h events) := by
  induction hr generalizing h with
  | ret a => exact hp
  | fail e => exact hp
  | op a rest ih => exact ih (hp.2 a)

/-- Along a run, every operation is allowed in the state the monitor has then reached. -/
theorem wp_allows {before after : List (Event Op Ans)} {e : Event Op Ans} {r : Except ε α}
    (hp : wp M p Q h) (hr : Runs p (before ++ e :: after) r) :
    M.allows (M.follow h before) e.op := by
  induction before generalizing p h with
  | nil =>
    cases hr with
    | op a rest => exact hp.1
  | cons first before ih =>
    cases hr with
    | op a rest => exact ih (hp.2 a) rest

/-- The monitor that keeps everything. -/
def tracker : Monitor Op Ans (List (Event Op Ans)) where
  allows _ _ := True
  track past o a := past ++ [⟨o, a⟩]

theorem follow_tracker (past events : List (Event Op Ans)) :
    tracker.follow past events = past ++ events := by
  induction events generalizing past with
  | nil => simp [Monitor.follow]
  | cons e events ih =>
    have h := ih (past ++ [e])
    rw [List.append_assoc, List.singleton_append] at h
    exact h

end DialCache.AsyncPrograms
