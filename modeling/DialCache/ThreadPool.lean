import DialCache.AsyncPrograms

/-!
# Threads

A thread is an asynchronous call of a single-threaded event loop: it runs synchronously until it
awaits something. It acts on the shared state, calls other threads and awaits them.
-/

namespace DialCache.ThreadPool

open AsyncPrograms

/-- What threads do: operations on the shared state, calling and awaiting threads. -/
inductive PoolOp (Task SOp : Type) where
  | act (o : SOp)
  | spawn (task : Task)
  | join (thread : ℕ)

variable {Task SOp : Type}

@[reducible] def PoolAns (Ans : SOp → Type) (ε R : Type) : PoolOp Task SOp → Type
  | .act o => Ans o
  | .spawn _ => ℕ
  | .join _ => Except ε R

/-- The code of a thread. -/
abbrev Code (Task SOp : Type) (Ans : SOp → Type) (ε R α : Type) :=
  Program (PoolOp Task SOp) (PoolAns Ans ε R) ε α

/-- A thread that has settled, with what it was called for and what it did. -/
structure Thread (Task SOp : Type) (Ans : SOp → Type) (ε R : Type) where
  id : ℕ
  task : Task
  events : List (Event (PoolOp Task SOp) (PoolAns Ans ε R))
  outcome : Except ε R

/-- The threads that have settled in a run of an event loop, the last one first. Each ran its code,
whatever the shared state answered; what it awaited had settled, and a thread that it called does
what it was called for. -/
inductive Execution {Ans : SOp → Type} {ε R : Type} (body : Task → Code Task SOp Ans ε R R) :
    List (Thread Task SOp Ans ε R) → Prop where
  | nil : Execution body []
  | settle {past : List (Thread Task SOp Ans ε R)} {thread : Thread Task SOp Ans ε R}
      (h : Execution body past) (runs : Runs (body thread.task) thread.events thread.outcome)
      (joins : ∀ j r, ⟨.join j, r⟩ ∈ thread.events →
        ∃ other ∈ past, other.id = j ∧ other.outcome = r)
      (calls : ∀ task j, ⟨.spawn task, j⟩ ∈ thread.events →
        ∀ other ∈ past, other.id = j → other.task = task) :
      Execution body (thread :: past)

theorem Execution.runs {Ans : SOp → Type} {ε R : Type} {body : Task → Code Task SOp Ans ε R R}
    {threads : List (Thread Task SOp Ans ε R)} (h : Execution body threads) :
    ∀ thread ∈ threads, Runs (body thread.task) thread.events thread.outcome := by
  induction h with
  | nil => simp
  | settle _ runs _ _ ih => exact List.forall_mem_cons.mpr ⟨runs, ih⟩

end DialCache.ThreadPool
