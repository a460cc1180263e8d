import Mathlib.Init

/-!
# Programs that write a log

Programs that may fail and that append to a log. What is said of a program is that it does not
fail, with a postcondition on its result and on the part of the log that it has written.
-/

namespace DialCache.LoggedPrograms

variable {ε χ α β : Type}

abbrev Logged (ε χ : Type) := StateT (List ε) (Except χ)

/-- Append one entry, which may depend on what was written before. -/
def write (f : List ε → ε × α) : Logged ε χ α := fun log => .ok ((f log).2, log ++ [(f log).1])

/-- The program does not fail, and its result and what it writes meet the postcondition. -/
def Completes (program : Logged ε χ α) (post : α → List ε → Prop) : Prop :=
  ∀ log, ∃ result written, program log = .ok (result, log ++ written) ∧ post result written

namespace Completes

variable {program : Logged ε χ α} {post post' : α → List ε → Prop}

theorem mono (h : Completes program post) (himp : ∀ result written, post result written →
    post' result written) : Completes program post' := by
  intro log
  obtain ⟨result, written, hrun, hpost⟩ := h log
  exact ⟨result, written, hrun, himp result written hpost⟩

theorem pure {a : α} (h : post a []) : Completes (Pure.pure a : Logged ε χ α) post := by
  intro log
  refine ⟨a, [], ?_, h⟩
  rw [List.append_nil]
  rfl

theorem bind {next : α → Logged ε χ β} {last : β → List ε → Prop} (h : Completes program post)
    (hnext : ∀ a written, post a written →
      Completes (next a) fun b more => last b (written ++ more)) :
    Completes (program >>= next) last := by
  intro log
  obtain ⟨a, written, hrun, hpost⟩ := h log
  obtain ⟨b, more, hmore, hlast⟩ := hnext a written hpost (log ++ written)
  refine ⟨b, written ++ more, ?_, hlast⟩
  rw [← List.append_assoc, ← hmore]
  change (program log >>= fun p => next p.1 p.2) = _
  rw [hrun]
  rfl

/-- A computation that does not fail and writes nothing, and the program after it. -/
theorem lift_bind {computation : Except χ α} {a : α} {next : α → Logged ε χ β}
    {last : β → List ε → Prop} (hok : computation = .ok a) (h : Completes (next a) last) :
    Completes ((liftM computation : Logged ε χ α) >>= next) last := by
  rw [hok]
  exact h

theorem write {f : List ε → ε × α} (h : ∀ log, post (f log).2 [(f log).1]) :
    Completes (LoggedPrograms.write f : Logged ε χ α) post :=
  fun log => ⟨_, _, rfl, h log⟩

end Completes

end DialCache.LoggedPrograms
