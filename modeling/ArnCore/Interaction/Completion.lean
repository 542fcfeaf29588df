import ArnCore.Interaction.Threads
import Mathlib.Algebra.BigOperators.Group.Finset.Basic
import Mathlib.Logic.Hydra
import Mathlib.Order.WellFounded

/-!
# Calls that are brought to their end

A program is a well-founded tree, so every operation brings its call nearer to
its end.  Finitely many calls therefore come to an end in every interleaving in
which no further call is made; where in addition some thread can always go on,
all calls return.
-/

namespace ArnCore.Interaction

variable {signature : Signature} {Thread Call Value Shared : Type}

/-! ## What remains of a program -/

/-- What is left of a program after its next operation. -/
def Program.Remains (rest program : Program signature Value) : Prop :=
  ∃ op next, program = .call op next ∧ ∃ answer, rest = next answer

theorem Program.wellFounded_remains :
    WellFounded (@Program.Remains signature Value) := by
  constructor
  intro program
  induction program with
  | done value =>
      constructor
      rintro rest ⟨op, next, ⟨⟩, -⟩
  | call op next induction =>
      constructor
      rintro rest ⟨other, continued, same, answer, rfl⟩
      cases same
      exact induction answer

namespace Threads

/-! ## Threads inside a call -/

/-- Only these threads are inside a call. -/
def BusyIn (threads : Finset Thread)
    (system : Threads Thread Value Shared signature) : Prop :=
  ∀ thread, system.running thread ≠ none → thread ∈ threads

/-- What remains of the calls of some threads. -/
def remaining (threads : Finset Thread)
    (system : Threads Thread Value Shared signature) :
    Multiset (Program signature Value) :=
  ∑ thread ∈ threads, (system.running thread).elim 0 fun rest => {rest}

variable [DecidableEq Thread] {worlds : Thread → World signature Shared}
  {program : Call → Program signature Value} {shared : Shared}
  {log : List (ThreadEvent Thread Call Value signature)}
  {system : Threads Thread Value Shared signature}

/-- A step of a thread inside a call. -/
def Advances (worlds : Thread → World signature Shared)
    (program : Call → Program signature Value)
    (after before : Threads Thread Value Shared signature) : Prop :=
  ∃ event, Step worlds program before event after ∧
    before.running event.thread ≠ none

/-- A thread inside a call does not start another one. -/
theorem Step.not_calls
    {before after : Threads Thread Value Shared signature}
    {event : ThreadEvent Thread Call Value signature}
    (step : Step worlds program before event after)
    (inCall : before.running event.thread ≠ none)
    (thread : Thread) (call : Call) : event ≠ .calls thread call := by
  rintro rfl
  cases step with
  | calls _ _ idle => exact inCall idle

theorem Advances.busyIn
    {threads : Finset Thread}
    {after before : Threads Thread Value Shared signature}
    (advances : Advances worlds program after before)
    (busy : BusyIn threads before) : BusyIn threads after := by
  obtain ⟨event, step, inCall⟩ := advances
  intro thread running
  by_cases own : thread = event.thread
  · rw [own]
    exact busy event.thread inCall
  · rw [step.running_of_ne own] at running
    exact busy thread running

/-- A thread that advances has less to do than before. -/
theorem Advances.remaining
    {threads : Finset Thread}
    {after before : Threads Thread Value Shared signature}
    (advances : Advances worlds program after before)
    (busy : BusyIn threads before) :
    Relation.CutExpand Program.Remains (remaining threads after)
      (remaining threads before) := by
  obtain ⟨event, step, inCall⟩ := advances
  have member := busy event.thread inCall
  have others :
      (∑ thread ∈ threads.erase event.thread,
        (after.running thread).elim 0 fun rest => {rest}) =
        ∑ thread ∈ threads.erase event.thread,
          ((before.running thread).elim 0 fun rest => {rest} :
            Multiset (Program signature Value)) := by
    refine Finset.sum_congr rfl fun thread other => ?_
    rw [step.running_of_ne (Finset.ne_of_mem_erase other)]
  unfold Threads.remaining
  rw [← Finset.add_sum_erase _ _ member, ← Finset.add_sum_erase _ _ member,
    others, Relation.cutExpand_add_right]
  cases step with
  | calls thread call idle => exact absurd idle inCall
  | performs thread runs performed =>
      simp only [ThreadEvent.thread, Function.update_self, runs,
        Option.elim_some]
      exact Relation.cutExpand_singleton_singleton
        ⟨_, _, rfl, _, rfl⟩
  | returns thread runs =>
      simp only [ThreadEvent.thread, Function.update_self, runs,
        Option.elim_some, Option.elim_none]
      exact Relation.cutExpand_zero

/-- Finitely many calls come to an end when no further call is made. -/
theorem acc_advances
    {threads : Finset Thread} (busy : BusyIn threads system) :
    Acc (Advances worlds program) system := by
  have ends := Program.wellFounded_remains.cutExpand.apply
    (remaining threads system)
  generalize left : remaining threads system = measure at ends
  induction ends generalizing system with
  | intro measure _ induction =>
      subst left
      constructor
      intro after advances
      exact induction _ (advances.remaining busy) (advances.busyIn busy) rfl

/-- In an execution finitely many threads have made a call. -/
theorem busyIn_of_execution
    (execution : Execution (Step worlds program) (idle shared) log system) :
    BusyIn (log.map ThreadEvent.thread).toFinset system := by
  induction execution with
  | start => exact fun thread running => absurd rfl running
  | @extend log before after event past last induction =>
      intro thread running
      rw [List.map_append, List.toFinset_append, Finset.mem_union]
      by_cases own : thread = event.thread
      · exact Or.inr (by simp [own])
      · rw [last.running_of_ne own] at running
        exact Or.inl (induction thread running)

/-- No execution goes on for ever without a further call. -/
theorem not_endless
    (execution : Execution (Step worlds program) (idle shared) log system) :
    ¬ ∃ later : ℕ → Threads Thread Value Shared signature,
      later 0 = system ∧
        ∀ n, Advances worlds program (later (n + 1)) (later n) := by
  rintro ⟨later, rfl, advances⟩
  have ends : Acc (Advances worlds program) (later 0) :=
    acc_advances (busyIn_of_execution execution)
  refine not_acc_iff_exists_descending_chain.mpr ⟨later, rfl, ?_⟩ ends
  exact advances

/-- Where some thread can always go on, all calls can be brought to return. -/
theorem completes
    (progress : ∀ log system,
      Execution (Step worlds program) (idle shared) log system →
        ∀ thread, system.running thread ≠ none →
          ∃ after, Advances worlds program after system)
    (execution : Execution (Step worlds program) (idle shared) log system) :
    ∃ more after,
      Execution (Step worlds program) (idle shared) (log ++ more) after ∧
        (∀ thread call, .calls thread call ∉ more) ∧
        ∀ thread, after.running thread = none := by
  have ends : Acc (Advances worlds program) system :=
    acc_advances (busyIn_of_execution execution)
  induction ends generalizing log with
  | intro system _ induction =>
      by_cases done : ∀ thread, system.running thread = none
      · exact ⟨[], system, by rwa [List.append_nil], by simp, done⟩
      · obtain ⟨thread, inCall⟩ := not_forall.mp done
        obtain ⟨next, event, step, running⟩ :=
          progress log system execution thread inCall
        obtain ⟨more, after, reached, uncalled, idle⟩ :=
          induction next ⟨event, step, running⟩ (execution.extend step)
        refine ⟨event :: more, after, ?_, ?_, idle⟩
        · rwa [List.append_assoc, List.singleton_append] at reached
        · intro other call member
          rcases List.mem_cons.mp member with same | later
          · exact step.not_calls running other call same.symm
          · exact uncalled other call later

end Threads

end ArnCore.Interaction
