import ArnCore.Interaction.Execution
import ArnCore.Interaction.SharedObject
import ArnCore.Interaction.Threads
import Mathlib.Data.List.Forall2

/-!
# Programs that are alike

Two programs are alike when they perform corresponding operations as long as
they receive corresponding answers, and return corresponding values.  Which
operations, answers and exceptions correspond is a parameter: what the relation
leaves out cannot be noticed by, or cannot be told from, the programs.

Alikeness is a congruence for everything actions are composed of.  A run of one
program is therefore matched by a run of every program that is like it.
-/

namespace ArnCore.Interaction

variable {signature : Signature} {Locals Inner Value Other Result Final : Type}

/-- Which operations, answers and exceptions of two programs correspond. -/
structure Likeness (signature : Signature) where
  ops : signature.Op → signature.Op → Prop
  answers : (op other : signature.Op) →
    signature.Answer op → signature.Answer other → Prop
  failures : Exception → Exception → Prop

namespace Likeness

/-- Operations that correspond and have received corresponding answers. -/
structure Events (likeness : Likeness signature)
    (event other : Event signature) : Prop where
  ops : likeness.ops event.op other.op
  answers : likeness.answers event.op other.op event.answer other.answer

/-- Nothing is told apart from itself, and no answers are confused. -/
structure Exact (likeness : Likeness signature) : Prop where
  ops : ∀ op, likeness.ops op op
  answers : ∀ op answer other,
    likeness.answers op op answer other → answer = other
  failures : ∀ failure, likeness.failures failure failure

/-- The same operations and answers, but nothing may be thrown. -/
def unfailing (likeness : Likeness signature) : Likeness signature :=
  { likeness with failures := fun _ _ => False }

/-- Every answer has a counterpart for the corresponding operation. -/
def Answerable (likeness : Likeness signature) : Prop :=
  ∀ op other answer, likeness.ops op other →
    ∃ reply, likeness.answers op other answer reply

/-- Both return corresponding values, or both throw corresponding exceptions. -/
inductive Outcomes (likeness : Likeness signature)
    (values : Value → Other → Prop) :
    Except Exception Value → Except Exception Other → Prop where
  | returns {value : Value} {other : Other} (alike : values value other) :
      Outcomes likeness values (.ok value) (.ok other)
  | throws {failure other : Exception}
      (alike : likeness.failures failure other) :
      Outcomes likeness values (.error failure) (.error other)

theorem Outcomes.refl
    {likeness : Likeness signature}
    (throws : ∀ failure, likeness.failures failure failure)
    (outcome : Except Exception Value) :
    likeness.Outcomes Eq outcome outcome := by
  cases outcome with
  | ok value => exact .returns rfl
  | error failure => exact .throws (throws failure)

theorem Outcomes.of_unfailing
    {likeness : Likeness signature} {values : Value → Other → Prop}
    {outcome : Except Exception Value} {other : Except Exception Other}
    (alike : likeness.unfailing.Outcomes values outcome other) :
    likeness.Outcomes values outcome other := by
  cases alike with
  | returns related => exact .returns related
  | throws impossible => exact impossible.elim

theorem Outcomes.exists_of_unfailing
    {likeness : Likeness signature} {outcome other : Except Exception Value}
    (alike : likeness.unfailing.Outcomes Eq outcome other) :
    ∃ value, outcome = .ok value ∧ other = .ok value := by
  cases alike with
  | @returns value other same => exact ⟨value, rfl, same ▸ rfl⟩
  | throws impossible => exact impossible.elim

end Likeness

/-! ## Programs -/

namespace Program

/-- Corresponding operations, and corresponding values at the end. -/
def Alike (likeness : Likeness signature) (values : Value → Other → Prop) :
    Program signature Value → Program signature Other → Prop
  | .done value, .done other => values value other
  | .call op next, .call other more =>
      likeness.ops op other ∧
        ∀ answer reply, likeness.answers op other answer reply →
          Alike likeness values (next answer) (more reply)
  | _, _ => False

namespace Alike

variable {likeness : Likeness signature} {values : Value → Other → Prop}

theorem mono
    {weaker : Value → Other → Prop}
    (implies : ∀ value other, values value other → weaker value other)
    {program : Program signature Value} {partner : Program signature Other}
    (alike : program.Alike likeness values partner) :
    program.Alike likeness weaker partner := by
  induction program generalizing partner with
  | done value =>
      cases partner with
      | done other => exact implies value other alike
      | call op next => exact alike.elim
  | call op next induction =>
      cases partner with
      | done other => exact alike.elim
      | call other more =>
          refine ⟨alike.1, fun answer reply answered => ?_⟩
          exact induction answer (alike.2 answer reply answered)

theorem bind
    {results : Result → Final → Prop}
    {program : Program signature Value} {partner : Program signature Other}
    {continuation : Value → Program signature Result}
    {further : Other → Program signature Final}
    (first : program.Alike likeness values partner)
    (rest : ∀ value other, values value other →
      (continuation value).Alike likeness results (further other)) :
    (program >>= continuation).Alike likeness results
      (partner >>= further) := by
  induction program generalizing partner with
  | done value =>
      cases partner with
      | done other => exact rest value other first
      | call op next => exact first.elim
  | call op next induction =>
      cases partner with
      | done other => exact first.elim
      | call other more =>
          refine ⟨first.1, fun answer reply answered => ?_⟩
          exact induction answer (first.2 answer reply answered)

/-- A program is like itself where answers are not confused. -/
theorem refl
    {values : Value → Value → Prop} (exact : likeness.Exact)
    (same : ∀ value, values value value) (program : Program signature Value) :
    program.Alike likeness values program := by
  induction program with
  | done value => exact same value
  | call op next induction =>
      refine ⟨exact.ops op, fun answer reply answered => ?_⟩
      rw [exact.answers op answer reply answered]
      exact induction reply

/-- Which exceptions correspond is a matter of the values. -/
theorem unfailing_iff
    {program : Program signature Value} {partner : Program signature Other} :
    program.Alike likeness.unfailing values partner ↔
      program.Alike likeness values partner := by
  induction program generalizing partner with
  | done value => cases partner <;> exact Iff.rfl
  | call op next induction =>
      cases partner with
      | done other => exact Iff.rfl
      | call other more =>
          refine and_congr Iff.rfl ?_
          refine forall_congr' fun answer => forall_congr' fun reply => ?_
          exact imp_congr Iff.rfl (induction answer)

/-- A finished run is matched by a finished run of the other program. -/
theorem exists_finishes
    (answerable : likeness.Answerable)
    {program : Program signature Value} {partner : Program signature Other}
    {history : List (Event signature)} {value : Value}
    (alike : program.Alike likeness values partner)
    (run : program.Finishes history value) :
    ∃ matching other, partner.Finishes matching other ∧
      List.Forall₂ likeness.Events history matching ∧ values value other := by
  induction program generalizing partner history with
  | done final =>
      obtain ⟨rfl, rfl⟩ := run
      cases partner with
      | done other => exact ⟨[], other, ⟨rfl, rfl⟩, .nil, alike⟩
      | call op next => exact alike.elim
  | call op next induction =>
      obtain ⟨answer, later, rfl, run⟩ := run
      cases partner with
      | done other => exact alike.elim
      | call other more =>
          obtain ⟨reply, answered⟩ := answerable op other answer alike.1
          obtain ⟨matching, final, finished, matched, ends⟩ :=
            induction answer (alike.2 answer reply answered) run
          exact ⟨⟨other, reply⟩ :: matching, final,
            ⟨reply, matching, rfl, finished⟩,
            .cons ⟨alike.1, answered⟩ matched, ends⟩

end Alike

end Program

/-! ## Actions -/

/-- Host computations throw, or return, the like. -/
def Host.Alike (likeness : Likeness signature) (values : Value → Other → Prop)
    (computation : Host signature Value) (partner : Host signature Other) :
    Prop :=
  computation.run.Alike likeness (likeness.Outcomes values) partner.run

theorem Host.Alike.refl
    {likeness : Likeness signature} (exact : likeness.Exact)
    (computation : Host signature Value) :
    Host.Alike likeness Eq computation computation :=
  Program.Alike.refl exact (Likeness.Outcomes.refl exact.failures) _

/-- What never throws is alike whichever exceptions correspond. -/
theorem Host.Alike.of_unfailing
    {likeness : Likeness signature} {values : Value → Other → Prop}
    {computation : Host signature Value} {partner : Host signature Other}
    (alike : Host.Alike likeness.unfailing values computation partner) :
    Host.Alike likeness values computation partner :=
  (Program.Alike.unfailing_iff.mp alike).mono fun _ _ => .of_unfailing

namespace Action

/-- From the same local variables both do, leave and return the like. -/
def Alike (likeness : Likeness signature) (values : Value → Other → Prop)
    (action : Action signature Locals Value)
    (partner : Action signature Locals Other) : Prop :=
  ∀ locals,
    (action.run.run locals).Alike likeness
      (fun left right =>
        likeness.Outcomes values left.1 right.1 ∧ left.2 = right.2)
      (partner.run.run locals)

namespace Alike

variable {likeness : Likeness signature} {values : Value → Other → Prop}
  {results : Result → Final → Prop}

/-- An action is like itself where answers are not confused. -/
theorem refl
    {values : Value → Value → Prop} (exact : likeness.Exact)
    (same : ∀ value, values value value)
    (action : Action signature Locals Value) :
    Alike likeness values action action := by
  intro locals
  refine Program.Alike.refl exact ?_ _
  rintro ⟨failure | value, left⟩
  · exact ⟨.throws (exact.failures failure), rfl⟩
  · exact ⟨.returns (same value), rfl⟩

protected theorem pure
    {value : Value} {other : Other} (related : values value other) :
    Alike likeness values (pure value : Action signature Locals Value)
      (pure other) :=
  fun _ => ⟨.returns related, rfl⟩

protected theorem throw
    {failure other : Exception} (related : likeness.failures failure other) :
    Alike likeness values (throw failure : Action signature Locals Value)
      (throw other) :=
  fun _ => ⟨.throws related, rfl⟩

protected theorem get :
    Alike likeness Eq (get : Action signature Locals Locals) get :=
  fun _ => ⟨.returns rfl, rfl⟩

protected theorem modify (update : Locals → Locals) :
    Alike likeness Eq (modify update : Action signature Locals PUnit)
      (modify update) :=
  fun _ => ⟨.returns rfl, rfl⟩

protected theorem bind
    {action : Action signature Locals Value}
    {partner : Action signature Locals Other}
    {continuation : Value → Action signature Locals Result}
    {further : Other → Action signature Locals Final}
    (first : Alike likeness values action partner)
    (rest : ∀ value other, values value other →
      Alike likeness results (continuation value) (further other)) :
    Alike likeness results (action >>= continuation) (partner >>= further) := by
  intro locals
  rw [ExceptT.run_bind, ExceptT.run_bind, StateT.run_bind, StateT.run_bind]
  refine (first locals).bind ?_
  rintro ⟨outcome, left⟩ ⟨other, right⟩ ⟨outcomes, same⟩
  subst same
  cases outcomes with
  | returns related => exact rest _ _ related left
  | throws related => exact ⟨.throws related, rfl⟩

/-- Sequencing where the first part returns the same value. -/
theorem bind_eq
    {action partner : Action signature Locals Value}
    {continuation : Value → Action signature Locals Result}
    {further : Value → Action signature Locals Final}
    (first : Alike likeness Eq action partner)
    (rest : ∀ value,
      Alike likeness results (continuation value) (further value)) :
    Alike likeness results (action >>= continuation) (partner >>= further) := by
  refine first.bind ?_
  rintro value _ rfl
  exact rest value

protected theorem tryCatch
    {action : Action signature Locals Value}
    {partner : Action signature Locals Other}
    {handler : Exception → Action signature Locals Value}
    {rescue : Exception → Action signature Locals Other}
    (body : Alike likeness values action partner)
    (handles : ∀ failure other, likeness.failures failure other →
      Alike likeness values (handler failure) (rescue other)) :
    Alike likeness values (tryCatch action handler)
      (tryCatch partner rescue) := by
  intro locals
  refine (body locals).bind ?_
  rintro ⟨outcome, left⟩ ⟨other, right⟩ ⟨outcomes, same⟩
  subst same
  cases outcomes with
  | returns related => exact ⟨.returns related, rfl⟩
  | throws related => exact handles _ _ related left

/-- A body whose exceptions are all handled throws nothing. -/
theorem tryCatch_unfailing
    {action : Action signature Locals Value}
    {partner : Action signature Locals Other}
    {handler : Exception → Action signature Locals Value}
    {rescue : Exception → Action signature Locals Other}
    (body : Alike likeness values action partner)
    (handles : ∀ failure other, likeness.failures failure other →
      Alike likeness.unfailing values (handler failure) (rescue other)) :
    Alike likeness.unfailing values (tryCatch action handler)
      (tryCatch partner rescue) := by
  intro locals
  refine (Program.Alike.unfailing_iff.mpr (body locals)).bind ?_
  rintro ⟨outcome, left⟩ ⟨other, right⟩ ⟨outcomes, same⟩
  subst same
  cases outcomes with
  | returns related => exact ⟨.returns related, rfl⟩
  | throws related => exact handles _ _ related left

theorem of_unfailing
    {action : Action signature Locals Value}
    {partner : Action signature Locals Other}
    (alike : Alike likeness.unfailing values action partner) :
    Alike likeness values action partner := by
  intro locals
  refine (Program.Alike.unfailing_iff.mp (alike locals)).mono ?_
  rintro ⟨outcome, left⟩ ⟨other, right⟩ ⟨outcomes, same⟩
  exact ⟨outcomes.of_unfailing, same⟩

protected theorem onException
    {action : Action signature Locals Value}
    {partner : Action signature Locals Other}
    {cleanup after : Action signature Locals Unit}
    (body : Alike likeness values action partner)
    (cleans : Alike likeness Eq cleanup after) :
    Alike likeness values (onException action cleanup)
      (onException partner after) :=
  .tryCatch body fun _ _ related =>
    .bind cleans fun _ _ _ => .throw related

protected theorem scopeGuard
    {action : Action signature Locals Value}
    {partner : Action signature Locals Other}
    {release free : Action signature Locals Unit}
    (body : Alike likeness values action partner)
    (releases : Alike likeness Eq release free) :
    Alike likeness values (scopeGuard action release)
      (scopeGuard partner free) := by
  intro locals
  refine (body locals).bind ?_
  rintro ⟨outcome, left⟩ ⟨other, right⟩ ⟨outcomes, same⟩
  subst same
  refine (releases left).bind ?_
  rintro ⟨_, first⟩ ⟨_, second⟩ ⟨_, rfl⟩
  exact ⟨outcomes, rfl⟩

protected theorem withLocals
    {action : Action signature Inner Value}
    {partner : Action signature Inner Other} {initial : Inner}
    (body : Alike likeness values action partner) :
    Alike likeness values
      (withLocals initial action : Action signature Locals Value)
      (withLocals initial partner) := by
  intro locals
  refine (body initial).bind ?_
  rintro ⟨outcome, left⟩ ⟨other, right⟩ ⟨outcomes, _⟩
  exact ⟨outcomes, rfl⟩

/-- Host computations do not see the local variables. -/
protected theorem ofHost
    {computation : Host signature Value} {partner : Host signature Other}
    (alike : Host.Alike likeness values computation partner) :
    Alike likeness values
      (ofHost computation : Action signature Locals Value)
      (ofHost partner) := by
  intro locals
  refine Program.Alike.bind alike ?_
  intro outcome other outcomes
  exact ⟨outcomes, rfl⟩

protected theorem ofExcept
    {outcome : Except Exception Value} {other : Except Exception Other}
    (alike : likeness.Outcomes values outcome other) :
    Alike likeness values
      (ofExcept outcome : Action signature Locals Value) (ofExcept other) :=
  .ofHost alike

end Alike

end Action

/-! ## Shared objects -/

section Objects

variable {likeness : Likeness signature} {values : Value → Other → Prop}

structure AtomicBool.Alike (likeness : Likeness signature)
    (flag other : AtomicBool signature) : Prop where
  load : Host.Alike likeness Eq flag.load other.load
  store : ∀ value, Host.Alike likeness Eq (flag.store value)
    (other.store value)
  exchange : ∀ value, Host.Alike likeness Eq (flag.exchange value)
    (other.exchange value)

structure Mutex.Alike (likeness : Likeness signature)
    (mutex other : Mutex signature) : Prop where
  lock : Host.Alike likeness Eq mutex.lock other.lock
  unlock : Host.Alike likeness Eq mutex.unlock other.unlock

structure Pointer.Alike (likeness : Likeness signature)
    (pointer other : Pointer signature) : Prop where
  publish : Host.Alike likeness Eq pointer.publish other.publish
  clear : Host.Alike likeness Eq pointer.clear other.clear
  present : Host.Alike likeness Eq pointer.present other.present

structure Lifetime.Alike (likeness : Likeness signature)
    (lifetime other : Lifetime signature) : Prop where
  construct : Host.Alike likeness Eq lifetime.construct other.construct
  destroy : Host.Alike likeness Eq lifetime.destroy other.destroy

theorem Mutex.Alike.of_unfailing
    {mutex other : Mutex signature}
    (alike : mutex.Alike likeness.unfailing other) :
    mutex.Alike likeness other where
  lock := alike.lock.of_unfailing
  unlock := alike.unlock.of_unfailing

theorem Mutex.Alike.guarded
    {mutex other : Mutex signature} {body : Action signature Locals Value}
    {partner : Action signature Locals Other}
    (alike : mutex.Alike likeness other)
    (runs : Action.Alike likeness values body partner) :
    Action.Alike likeness values (mutex.guarded body)
      (other.guarded partner) :=
  .bind_eq (.ofHost alike.lock) fun _ =>
    .scopeGuard runs (.ofHost alike.unlock)

theorem Lifetime.Alike.scoped
    {lifetime other : Lifetime signature}
    {body : Action signature Locals Value}
    {partner : Action signature Locals Other}
    (alike : lifetime.Alike likeness other)
    (runs : Action.Alike likeness values body partner) :
    Action.Alike likeness values (lifetime.scoped body)
      (other.scoped partner) :=
  .bind_eq (.ofHost alike.construct) fun _ =>
    .scopeGuard runs (.ofHost alike.destroy)

end Objects

/-! ## Threads -/

/-- Lists that agree element by element agree on their last elements. -/
theorem forall₂_concat
    {Left Right : Type} {related : Left → Right → Prop} {log : List Left}
    {others : List Right} {entry : Left} {other : Right}
    (all : List.Forall₂ related (log ++ [entry]) (others ++ [other])) :
    List.Forall₂ related log others ∧ related entry other := by
  have reversed := List.rel_reverse all
  rw [List.reverse_append, List.reverse_append] at reversed
  obtain ⟨last, earlier⟩ := List.forall₂_cons.mp reversed
  exact ⟨List.forall₂_reverse_iff.mp earlier, last⟩

namespace Threads

variable {Thread Call Shared : Type}

/-- Entries of two logs by the same thread that correspond. -/
inductive Entries (likeness : Likeness signature)
    (values : Value → Value → Prop) :
    ThreadEvent Thread Call Value signature →
      ThreadEvent Thread Call Value signature → Prop where
  | calls (thread : Thread) (call : Call) :
      Entries likeness values (.calls thread call) (.calls thread call)
  | performs (thread : Thread) {event other : Event signature}
      (alike : likeness.Events event other) :
      Entries likeness values (.performs thread event)
        (.performs thread other)
  | returns (thread : Thread) {value other : Value}
      (alike : values value other) :
      Entries likeness values (.returns thread value) (.returns thread other)

/-- The shared state cannot tell corresponding operations apart. -/
def Blind (likeness : Likeness signature)
    (worlds : Thread → World signature Shared) : Prop :=
  ∀ thread before op answer after other,
    (worlds thread).perform before op answer after → likeness.ops op other →
      ∃ reply, likeness.answers op other answer reply ∧
        (worlds thread).perform before other reply after

/-- Both threads are idle, or run programs that are alike. -/
inductive RunsAlike (likeness : Likeness signature)
    (values : Value → Value → Prop) :
    Option (Program signature Value) → Option (Program signature Value) →
      Prop where
  | idle : RunsAlike likeness values none none
  | runs {program partner : Program signature Value}
      (alike : program.Alike likeness values partner) :
      RunsAlike likeness values (some program) (some partner)

theorem RunsAlike.idle_iff
    {likeness : Likeness signature} {values : Value → Value → Prop}
    {running other : Option (Program signature Value)}
    (alike : RunsAlike likeness values running other) :
    running = none ↔ other = none := by
  cases alike with
  | idle => exact Iff.rfl
  | runs => exact iff_of_false nofun nofun

theorem RunsAlike.update
    [DecidableEq Thread] {likeness : Likeness signature}
    {values : Value → Value → Prop}
    {running others : Thread → Option (Program signature Value)}
    {thread : Thread} {next more : Option (Program signature Value)}
    (alike : ∀ thread, RunsAlike likeness values (running thread)
      (others thread))
    (proceeds : RunsAlike likeness values next more) (other : Thread) :
    RunsAlike likeness values (Function.update running thread next other)
      (Function.update others thread more other) := by
  by_cases own : other = thread
  · subst own
    rwa [Function.update_self, Function.update_self]
  · rw [Function.update_of_ne own, Function.update_of_ne own]
    exact alike other

/--
Every interleaving of calls is matched by an interleaving of calls whose
programs are like them.
-/
theorem exists_execution
    [DecidableEq Thread] {likeness : Likeness signature}
    {values : Value → Value → Prop} {worlds : Thread → World signature Shared}
    {program partner : Call → Program signature Value} {shared : Shared}
    {log : List (ThreadEvent Thread Call Value signature)}
    {system : Threads Thread Value Shared signature}
    (blind : Blind likeness worlds)
    (alike : ∀ call, (program call).Alike likeness values (partner call))
    (execution : Execution (Step worlds program) (idle shared) log system) :
    ∃ matching after,
      Execution (Step worlds partner) (idle shared) matching after ∧
        List.Forall₂ (Entries likeness values) log matching ∧
        after.shared = system.shared ∧
        ∀ thread, RunsAlike likeness values (system.running thread)
          (after.running thread) := by
  induction execution with
  | start => exact ⟨[], _, .start, .nil, rfl, fun _ => .idle⟩
  | @extend log before after event past last induction =>
      obtain ⟨matching, reached, execution, entries, same, running⟩ :=
        induction
      cases last with
      | calls thread call idle =>
          have outside := running thread
          rw [idle] at outside
          generalize waits : reached.running thread = rest at outside
          cases outside
          exact ⟨_, _, execution.extend (.calls thread call waits),
            List.rel_append entries (.cons (.calls thread call) .nil), same,
            RunsAlike.update running (.runs (alike call))⟩
      | @performs thread op next answer memory runs performed =>
          have inside := running thread
          rw [runs] at inside
          generalize calls : reached.running thread = rest at inside
          cases inside with
          | @runs _ partner related =>
              cases partner with
              | done value => exact related.elim
              | call other more =>
                  rw [← same] at performed
                  obtain ⟨reply, answered, replied⟩ :=
                    blind thread _ op answer memory other performed related.1
                  exact ⟨_, _, execution.extend (.performs thread calls replied),
                    List.rel_append entries
                      (.cons (.performs thread ⟨related.1, answered⟩) .nil),
                    rfl,
                    RunsAlike.update running
                      (.runs (related.2 answer reply answered))⟩
      | @returns thread value runs =>
          have inside := running thread
          rw [runs] at inside
          generalize ends : reached.running thread = rest at inside
          cases inside with
          | @runs _ partner related =>
              cases partner with
              | call op next => exact related.elim
              | done other =>
                  exact ⟨_, _, execution.extend (.returns thread ends),
                    List.rel_append entries (.cons (.returns thread related) .nil),
                    same, RunsAlike.update running .idle⟩

/--
Entries of two logs in which the same threads go on; operations that correspond
receive answers that correspond.
-/
inductive Scheduled (likeness : Likeness signature) :
    ThreadEvent Thread Call Value signature →
      ThreadEvent Thread Call Value signature → Prop where
  | calls (thread : Thread) (call : Call) :
      Scheduled likeness (.calls thread call) (.calls thread call)
  | performs (thread : Thread) {event other : Event signature}
      (answered : likeness.ops event.op other.op →
        likeness.answers event.op other.op event.answer other.answer) :
      Scheduled likeness (.performs thread event) (.performs thread other)
  | returns (thread : Thread) (value other : Value) :
      Scheduled likeness (.returns thread value) (.returns thread other)

theorem Entries.scheduled
    {entry other : ThreadEvent Thread Call Value signature}
    (alike : Entries likeness values entry other) :
    Scheduled likeness entry other := by
  cases alike with
  | calls thread call => exact .calls thread call
  | performs thread alike => exact .performs thread fun _ => alike.answers
  | returns thread alike => exact .returns thread _ _

/-- One step of each of two interleavings. -/
theorem entries_of_step
    [DecidableEq Thread] {likeness : Likeness signature}
    {values : Value → Value → Prop} {worlds : Thread → World signature Shared}
    {program partner : Call → Program signature Value}
    {before between system after : Threads Thread Value Shared signature}
    {entry other : ThreadEvent Thread Call Value signature}
    (alike : ∀ call, (program call).Alike likeness values (partner call))
    (running : ∀ thread, RunsAlike likeness values (before.running thread)
      (between.running thread))
    (step : Step worlds program before entry system)
    (another : Step worlds partner between other after)
    (scheduled : Scheduled likeness entry other) :
    Entries likeness values entry other ∧
      ∀ thread, RunsAlike likeness values (system.running thread)
        (after.running thread) := by
  cases step with
  | calls thread call idle =>
      cases scheduled
      cases another
      exact ⟨.calls thread call, RunsAlike.update running (.runs (alike call))⟩
  | @performs thread op next answer memory runs performed =>
      cases scheduled with
      | performs _ answered =>
          cases another with
          | @performs _ other more reply memory calls replied =>
              have inside := running thread
              rw [runs, calls] at inside
              cases inside with
              | runs related =>
                  have replies := answered related.1
                  exact ⟨.performs thread ⟨related.1, replies⟩,
                    RunsAlike.update running
                      (.runs (related.2 answer reply replies))⟩
  | @returns thread value runs =>
      cases scheduled with
      | returns _ _ other =>
          cases another with
          | returns _ ends =>
              have inside := running thread
              rw [runs, ends] at inside
              cases inside with
              | runs related =>
                  exact ⟨.returns thread related,
                    RunsAlike.update running .idle⟩

/--
Two interleavings of programs that are alike, in which the same threads go on
and the answers correspond, perform and return what corresponds.
-/
theorem entries_of_scheduled
    [DecidableEq Thread] {likeness : Likeness signature}
    {values : Value → Value → Prop} {worlds : Thread → World signature Shared}
    {program partner : Call → Program signature Value}
    {shared memory : Shared}
    {log others : List (ThreadEvent Thread Call Value signature)}
    {system after : Threads Thread Value Shared signature}
    (alike : ∀ call, (program call).Alike likeness values (partner call))
    (execution : Execution (Step worlds program) (idle shared) log system)
    (another : Execution (Step worlds partner) (idle memory) others after)
    (scheduled : List.Forall₂ (Scheduled likeness) log others) :
    List.Forall₂ (Entries likeness values) log others ∧
      ∀ thread, RunsAlike likeness values (system.running thread)
        (after.running thread) := by
  induction execution generalizing others after with
  | start =>
      cases another with
      | start => exact ⟨.nil, fun _ => .idle⟩
      | extend former latter => simp at scheduled
  | extend past last induction =>
      cases another with
      | start => simp at scheduled
      | extend former latter =>
          obtain ⟨earlier, goesOn⟩ := forall₂_concat scheduled
          obtain ⟨entries, running⟩ := induction former earlier
          obtain ⟨related, proceeds⟩ :=
            entries_of_step alike running last latter goesOn
          exact ⟨List.rel_append entries (.cons related .nil), proceeds⟩

/-! ### Schedules -/

/-- Two logs and systems that correspond. -/
structure PlayedAlike (likeness : Likeness signature)
    (values : Value → Value → Prop)
    (played other : Played Thread Call Value Shared signature) : Prop where
  log : List.Forall₂ (Entries likeness values) played.log other.log
  shared : played.system.shared = other.system.shared
  running : ∀ thread, RunsAlike likeness values
    (played.system.running thread) (other.system.running thread)

/-- Both make a thread wait, or give it answers that correspond. -/
inductive Responds (likeness : Likeness signature)
    (op other : signature.Op) : Option (signature.Answer op × Shared) →
      Option (signature.Answer other × Shared) → Prop where
  | waits : Responds likeness op other none none
  | answers {answer : signature.Answer op} {reply : signature.Answer other}
      (after : Shared) (alike : likeness.answers op other answer reply) :
      Responds likeness op other (some (answer, after)) (some (reply, after))

section Schedules

variable [DecidableEq Thread] {likeness : Likeness signature}
  {values : Value → Value → Prop}
  {respond others : Responses Thread Call Value Shared signature}
  {program partner : Call → Program signature Value}

theorem move_alike
    (responds : ∀ log before thread shared op other, likeness.ops op other →
      Responds likeness op other (respond log thread shared op)
        (others before thread shared other))
    (alike : ∀ call, (program call).Alike likeness values (partner call))
    {played other : Played Thread Call Value Shared signature}
    (same : PlayedAlike likeness values played other)
    (next : Move Thread Call) :
    PlayedAlike likeness values (move respond program played next)
      (move others partner other next) := by
  cases next with
  | starts thread call =>
      have inside := same.running thread
      simp only [move]
      generalize played.system.running thread = first at inside
      generalize other.system.running thread = second at inside
      cases inside with
      | idle =>
          exact ⟨List.rel_append same.log (.cons (.calls thread call) .nil),
            same.shared, RunsAlike.update same.running (.runs (alike call))⟩
      | runs _ => exact same
  | continues thread =>
      have inside := same.running thread
      simp only [move]
      generalize played.system.running thread = first at inside
      generalize other.system.running thread = second at inside
      cases inside with
      | idle => exact same
      | @runs program partner related =>
          cases program with
          | done value =>
              cases partner with
              | call op next => exact related.elim
              | done final =>
                  exact ⟨List.rel_append same.log
                      (.cons (.returns thread related) .nil),
                    same.shared, RunsAlike.update same.running .idle⟩
          | call op next =>
              cases partner with
              | done final => exact related.elim
              | call counterpart more =>
                  have answered := responds played.log other.log thread
                    played.system.shared op counterpart related.1
                  rw [← same.shared]
                  dsimp only
                  generalize respond played.log thread played.system.shared
                    op = first at answered
                  generalize others other.log thread played.system.shared
                    counterpart = second at answered
                  cases answered with
                  | waits => exact same
                  | answers after replied =>
                      exact ⟨List.rel_append same.log
                          (.cons (.performs thread ⟨related.1, replied⟩) .nil),
                        rfl, RunsAlike.update same.running
                          (.runs (related.2 _ _ replied))⟩

/-- The same moves of programs that are alike, where the answers correspond. -/
theorem play_alike
    (responds : ∀ log before thread shared op other, likeness.ops op other →
      Responds likeness op other (respond log thread shared op)
        (others before thread shared other))
    (alike : ∀ call, (program call).Alike likeness values (partner call))
    (shared : Shared) (moves : List (Move Thread Call)) :
    PlayedAlike likeness values (play respond program shared moves)
      (play others partner shared moves) := by
  have fromPlayed : ∀ (moves : List (Move Thread Call))
      (played other : Played Thread Call Value Shared signature),
      PlayedAlike likeness values played other →
        PlayedAlike likeness values
          (moves.foldl (move respond program) played)
          (moves.foldl (move others partner) other) := by
    intro moves
    induction moves with
    | nil => exact fun _ _ same => same
    | cons next rest induction =>
        exact fun _ _ same => induction _ _ (move_alike responds alike same next)
  exact fromPlayed moves _ _ ⟨.nil, rfl, fun _ => .idle⟩

end Schedules

end Threads

end ArnCore.Interaction
