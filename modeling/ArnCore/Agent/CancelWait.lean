import ArnCore.Agent.CancelProtocol
import ArnCore.Interaction.Ownership

/-!
# Cancelling without waiting

A cancellation that finds a published provider takes no mutex.  One that finds
none waits for the mutex, and it may wait across a call of the provider: the
provider is not published while it is configured, and a prompt publishes it
only behind the trimming of its history.
-/

namespace ArnCore.Agent.CancelWait

open ArnCore.Interaction
open ArnCore.Interaction.Ownership
open ArnCore.Provider
open ArnCore.Agent.BracketedCalls
open ArnCore.Agent.CancelProtocol

variable {Thread : Type}

/-! ## Phases and the memory -/

/-- The calls that a cancellation must not wait for. -/
def isBlocking : Call → Bool
  | .listModels _ | .trimHistory _ | .startTurn _ | .continueTurn _ => true
  | .tool _ _ => true
  | _ => false

/-- Such a call is open only while an operation may make it. -/
def Consistent (watch : Watch) : Prop :=
  (∃ call ∈ watch.stack, isBlocking call = true) →
    watch.phase = .holding .committed ∨ watch.phase = .holding .published

theorem consistent_start (call : SessionCall) : Consistent (start call) := by
  rintro ⟨open_, member, -⟩
  cases call <;> cases member

/-- Only what enters a call changes the open calls of a phase that calls. -/
theorem consistent_observe
    {watch : Watch} {op : CallOp} (answer : calls.Answer op)
    (consistent : Consistent watch) (allowed : Allowed watch op) :
    Consistent (observe watch ⟨op, answer⟩) := by
  obtain ⟨phase, stack⟩ := watch
  have closed : stack = [] →
      Consistent ⟨phase.after ⟨op, answer⟩, stack⟩ := by
    rintro rfl ⟨call, member, -⟩
    cases member
  cases op with
  | load =>
      rcases allowed with same | same | ⟨-, same⟩
      · obtain rfl : phase = _ := same
        exact fun _ => Or.inl rfl
      · obtain rfl : phase = _ := same
        exact fun _ => Or.inr rfl
      · exact closed same
  | lock => exact closed allowed.2
  | unlock => exact closed allowed.2
  | publish => exact closed allowed.2
  | clear => exact closed allowed.2
  | present => exact closed allowed.2
  | enter call =>
      have seen : observe ⟨phase, stack⟩ ⟨.enter call, answer⟩ =
          ⟨phase, call :: stack⟩ := observe_enter phase call answer
      rw [seen]
      rintro ⟨found, member, blocking⟩
      rcases allowed with same | same | rfl
      · exact Or.inl same
      · exact Or.inr same
      · rcases List.mem_cons.mp member with rfl | inner
        · cases blocking
        · exact consistent ⟨found, inner, blocking⟩
  | leave call =>
      have seen : observe ⟨phase, stack⟩ ⟨.leave call, answer⟩ =
          ⟨phase, stack.tail⟩ := observe_leave phase call answer
      rw [seen]
      rintro ⟨found, member, blocking⟩
      exact consistent ⟨found, List.mem_of_mem_tail member, blocking⟩

/-- The phases of all threads against the memory. -/
structure Exclusive (phases : Thread → Option Watch)
    (memory : Memory Thread) : Prop where
  holder : HeldBy Watch.holds phases memory.holder
  pointer : HeldBy Watch.publishes phases memory.pointer
  consistent : ∀ thread watch, phases thread = some watch → Consistent watch

section Exclusion

variable [DecidableEq Thread] {phases : Thread → Option Watch}
  {memory after : Memory Thread} {thread : Thread} {watch : Watch}
  {op : CallOp}

omit [DecidableEq Thread] in
theorem publishes_holds (publishes : watch.publishes = true) :
    watch.holds = true := by
  obtain ⟨phase, stack⟩ := watch
  cases phase with
  | holding stage => rfl
  | _ => cases publishes

/-- A thread that is outside before and after a step. -/
theorem Exclusive.outside
    {next : Option Watch} (exclusive : Exclusive phases memory)
    (before : ∀ watch, phases thread = some watch → watch.holds = false)
    (later : ∀ watch, next = some watch →
      watch.holds = false ∧ Consistent watch) :
    Exclusive (Function.update phases thread next) memory := by
  have silent : ∀ {property : Watch → Bool},
      (∀ watch, property watch = true → watch.holds = true) →
      ((∃ watch, next = some watch ∧ property watch = true) ↔
        ∃ watch, phases thread = some watch ∧ property watch = true) := by
    intro property holds
    constructor
    · rintro ⟨watch, atNext, has⟩
      exact absurd (holds watch has) (by simp [(later watch atNext).1])
    · rintro ⟨watch, atPhase, has⟩
      exact absurd (holds watch has) (by simp [before watch atPhase])
  constructor
  · exact exclusive.holder.kept (silent fun _ has => has)
  · exact exclusive.pointer.kept (silent fun _ has => publishes_holds has)
  · intro other watch atPhase
    by_cases own : other = thread
    · subst own
      rw [Function.update_self] at atPhase
      exact (later watch atPhase).2
    · rw [Function.update_of_ne own] at atPhase
      exact exclusive.consistent other watch atPhase

omit [DecidableEq Thread] in
theorem iff_of_same
    {property : Watch → Bool} {next : Watch}
    (atPhase : phases thread = some watch)
    (same : property next = property watch) :
    (∃ found, some next = some found ∧ property found = true) ↔
      ∃ found, phases thread = some found ∧ property found = true := by
  simp [atPhase, same]

omit [DecidableEq Thread] in
/-- Nobody else publishes while a thread holds the mutex. -/
theorem Exclusive.pointer_eq_none
    (exclusive : Exclusive phases memory)
    (atPhase : phases thread = some watch) (holding : watch.holds = true)
    (hidden : watch.publishes = false) : memory.pointer = none := by
  cases published : memory.pointer with
  | none => rfl
  | some owner =>
      obtain ⟨found, ownPhase, publishes⟩ :=
        (exclusive.pointer owner).mp published
      have same := exclusive.holder.unique atPhase holding ownPhase
        (publishes_holds publishes)
      subst same
      rw [atPhase] at ownPhase
      cases ownPhase
      rw [hidden] at publishes
      cases publishes

theorem observe_kept
    {op : CallOp} (answer : calls.Answer op) (allowed : Allowed watch op)
    (quiet : op ≠ .lock ∧ op ≠ .unlock ∧ op ≠ .publish ∧ op ≠ .clear) :
    (observe watch ⟨op, answer⟩).holds = watch.holds ∧
      (observe watch ⟨op, answer⟩).publishes = watch.publishes := by
  obtain ⟨phase, stack⟩ := watch
  cases op with
  | load =>
      rcases allowed with same | same | ⟨same, -⟩
      · obtain rfl : phase = _ := same
        exact ⟨rfl, rfl⟩
      · obtain rfl : phase = _ := same
        exact ⟨rfl, rfl⟩
      · obtain rfl : phase = _ := same
        cases answer with
        | true => exact ⟨rfl, rfl⟩
        | false => exact ⟨rfl, rfl⟩
  | present =>
      obtain rfl : phase = _ := allowed.1
      cases answer with
      | true => exact ⟨rfl, rfl⟩
      | false => exact ⟨rfl, rfl⟩
  | enter call =>
      have seen : observe ⟨phase, stack⟩ ⟨.enter call, answer⟩ =
          ⟨phase, call :: stack⟩ := observe_enter phase call answer
      rw [seen]
      exact ⟨rfl, rfl⟩
  | leave call =>
      have seen : observe ⟨phase, stack⟩ ⟨.leave call, answer⟩ =
          ⟨phase, stack.tail⟩ := observe_leave phase call answer
      rw [seen]
      exact ⟨rfl, rfl⟩
  | lock => exact absurd rfl quiet.1
  | unlock => exact absurd rfl quiet.2.1
  | publish => exact absurd rfl quiet.2.2.1
  | clear => exact absurd rfl quiet.2.2.2

/-- A step of a thread, as the mutex and the pointer see it. -/
theorem Exclusive.performs
    {answer : calls.Answer op} (exclusive : Exclusive phases memory)
    (atPhase : phases thread = some watch) (allowed : Allowed watch op)
    (answers : memory.Answers op answer) :
    Exclusive
      (Function.update phases thread (some (observe watch ⟨op, answer⟩)))
      (memory.update thread op) := by
  have consistent : ∀ other found,
      Function.update phases thread (some (observe watch ⟨op, answer⟩))
        other = some found → Consistent found := by
    intro other found atOther
    by_cases own : other = thread
    · subst own
      rw [Function.update_self] at atOther
      cases atOther
      exact consistent_observe answer
        (exclusive.consistent other watch atPhase) allowed
    · rw [Function.update_of_ne own] at atOther
      exact exclusive.consistent other found atOther
  have kept : memory.update thread op = memory →
      (op ≠ .lock ∧ op ≠ .unlock ∧ op ≠ .publish ∧ op ≠ .clear) →
        Exclusive
          (Function.update phases thread (some (observe watch ⟨op, answer⟩)))
          (memory.update thread op) := by
    intro unchanged quiet
    obtain ⟨holds, publishes⟩ := observe_kept answer allowed quiet
    rw [unchanged]
    exact ⟨exclusive.holder.kept (iff_of_same atPhase holds),
      exclusive.pointer.kept (iff_of_same atPhase publishes), consistent⟩
  obtain ⟨phase, stack⟩ := watch
  cases op with
  | load => exact kept rfl (by simp)
  | present => exact kept rfl (by simp)
  | enter call => exact kept rfl (by simp)
  | leave call => exact kept rfl (by simp)
  | lock =>
      have held := exclusive.holder
      rw [show memory.holder = none from answers] at held
      rcases allowed.1 with ⟨stage, same, unpublished⟩ | same
      · obtain rfl : phase = _ := same
        refine ⟨held.taken rfl, ?_, consistent⟩
        refine exclusive.pointer.kept (iff_of_same atPhase ?_)
        show (Phase.holding stage == .holding .published) = false
        simp [unpublished]
      · obtain rfl : phase = _ := same
        exact ⟨held.taken rfl,
          exclusive.pointer.kept (iff_of_same atPhase rfl), consistent⟩
  | unlock =>
      rcases allowed.1 with same | same
      · obtain rfl : phase = _ := same
        exact ⟨exclusive.holder.released ⟨_, atPhase, rfl⟩ rfl,
          exclusive.pointer.kept (iff_of_same atPhase rfl), consistent⟩
      · obtain rfl : phase = _ := same
        exact ⟨exclusive.holder.released ⟨_, atPhase, rfl⟩ rfl,
          exclusive.pointer.kept (iff_of_same atPhase rfl), consistent⟩
  | publish =>
      obtain rfl : phase = _ := allowed.1
      have hidden := exclusive.pointer
      rw [exclusive.pointer_eq_none atPhase rfl rfl] at hidden
      exact ⟨exclusive.holder.kept (iff_of_same atPhase rfl),
        hidden.taken rfl, consistent⟩
  | clear =>
      obtain rfl : phase = _ := allowed.1
      exact ⟨exclusive.holder.kept (iff_of_same atPhase rfl),
        exclusive.pointer.released ⟨_, atPhase, rfl⟩ rfl, consistent⟩

end Exclusion

/-! ## Cancellations that wait -/

/-- The log of the threads of one session. -/
abbrev SessionLog (Thread : Type) :=
  List (ThreadEvent Thread SessionCall (Except Exception ApiResult) calls)

abbrev SessionThreads (Thread : Type) :=
  Threads Thread (Except Exception ApiResult) (Memory Thread) calls

section Waiting

variable [DecidableEq Thread] {log : SessionLog Thread}
  {system : SessionThreads Thread}

/--
An operation holds the mutex for a provider it has not published: from the
point where nothing stops its calls of the provider any more until it publishes
it or releases the mutex.
-/
def Committed (log : SessionLog Thread) (thread : Thread) : Prop :=
  ∃ stack, Threads.phases start observe log thread =
    some ⟨.holding .committed, stack⟩

/-- A cancellation found nothing published and has not taken the mutex yet. -/
def Waits (log : SessionLog Thread) (thread : Thread) : Prop :=
  ∃ stack, Threads.phases start observe log thread = some ⟨.waiting, stack⟩

/--
No cancellation finds nothing published while an operation is committed, and no
operation commits itself while a cancellation waits.
-/
structure Undisturbed (log : SessionLog Thread) : Prop where
  looks : ∀ past thread future,
    log = past ++ .performs thread ⟨.present, false⟩ :: future →
      ∀ other, ¬ Committed past other
  commits : ∀ past event future other, log = past ++ event :: future →
    ¬ Committed past other → Committed (past ++ [event]) other →
      ∀ thread, ¬ Waits past thread

/--
A cancellation is blocked on the mutex, and its holder is inside a call of its
provider or of a tool.
-/
def BlockedAcrossCall (log : SessionLog Thread)
    (system : SessionThreads Thread) : Prop :=
  ∃ canceller hasProvider history next holder operation past call,
    Threads.current log canceller = some (.cancel hasProvider, history) ∧
      system.running canceller = some (.call .lock next) ∧
      system.shared.holder = some holder ∧
      Threads.current log holder = some (operation, past) ∧
      call ∈ openCalls past ∧ isBlocking call = true

theorem exclusive
    (execution : Execution (Threads.Step memoryOf body) (Threads.idle {}) log
      system) :
    Exclusive (Threads.phases start observe log) system.shared := by
  refine Threads.invariant body_verified ?_ ?_ ?_ ?_ execution
  · exact ⟨HeldBy.idle, HeldBy.idle, nofun⟩
  · intro phases memory thread call exclusive idle
    apply exclusive.outside
    · intro watch atPhase
      rw [idle] at atPhase
      cases atPhase
    · rintro watch ⟨⟩
      exact ⟨by cases call <;> rfl, consistent_start call⟩
  · rintro phases memory thread watch op answer after exclusive atPhase
      allowed ⟨answers, rfl⟩
    exact exclusive.performs atPhase allowed answers
  · intro phases memory thread watch value exclusive atPhase released
    apply exclusive.outside
    · intro found atFound
      rw [atPhase] at atFound
      cases atFound
      exact released
    · nofun

theorem Undisturbed.past
    {past : SessionLog Thread}
    {event : ThreadEvent Thread SessionCall (Except Exception ApiResult) calls}
    (undisturbed : Undisturbed (past ++ [event])) : Undisturbed past where
  looks earlier thread future split :=
    undisturbed.looks earlier thread (future ++ [event]) (by simp [split])
  commits earlier other future found split :=
    undisturbed.commits earlier other (future ++ [event]) found
      (by simp [split])

theorem phases_of_ne
    {event : ThreadEvent Thread SessionCall (Except Exception ApiResult) calls}
    {thread : Thread} (other : thread ≠ event.thread) :
    Threads.phases start observe (log ++ [event]) thread =
      Threads.phases start observe log thread := by
  rw [Threads.phases, Threads.current_snoc, Threads.advance_of_ne other]
  rfl

/-- What an allowed operation makes of the phase. -/
inductive Moves (before : Phase) (event : CallEvent) : Phase → Prop where
  | stays : Moves before event before
  | enters (stage : Stage) (unpublished : stage ≠ .published) :
      Moves before event (.holding stage)
  | publishes (committed : before = .holding .committed) :
      Moves before event (.holding .published)
  | waits (look : event = ⟨.present, false⟩) : Moves before event .waiting
  | finds : Moves before event .direct
  | ends : Moves before event .done

omit [DecidableEq Thread] in
theorem moves_of_allowed
    {watch : Watch} {op : CallOp} (answer : calls.Answer op)
    (allowed : Allowed watch op) :
    Moves watch.phase ⟨op, answer⟩ (observe watch ⟨op, answer⟩).phase := by
  obtain ⟨phase, stack⟩ := watch
  cases op with
  | load =>
      rcases allowed with same | same | ⟨same, -⟩
      · obtain rfl : phase = _ := same
        exact .stays
      · obtain rfl : phase = _ := same
        exact .stays
      · obtain rfl : phase = _ := same
        cases answer with
        | true => exact .enters .harmless nofun
        | false => exact .enters .committed nofun
  | lock =>
      rcases allowed.1 with ⟨stage, same, unpublished⟩ | same
      · obtain rfl : phase = _ := same
        exact .enters stage unpublished
      · obtain rfl : phase = _ := same
        exact .enters .harmless nofun
  | unlock =>
      rcases allowed.1 with same | same
      · obtain rfl : phase = _ := same
        exact .ends
      · obtain rfl : phase = _ := same
        exact .ends
  | publish =>
      obtain rfl : phase = _ := allowed.1
      exact .publishes rfl
  | clear =>
      obtain rfl : phase = _ := allowed.1
      exact .enters .harmless nofun
  | present =>
      obtain rfl : phase = _ := allowed.1
      cases answer with
      | true => exact .finds
      | false => exact .waits rfl
  | enter call =>
      have seen : observe ⟨phase, stack⟩ ⟨.enter call, answer⟩ =
          ⟨phase, call :: stack⟩ := observe_enter phase call answer
      rw [seen]
      exact .stays
  | leave call =>
      have seen : observe ⟨phase, stack⟩ ⟨.leave call, answer⟩ =
          ⟨phase, stack.tail⟩ := observe_leave phase call answer
      rw [seen]
      exact .stays

/-- The phase of the thread that makes a step. -/
theorem phase_of_step
    {before after : SessionThreads Thread}
    {event : ThreadEvent Thread SessionCall (Except Exception ApiResult) calls}
    (execution : Execution (Threads.Step memoryOf body) (Threads.idle {}) log
      before)
    (step : Threads.Step memoryOf body before event after) {watch : Watch}
    (atPhase : Threads.phases start observe (log ++ [event]) event.thread =
      some watch) :
    (∃ call, watch = start call) ∨
      ∃ earlier op answer, event = .performs event.thread ⟨op, answer⟩ ∧
        Threads.phases start observe log event.thread = some earlier ∧
        Moves earlier.phase ⟨op, answer⟩ watch.phase ∧
        before.shared.Answers op answer := by
  cases step with
  | calls thread call idle =>
      rw [Threads.phases_calls] at atPhase
      simp only [ThreadEvent.thread, Function.update_self] at atPhase
      cases atPhase
      exact Or.inl ⟨call, rfl⟩
  | @performs thread op next answer memory runs performed =>
      obtain ⟨earlier, atEarlier, allowed⟩ :=
        Threads.allowed_of_performs body_verified execution runs
      rw [Threads.phases_performs, atEarlier] at atPhase
      simp only [ThreadEvent.thread, Function.update_self] at atPhase
      cases atPhase
      exact Or.inr ⟨earlier, op, answer, rfl, atEarlier,
        moves_of_allowed answer allowed, performed.1⟩
  | returns thread runs =>
      rw [Threads.phases_returns] at atPhase
      simp only [ThreadEvent.thread, Function.update_self] at atPhase
      cases atPhase

omit [DecidableEq Thread] in
theorem start_phase (call : SessionCall) :
    (start call).phase ≠ .waiting ∧
      ∀ stage, (start call).phase ≠ .holding stage := by
  cases call with
  | prompt => exact ⟨nofun, nofun⟩
  | configure => exact ⟨nofun, nofun⟩
  | cancel => exact ⟨nofun, nofun⟩

/-- Nobody waits while an operation is committed or published. -/
theorem nobody_waits
    (execution : Execution (Threads.Step memoryOf body) (Threads.idle {}) log
      system)
    (undisturbed : Undisturbed log) {thread other : Thread} {watch : Watch}
    (waits : Waits log thread)
    (atPhase : Threads.phases start observe log other = some watch) :
    watch.phase ≠ .holding .committed ∧ watch.phase ≠ .holding .published := by
  induction execution generalizing thread other watch with
  | start =>
      obtain ⟨stack, none⟩ := waits
      cases none
  | @extend log before after event past last induction =>
      have quiet := @induction undisturbed.past
      obtain ⟨stack, waiting⟩ := waits
      by_cases own : other = thread
      · subst own
        rw [waiting] at atPhase
        cases atPhase
        exact ⟨nofun, nofun⟩
      by_cases waiter : thread = event.thread
      · -- The waiter made the step, so the other thread is where it was.
        subst waiter
        rw [phases_of_ne own] at atPhase
        rcases phase_of_step past last waiting with
          ⟨call, started⟩ |
          ⟨earlier, op, answer, performs, atEarlier, moves, answers⟩
        · exact absurd (congrArg Watch.phase started).symm (start_phase call).1
        · obtain ⟨phase, open_⟩ := earlier
          cases moves with
          | stays => exact quiet ⟨open_, atEarlier⟩ atPhase
          | waits look =>
              cases look
              have found : false = before.shared.pointer.isSome := answers
              have nothing : before.shared.pointer = none :=
                Option.not_isSome_iff_eq_none.mp (by simp [← found])
              obtain ⟨phase, others⟩ := watch
              constructor
              · rintro rfl
                exact undisturbed.looks log event.thread []
                  (congrArg (fun last => log ++ [last]) performs) other
                  ⟨others, atPhase⟩
              · rintro rfl
                have published := ((exclusive past).pointer other).mpr
                  ⟨_, atPhase, rfl⟩
                rw [nothing] at published
                cases published
      · rw [phases_of_ne waiter] at waiting
        by_cases actor : other = event.thread
        · subst actor
          have quietly := fun earlier =>
            @quiet thread event.thread earlier ⟨stack, waiting⟩
          rcases phase_of_step past last atPhase with
            ⟨call, rfl⟩ |
            ⟨earlier, op, answer, performs, atEarlier, moves, answers⟩
          · exact ⟨(start_phase call).2 _, (start_phase call).2 _⟩
          · obtain ⟨notCommitted, notPublished⟩ := quietly earlier atEarlier
            obtain ⟨phase, others⟩ := watch
            cases moves with
            | stays => exact ⟨notCommitted, notPublished⟩
            | enters stage unpublished =>
                constructor
                · rintro same
                  cases same
                  refine undisturbed.commits log event [] event.thread rfl ?_
                    ⟨others, atPhase⟩ thread ⟨stack, waiting⟩
                  rintro ⟨open_, committed⟩
                  rw [atEarlier] at committed
                  cases committed
                  exact notCommitted rfl
                · rintro same
                  cases same
                  exact unpublished rfl
            | publishes committed => exact absurd committed notCommitted
            | waits look => exact ⟨nofun, nofun⟩
            | finds => exact ⟨nofun, nofun⟩
            | ends => exact ⟨nofun, nofun⟩
        · rw [phases_of_ne actor] at atPhase
          exact quiet ⟨stack, waiting⟩ atPhase

/-- The calls of an operation that are open are those its observer knows. -/
theorem stack_eq_openCalls
    {thread : Thread} {call : SessionCall} {history : List CallEvent}
    {watch : Watch}
    (current : Threads.current log thread = some (call, history))
    (atPhase : Threads.phases start observe log thread = some watch) :
    watch.stack = openCalls history := by
  have folded : ∀ (events : List CallEvent) (watch : Watch),
      (events.foldl observe watch).stack =
        events.foldl (fun stack event => opened stack event.op) watch.stack := by
    intro events
    induction events with
    | nil => exact fun _ => rfl
    | cons event events induction => exact fun watch => induction _
  rw [Threads.phases, current] at atPhase
  cases atPhase
  rw [folded, openCalls]
  cases call <;> rfl

theorem not_before_after
    {phase : Phase} (started : ∀ stage, phase ≠ .before stage)
    (event : CallEvent) (other : Stage) : phase.after event ≠ .before other := by
  unfold Phase.after
  split
  · exact absurd rfl (started _)
  all_goals first | exact started other | nofun

omit [DecidableEq Thread] in
/-- An operation is in front of its lock only before its first step. -/
theorem not_before_foldl
    (events : List CallEvent) (watch : Watch)
    (started : ∀ stage, watch.phase ≠ .before stage) (stage : Stage) :
    (events.foldl observe watch).phase ≠ .before stage := by
  induction events generalizing watch with
  | nil => exact started stage
  | cons event events induction =>
      exact induction _ fun other => not_before_after started event other

/--
As long as no cancellation looks, or waits, while an operation holds the mutex
for a provider it has not published, no cancellation is blocked on the mutex
while its holder is inside a call of a provider or of a tool.
-/
theorem cancel_never_blocked_across_call
    (execution : Execution (Threads.Step memoryOf body) (Threads.idle {}) log
      system)
    (undisturbed : Undisturbed log) : ¬ BlockedAcrossCall log system := by
  rintro ⟨canceller, hasProvider, history, next, holder, operation, past, call,
    cancels, runs, held, holding, isOpen, blocking⟩
  obtain ⟨watch, atPhase, allowed⟩ :=
    Threads.allowed_of_performs body_verified execution runs
  have waits : Waits log canceller := by
    rcases allowed.1 with ⟨stage, before, -⟩ | waiting
    · rw [Threads.phases, cancels] at atPhase
      cases atPhase
      refine absurd before (not_before_foldl history _ ?_ stage)
      intro stage early
      cases early
    · obtain ⟨phase, stack⟩ := watch
      obtain rfl : phase = _ := waiting
      exact ⟨stack, atPhase⟩
  have holderPhase : Threads.phases start observe log holder =
      some (past.foldl observe (start operation)) := by
    rw [Threads.phases, holding]
    rfl
  have calls := stack_eq_openCalls holding holderPhase
  obtain ⟨notCommitted, notPublished⟩ :=
    nobody_waits execution undisturbed waits holderPhase
  have consistent := (exclusive execution).consistent holder _ holderPhase
  rw [← calls] at isOpen
  rcases consistent ⟨call, isOpen, blocking⟩ with committed | published
  · exact notCommitted committed
  · exact notPublished published

omit [DecidableEq Thread] in
theorem look_of_after
    {phase : Phase} {event : CallEvent} (waits : phase.after event = .waiting) :
    phase = .waiting ∨ event = ⟨.present, false⟩ := by
  unfold Phase.after at waits
  split at waits
  case h_7 => exact Or.inr rfl
  case h_9 => exact Or.inl waits
  all_goals cases waits

omit [DecidableEq Thread] in
theorem look_of_foldl
    {events : List CallEvent} {watch : Watch}
    (waits : (events.foldl observe watch).phase = .waiting)
    (started : watch.phase ≠ .waiting) :
    (⟨.present, false⟩ : CallEvent) ∈ events := by
  induction events generalizing watch with
  | nil => exact absurd waits started
  | cons event events induction =>
      by_cases look : event = ⟨.present, false⟩
      · subst look
        exact List.mem_cons_self
      · refine List.mem_cons_of_mem _ (induction waits ?_)
        intro waiting
        rcases look_of_after waiting with before | found
        · exact started before
        · exact look found

/-- A cancellation that waits has found nothing published. -/
theorem look_of_waits {thread : Thread} (waits : Waits log thread) :
    .performs thread ⟨.present, false⟩ ∈ log := by
  obtain ⟨stack, atPhase⟩ := waits
  obtain ⟨⟨call, history⟩, current, reached⟩ :=
    Option.map_eq_some_iff.mp atPhase
  have look := look_of_foldl (congrArg Watch.phase reached)
    (start_phase call).1
  obtain ⟨past, since, rfl, -, events⟩ := Threads.exists_of_current current
  rw [← events] at look
  exact List.mem_append_right _
    (List.mem_cons_of_mem _ (Threads.mem_eventsOf.mp look))

/-- The step is no look that finds nothing published. -/
def FindsPublished :
    ThreadEvent Thread SessionCall (Except Exception ApiResult) calls → Prop
  | .performs _ ⟨.present, found⟩ => found = true
  | _ => True

instance : DecidablePred (@FindsPublished Thread)
  | .performs _ ⟨.present, found⟩ => instDecidableEqBool found true
  | .performs _ ⟨.load, _⟩ | .performs _ ⟨.lock, _⟩ => .isTrue trivial
  | .performs _ ⟨.unlock, _⟩ | .performs _ ⟨.publish, _⟩ => .isTrue trivial
  | .performs _ ⟨.clear, _⟩ | .performs _ ⟨.enter _, _⟩ => .isTrue trivial
  | .performs _ ⟨.leave _, _⟩ => .isTrue trivial
  | .calls _ _ | .returns _ _ => .isTrue trivial

/-- A log is undisturbed when every cancellation finds a published provider. -/
theorem undisturbed_of_found
    (found : ∀ event ∈ log, FindsPublished event) : Undisturbed log where
  looks past thread future split := by
    have impossible := found (.performs thread ⟨.present, false⟩)
      (by simp [split])
    cases impossible
  commits past event future other split notYet commits thread waits := by
    have impossible := found (.performs thread ⟨.present, false⟩)
      (split ▸ List.mem_append_left _ (look_of_waits waits))
    cases impossible

end Waiting

/-! ## A cancellation during discovery, and one during a turn -/

/-- The memory answers for itself; nothing happens inside a call. -/
def responses :
    Threads.Responses Bool SessionCall (Except Exception ApiResult)
      (Memory Bool) calls :=
  fun _ thread memory op =>
    match op with
    | .lock =>
        if memory.holder.isNone then some ((), memory.update thread .lock)
        else none
    | .present => some (memory.pointer.isSome, memory.update thread .present)
    | op => some (quiet op, memory.update thread op)

theorem responses_perform
    (log : SessionLog Bool) (thread : Bool) (memory : Memory Bool)
    (op : CallOp) (answer : calls.Answer op) (after : Memory Bool)
    (responded : responses log thread memory op = some (answer, after)) :
    (memoryOf thread).perform memory op answer after := by
  cases op with
  | lock =>
      simp only [responses] at responded
      split at responded
      · rename_i free
        cases responded
        exact ⟨Option.isNone_iff_eq_none.mp free, rfl⟩
      · cases responded
  | _ =>
      cases responded
      exact ⟨by first | rfl | trivial, rfl⟩

/-- A provider is being configured when the session is cancelled. -/
def cancelledDiscovery : Threads.Played Bool SessionCall
    (Except Exception ApiResult) (Memory Bool) calls :=
  Threads.play responses body {}
    [.starts true (.configure true "key" false), .continues true,
      .continues true, .starts false (.cancel true), .continues false]

/-- The cancellation waits for the mutex across the listing of the models. -/
theorem cancel_blocked_across_listing :
    ¬ ∀ (log : SessionLog Bool) (system : SessionThreads Bool),
      Execution (Threads.Step memoryOf body) (Threads.idle {}) log system →
        ¬ BlockedAcrossCall log system := by
  intro never
  refine never cancelledDiscovery.log cancelledDiscovery.system
    (Threads.play_execution responses_perform _) ?_
  exact ⟨false, true, _, _, true, .configure true "key" false, _,
    .listModels "key", rfl, rfl, rfl, rfl, List.mem_cons_self, rfl⟩

/-- A turn is in progress when the session is cancelled. -/
def cancelledTurn : Threads.Played Bool SessionCall
    (Except Exception ApiResult) (Memory Bool) calls :=
  Threads.play responses body {}
    ([.starts true
        (.prompt { apiKey := "key", activeModel := "model" } false false false
          "Help")] ++
      List.replicate 5 (.continues true) ++
      [.starts false (.cancel true), .continues false, .continues false])

theorem cancel_never_blocked_across_call_cancelledTurn :
    ¬ BlockedAcrossCall cancelledTurn.log cancelledTurn.system := by
  refine cancel_never_blocked_across_call
    (Threads.play_execution responses_perform _) (undisturbed_of_found ?_)
  decide +kernel

example : cancelledTurn.log.length = 9 := by decide +kernel

end ArnCore.Agent.CancelWait
