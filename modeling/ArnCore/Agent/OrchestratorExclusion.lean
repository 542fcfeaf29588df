import ArnCore.Agent.OrchestratorProtocol
import ArnCore.Agent.SharedMemory
import ArnCore.Interaction.Ownership

/-!
# Mutual exclusion in the orchestrator

Any number of threads call `execute`, `execute_agent` and
`cancel_active_execution` of one orchestrator, in any interleaving and with any
exceptions.  The pointer that a cancellation follows refers to the runtime of
the stage in progress, from its publication to the end of its execution.
-/

namespace ArnCore.Agent.OrchestratorExclusion

open ArnCore.Interaction
open ArnCore.Interaction.Ownership
open ArnCore.Agent.Environment
open ArnCore.Agent.OrchestratorProtocol
open ArnCore.Agent.SharedMemory

variable {Thread : Type}

/-! ## The invariant -/

/-- The gate is open and nothing is left behind. -/
structure AtRest (memory : Memory Thread) : Prop where
  executing : memory.flags .orchestratorExecuting = false
  runtime : memory.alive .runtime = none
  active : memory.pointers .activeRuntime = none

/-- The gate is closed, and the memory shows the scope of the execution. -/
structure Shows (thread : Thread) (scope : Scope)
    (memory : Memory Thread) : Prop where
  executing : memory.flags .orchestratorExecuting = true
  runtime : memory.alive .runtime = owned thread scope.runtime
  active : memory.pointers .activeRuntime = owned thread scope.active
  valid : scope.Valid

/-- The phases of all calls against the shared memory. -/
structure Exclusive (phases : Thread → Option Phase)
    (memory : Memory Thread) : Prop where
  gate : Gated Phase.gated AtRest Shows phases memory
  holder : HeldBy Phase.holdsMutex phases (memory.holder .orchestrator)
  found : ∀ thread, phases thread = some (.inspecting (some true)) →
    memory.pointers .activeRuntime ≠ none

/-- What a step outside the gate leaves alone. -/
structure Unchanged (memory after : Memory Thread) : Prop where
  executing :
    after.flags .orchestratorExecuting = memory.flags .orchestratorExecuting
  runtime : after.alive .runtime = memory.alive .runtime
  active : after.pointers .activeRuntime = memory.pointers .activeRuntime

theorem gated_injective : Function.Injective Phase.gated :=
  fun _ _ same => Phase.gated.inj same

/-! ## Preservation -/

section Preservation

variable [DecidableEq Thread] {phases : Thread → Option Phase}
  {memory after : Memory Thread} {thread : Thread} {scope : Scope}
  {op : AgentOp}

omit [DecidableEq Thread] in
theorem AtRest.unchanged
    (rest : AtRest memory) (unchanged : Unchanged memory after) :
    AtRest after where
  executing := unchanged.executing.trans rest.executing
  runtime := unchanged.runtime.trans rest.runtime
  active := unchanged.active.trans rest.active

omit [DecidableEq Thread] in
theorem Shows.unchanged
    (shown : Shows thread scope memory)
    (unchanged : Unchanged memory after) :
    Shows thread scope after where
  executing := unchanged.executing.trans shown.executing
  runtime := unchanged.runtime.trans shown.runtime
  active := unchanged.active.trans shown.active
  valid := shown.valid

omit [DecidableEq Thread] in
/-- The memory follows the scope of the execution past the gate. -/
theorem Shows.moves
    (shown : Shows thread scope memory) (allowed : scope.Allows op)
    (stays : ∀ value, op ≠ .store .orchestratorExecuting value) :
    Shows thread (scope.after op) (memory.update thread op) where
  executing := by
    cases op with
    | store flag value =>
        cases flag with
        | orchestratorExecuting => exact absurd rfl (stays value)
        | _ => exact shown.executing
    | exchange flag value => exact allowed.elim
    | _ => exact shown.executing
  runtime := by
    cases op with
    | construct name => cases name <;> first | rfl | exact shown.runtime
    | destroy name => cases name <;> first | rfl | exact shown.runtime
    | lock name => cases name <;> exact shown.runtime
    | unlock name => cases name <;> exact shown.runtime
    | publish name => cases name <;> exact shown.runtime
    | clear name => cases name <;> exact shown.runtime
    | _ => exact shown.runtime
  active := by
    cases op with
    | publish name => cases name <;> first | rfl | exact shown.active
    | clear name => cases name <;> first | rfl | exact shown.active
    | lock name => cases name <;> exact shown.active
    | unlock name => cases name <;> exact shown.active
    | construct name => cases name <;> exact shown.active
    | destroy name => cases name <;> exact shown.active
    | _ => exact shown.active
  valid := shown.valid.after allowed

/-- Who finds a runtime keeps the mutex, so nobody clears the pointer. -/
theorem found_kept
    {next : Option Phase}
    (exclusive : Exclusive phases memory)
    (silent : next ≠ some (.inspecting (some true)))
    (active : (∃ other, other ≠ thread ∧
        phases other = some (.inspecting (some true))) →
      after.pointers .activeRuntime = memory.pointers .activeRuntime) :
    ∀ other,
      Function.update phases thread next other =
          some (.inspecting (some true)) →
        after.pointers .activeRuntime ≠ none := by
  intro other inspecting
  by_cases own : other = thread
  · subst own
    rw [Function.update_self] at inspecting
    exact absurd inspecting silent
  · rw [Function.update_of_ne own] at inspecting
    rw [active ⟨other, own, inspecting⟩]
    exact exclusive.found other inspecting

/-- A step of a call that is not past the gate. -/
theorem Exclusive.outside
    {next : Option Phase}
    (exclusive : Exclusive phases memory)
    (before : ∀ scope, phases thread ≠ some (.gated scope))
    (later : ∀ scope, next ≠ some (.gated scope))
    (unchanged : Unchanged memory after)
    (holder : HeldBy Phase.holdsMutex (Function.update phases thread next)
      (after.holder .orchestrator))
    (found : next = some (.inspecting (some true)) →
      memory.pointers .activeRuntime ≠ none) :
    Exclusive (Function.update phases thread next) after where
  gate := exclusive.gate.outside before later
    (fun rest => rest.unchanged unchanged)
    (fun _ _ shown => shown.unchanged unchanged)
  holder := holder
  found := by
    intro other inspecting
    rw [unchanged.active]
    by_cases own : other = thread
    · subst own
      rw [Function.update_self] at inspecting
      exact found inspecting
    · rw [Function.update_of_ne own] at inspecting
      exact exclusive.found other inspecting

omit [DecidableEq Thread] in
/-- The pointer to the runtime changes under the mutex only. -/
theorem pointer_of_free
    (allowed : scope.Allows op) (free : scope.holding = false) :
    (memory.update thread op).pointers .activeRuntime =
      memory.pointers .activeRuntime := by
  cases op with
  | publish name =>
      cases name with
      | activeRuntime => exact absurd (free.symm.trans allowed.1) nofun
      | _ => rfl
  | clear name =>
      cases name with
      | activeRuntime => exact absurd (free.symm.trans allowed) nofun
      | _ => rfl
  | _ => rfl

/-- The execution past the gate takes and releases the mutex itself. -/
theorem heldBy_inside
    {answer : agents.Answer op}
    (held : HeldBy Phase.holdsMutex phases (memory.holder .orchestrator))
    (gated : phases thread = some (.gated scope))
    (allowed : scope.Allows op) (answers : memory.Answers op answer) :
    HeldBy Phase.holdsMutex
      (Function.update phases thread (some (.gated (scope.after op))))
      ((memory.update thread op).holder .orchestrator) := by
  have keeps : (scope.after op).holding = scope.holding →
      HeldBy Phase.holdsMutex
        (Function.update phases thread (some (.gated (scope.after op))))
        (memory.holder .orchestrator) := by
    intro same
    apply held.kept
    rw [gated]
    simp only [Option.some.injEq, exists_eq_left', Phase.holdsMutex, same]
  cases op with
  | lock name =>
      cases name with
      | orchestrator =>
          have free : memory.holder .orchestrator = none := answers
          rw [free] at held
          exact held.taken rfl
      | _ => exact keeps rfl
  | unlock name =>
      cases name with
      | orchestrator => exact held.released ⟨_, gated, allowed⟩ rfl
      | _ => exact keeps rfl
  | publish name => cases name <;> exact keeps rfl
  | clear name => cases name <;> exact keeps rfl
  | construct name => cases name <;> exact keeps rfl
  | destroy name => cases name <;> exact keeps rfl
  | _ => exact keeps rfl

/-- A step of the execution that is past the gate. -/
theorem Exclusive.inside
    {answer : agents.Answer op}
    (exclusive : Exclusive phases memory)
    (gated : phases thread = some (.gated scope))
    (allowed : scope.Allows op) (answers : memory.Answers op answer)
    (stays : ∀ value, op ≠ .store .orchestratorExecuting value) :
    Exclusive (Function.update phases thread (some (.gated (scope.after op))))
      (memory.update thread op) where
  gate := exclusive.gate.moves gated
    ((exclusive.gate.shown gated_injective gated).moves allowed stays)
  holder := heldBy_inside exclusive.holder gated allowed answers
  found := by
    apply found_kept exclusive
    · exact nofun
    · rintro ⟨other, different, inspecting⟩
      apply pointer_of_free allowed
      by_contra holding
      rw [Bool.not_eq_false] at holding
      exact different (exclusive.holder.unique inspecting rfl gated holding)

/-- The execution past the gate opens it again, with nothing left behind. -/
theorem Exclusive.opens
    (exclusive : Exclusive phases memory)
    (gated : phases thread = some (.gated {})) :
    Exclusive (Function.update phases thread (some .released))
      (memory.update thread (.store .orchestratorExecuting false)) where
  gate := by
    have shown := exclusive.gate.shown gated_injective gated
    apply exclusive.gate.leaves gated
    · exact nofun
    · exact ⟨rfl, shown.runtime, shown.active⟩
  holder := by
    apply exclusive.holder.kept
    rw [gated]
    simp [Phase.holdsMutex]
  found := found_kept exclusive nofun fun _ => rfl

/-- An execution passes the open gate. -/
theorem Exclusive.enters
    {refusal : OrchestratorReturn}
    (exclusive : Exclusive phases memory)
    (entering : phases thread = some (.entering refusal))
    (open_ : memory.flags .orchestratorExecuting = false) :
    Exclusive (Function.update phases thread (some (.gated {})))
      (memory.update thread (.exchange .orchestratorExecuting true)) where
  gate := by
    apply exclusive.gate.enters
    · intro owner scope shown
      exact absurd (open_.symm.trans shown.executing) nofun
    · exact fun rest => ⟨rfl, rest.runtime, rest.active, nofun⟩
  holder := by
    apply exclusive.holder.kept
    rw [entering]
    simp [Phase.holdsMutex]
  found := found_kept exclusive nofun fun _ => rfl

/-- A cancellation holds the mutex until it has forwarded the request. -/
theorem Exclusive.inspects
    {found : Option Bool} {answer : agents.Answer op}
    (exclusive : Exclusive phases memory)
    (atPhase : phases thread = some (.inspecting found))
    (allowed : Allowed (.inspecting found) op)
    (answers : memory.Answers op answer) :
    Exclusive
      (Function.update phases thread
        (some (observe (.inspecting found) ⟨op, answer⟩)))
      (memory.update thread op) := by
  have same : Unchanged memory memory := ⟨rfl, rfl, rfl⟩
  have notGated : ∀ scope, phases thread ≠ some (.gated scope) := by
    rw [atPhase]
    exact nofun
  cases found with
  | none =>
      cases allowed
      refine exclusive.outside notGated ?_ same ?_ ?_
      · exact nofun
      · apply exclusive.holder.kept
        rw [atPhase]
        simp [Phase.holdsMutex, observe]
      · intro inspects
        have present : answer = true := by
          cases answer with
          | false => cases inspects
          | true => rfl
        have some_ : (memory.pointers .activeRuntime).isSome = true := by
          rw [← present]
          exact answers.symm
        exact Option.isSome_iff_ne_none.mp some_
  | some found =>
      rcases allowed with rfl | ⟨rfl, rfl⟩
      · refine exclusive.outside notGated ?_ ⟨rfl, rfl, rfl⟩ ?_ ?_
        · exact nofun
        · exact exclusive.holder.released ⟨_, atPhase, rfl⟩ rfl
        · exact nofun
      · refine exclusive.outside notGated ?_ same ?_ ?_
        · exact nofun
        · apply exclusive.holder.kept
          rw [atPhase]
          rfl
        · exact fun _ => exclusive.found thread atPhase

theorem exclusive_performs
    {phase : Phase} {answer : agents.Answer op}
    (exclusive : Exclusive phases memory)
    (atPhase : phases thread = some phase) (allowed : Allowed phase op)
    (performed : (memoryOf thread).perform memory op answer after) :
    Exclusive
      (Function.update phases thread (some (observe phase ⟨op, answer⟩)))
      after := by
  obtain ⟨answers, rfl⟩ := performed
  cases phase with
  | gated scope =>
      by_cases stays : ∀ value, op ≠ .store .orchestratorExecuting value
      · rw [observe_gated stays]
        exact exclusive.inside atPhase allowed answers stays
      · obtain ⟨value, same⟩ := not_forall.mp stays
        rw [ne_eq, not_not] at same
        subst same
        cases value with
        | true => exact allowed.elim
        | false =>
            have left : scope = {} := allowed
            subst left
            exact exclusive.opens atPhase
  | entering refusal =>
      cases allowed
      cases busy : memory.flags .orchestratorExecuting with
      | false =>
          have passed : answer = false := answers.trans busy
          subst passed
          exact exclusive.enters atPhase busy
      | true =>
          have refused : answer = true := answers.trans busy
          subst refused
          refine exclusive.outside ?_ ?_ ⟨busy.symm, rfl, rfl⟩ ?_ ?_
          · rw [atPhase]
            exact nofun
          · exact nofun
          · apply exclusive.holder.kept
            rw [atPhase]
            simp [Phase.holdsMutex, observe]
          · exact nofun
  | storing =>
      cases allowed
      refine exclusive.outside ?_ ?_ ⟨rfl, rfl, rfl⟩ ?_ ?_
      · rw [atPhase]
        exact nofun
      · exact nofun
      · apply exclusive.holder.kept
        rw [atPhase]
        simp [Phase.holdsMutex, observe]
      · exact nofun
  | waiting =>
      cases allowed
      have free : memory.holder .orchestrator = none := answers
      have held := exclusive.holder
      rw [free] at held
      refine exclusive.outside ?_ ?_ ⟨rfl, rfl, rfl⟩ ?_ ?_
      · rw [atPhase]
        exact nofun
      · exact nofun
      · exact held.taken rfl
      · exact nofun
  | inspecting found => exact exclusive.inspects atPhase allowed answers
  | refused refusal => exact allowed.elim
  | released => exact allowed.elim
  | left => exact allowed.elim

end Preservation

/-! ## The interleavings -/

/-- The histories of all threads, interleaved. -/
abbrev OrchestratorLog (Thread : Type) :=
  List (ThreadEvent Thread OrchestratorCall OrchestratorReturn agents)

/-- The programs of all threads, over the shared memory. -/
abbrev OrchestratorThreads (Thread : Type) :=
  Threads Thread OrchestratorReturn (Memory Thread) agents

section Interleavings

variable [DecidableEq Thread] {registry : AgentRegistry} {hasFactory : Bool}
  {log : OrchestratorLog Thread} {system : OrchestratorThreads Thread}

/-- The invariant holds in every interleaving. -/
theorem exclusive
    (execution : Execution
      (Threads.Step memoryOf (body registry hasFactory))
      (Threads.idle {}) log system) :
    Exclusive (Threads.phases start observe log) system.shared := by
  refine Threads.invariant (body_verified registry hasFactory) ?_ ?_ ?_ ?_
    execution
  · refine ⟨.opened ?_ ⟨rfl, rfl, rfl⟩, HeldBy.idle, ?_⟩
    · rintro thread scope ⟨⟩
    · rintro thread ⟨⟩
  · intro phases memory thread call exclusive idle
    refine exclusive.outside ?_ ?_ ⟨rfl, rfl, rfl⟩ ?_ ?_
    · rw [idle]
      rintro scope ⟨⟩
    · cases call <;> rintro scope ⟨⟩
    · apply exclusive.holder.kept
      rw [idle]
      cases call <;> simp [start, refusal, Phase.holdsMutex]
    · cases call <;> rintro ⟨⟩
  · intro phases memory thread phase op answer after exclusive atPhase
      allowed performed
    exact exclusive_performs exclusive atPhase allowed performed
  · intro phases memory thread phase value exclusive atPhase ends
    refine exclusive.outside ?_ ?_ ⟨rfl, rfl, rfl⟩ ?_ ?_
    · rw [atPhase]
      rintro scope ⟨⟩
      exact ends
    · rintro scope ⟨⟩
    · apply exclusive.holder.kept
      rw [atPhase]
      cases phase <;> simp_all [Post, Phase.holdsMutex]
    · rintro ⟨⟩

/-- The gate in the history agrees with the phases of the protocol. -/
theorem pastGate_iff
    (execution : Execution
      (Threads.Step memoryOf (body registry hasFactory))
      (Threads.idle {}) log system)
    (thread : Thread) :
    PastGate .orchestratorExecuting log thread ↔
      ∃ phase, Threads.phases start observe log thread = some phase ∧
        phase.IsGated := by
  refine Threads.within_iff (body_verified registry hasFactory) ?_
    observe_gated_iff ?_ execution thread
  · rintro (_ | _ | _) ⟨scope, ⟨⟩⟩
  · rintro phase value ends ⟨scope, rfl⟩
    exact ends

/--
One orchestrator and all of its callers: who is past the gate, what the pointer
refers to, and which runtimes the calls use.
-/
structure MutuallyExclusive (registry : AgentRegistry) (hasFactory : Bool)
    (log : OrchestratorLog Thread) (system : OrchestratorThreads Thread) :
    Prop where
  /-- At most one call is past the gate. -/
  atMostOne : ∀ thread other, PastGate .orchestratorExecuting log thread →
    PastGate .orchestratorExecuting log other → thread = other
  /-- A refused call changes nothing, and all that is left is to return. -/
  refused : ∀ thread call history after,
    Threads.current log thread = some (call, history) →
      Threads.Step memoryOf (body registry hasFactory) system
          (.performs thread ⟨.exchange .orchestratorExecuting true, true⟩)
          after →
        after.shared = system.shared ∧
          ∃ value, refusal call = some value ∧
            after.running thread = some (.done value)
  /--
  The pointer is set only while a call is past the gate, and it refers to the
  runtime of that call, which is not destroyed yet.
  -/
  pointer : ∀ owner, system.shared.pointers .activeRuntime = some owner →
    PastGate .orchestratorExecuting log owner ∧
      system.shared.alive .runtime = some owner
  /-- A used runtime is alive, and it is the user's own or the published one. -/
  uses : ∀ thread op next,
    system.running thread = some (.call op next) → Uses op .runtime →
      ∃ owner, PastGate .orchestratorExecuting log owner ∧
        system.shared.alive .runtime = some owner ∧
        (thread = owner ∨
          system.shared.pointers .activeRuntime = some owner)
  /-- When nobody is past the gate, it is open and nothing is left behind. -/
  atRest : (∀ thread, ¬ PastGate .orchestratorExecuting log thread) →
    AtRest system.shared
  /-- A call that has returned is not past the gate. -/
  returned : ∀ thread, system.running thread = none →
    ¬ PastGate .orchestratorExecuting log thread

/-- The next step of a refused call is its return. -/
theorem refused_step
    (execution : Execution
      (Threads.Step memoryOf (body registry hasFactory))
      (Threads.idle {}) log system)
    {thread : Thread} {call : OrchestratorCall} {history : List AgentEvent}
    {after : OrchestratorThreads Thread}
    (current : Threads.current log thread = some (call, history))
    (step : Threads.Step memoryOf (body registry hasFactory) system
      (.performs thread ⟨.exchange .orchestratorExecuting true, true⟩)
      after) :
    after.shared = system.shared ∧
      ∃ value, refusal call = some value ∧
        after.running thread = some (.done value) := by
  have verified := body_verified registry hasFactory
  have extended := execution.extend step
  cases step with
  | @performs _ op next answer memory runs performed =>
      obtain ⟨phase, atPhase, allowed⟩ :=
        Threads.allowed_of_performs verified execution runs
      obtain ⟨value, rfl⟩ := entering_of_exchange allowed
      have refuses : refusal call = some value := by
        rw [Threads.phases, current] at atPhase
        exact refusal_of_entering (Option.some.inj atPhase)
      refine ⟨?_, value, refuses, ?_⟩
      · obtain ⟨answers, rfl⟩ := performed
        exact Memory.update_exchange_self thread answers.symm
      · show Function.update system.running thread (some (next true)) thread
          = some (.done value)
        rw [Function.update_self]
        have refusedPhase :
            Threads.phases start observe
                (log ++ [.performs thread
                  ⟨.exchange .orchestratorExecuting true, true⟩]) thread =
              some (.refused value) := by
          rw [Threads.phases_performs, Function.update_self, atPhase]
          rfl
        cases rest : next true with
        | call op further =>
            have running : (Function.update system.running thread
                (some (next true))) thread = some (.call op further) := by
              rw [Function.update_self, rest]
            obtain ⟨phase, same, permitted⟩ :=
              Threads.allowed_of_performs verified extended running
            rw [refusedPhase] at same
            cases same
            exact permitted.elim
        | done returned =>
            have running : (Function.update system.running thread
                (some (next true))) thread = some (.done returned) := by
              rw [Function.update_self, rest]
            obtain ⟨phase, same, ends⟩ :=
              Threads.post_of_returns verified extended running
            rw [refusedPhase] at same
            cases same
            have equal : returned = value := ends
            rw [equal]

end Interleavings

section Consequences

variable {phases : Thread → Option Phase} {memory : Memory Thread}

/-- The pointer, when it is set, refers to the runtime of the call inside. -/
theorem Exclusive.owner_of_pointer
    (exclusive : Exclusive phases memory) {owner : Thread}
    (published : memory.pointers .activeRuntime = some owner) :
    ∃ scope, phases owner = some (.gated scope) ∧
      memory.alive .runtime = some owner := by
  cases exclusive.gate with
  | opened nobody rest =>
      rw [rest.active] at published
      cases published
  | closed thread scope atPhase alone shown =>
      rw [shown.active, owned_eq_some] at published
      rcases published with ⟨active, rfl⟩
      refine ⟨scope, atPhase, ?_⟩
      rw [shown.runtime, shown.valid active]
      rfl

/-- A runtime that a call is about to use is alive. -/
theorem Exclusive.owner_of_used
    (exclusive : Exclusive phases memory) {thread : Thread} {phase : Phase}
    {op : AgentOp} (atPhase : phases thread = some phase)
    (allowed : Allowed phase op) (uses : Uses op .runtime) :
    ∃ owner scope, phases owner = some (.gated scope) ∧
      memory.alive .runtime = some owner ∧
      (thread = owner ∨ memory.pointers .activeRuntime = some owner) := by
  cases phase with
  | gated scope =>
      have shown := exclusive.gate.shown gated_injective atPhase
      have constructed : scope.runtime = true := by
        cases op with
        | publish name =>
            cases name with
            | activeRuntime => exact allowed.2
            | _ => exact allowed.elim
        | executeRuntime context =>
            rw [show scope = { runtime := true, active := true } from allowed]
        | cancelRuntime => exact allowed.elim
        | load flag =>
            cases flag <;> first | exact uses.elim | exact nomatch uses
        | store flag value =>
            cases flag <;> first | exact uses.elim | exact nomatch uses
        | lock name =>
            cases name <;> first | exact uses.elim | exact nomatch uses
        | unlock name =>
            cases name <;> first | exact uses.elim | exact nomatch uses
        | clear name =>
            cases name <;> first | exact uses.elim | exact nomatch uses
        | present name =>
            cases name <;> first | exact uses.elim | exact nomatch uses
        | _ => exact uses.elim
      refine ⟨thread, scope, atPhase, ?_, Or.inl rfl⟩
      rw [shown.runtime, constructed]
      rfl
  | inspecting found =>
      cases found with
      | none =>
          cases allowed
          exact uses.elim
      | some found =>
          rcases allowed with rfl | ⟨rfl, rfl⟩
          · exact uses.elim
          · obtain ⟨owner, published⟩ := Option.ne_none_iff_exists'.mp
              (exclusive.found thread atPhase)
            obtain ⟨scope, ownPhase, alive⟩ :=
              exclusive.owner_of_pointer published
            exact ⟨owner, scope, ownPhase, alive, Or.inr published⟩
  | entering refusal =>
      cases allowed
      exact uses.elim
  | storing =>
      cases allowed
      exact uses.elim
  | waiting =>
      cases allowed
      exact uses.elim
  | refused refusal => exact allowed.elim
  | released => exact allowed.elim
  | left => exact allowed.elim

end Consequences

section Result

variable [DecidableEq Thread]

/--
In every interleaving of executions and cancellations of one orchestrator, with
any answers and exceptions of its environment, the executions exclude each
other, a refused one changes nothing, and a cancellation never follows a
pointer to a runtime that is gone.
-/
theorem orchestrator_mutually_exclusive
    (registry : AgentRegistry) (hasFactory : Bool)
    (log : OrchestratorLog Thread) (system : OrchestratorThreads Thread)
    (execution : Execution
      (Threads.Step memoryOf (body registry hasFactory))
      (Threads.idle {}) log system) :
    MutuallyExclusive registry hasFactory log system := by
  have verified := body_verified registry hasFactory
  have inv := exclusive execution
  have gated : ∀ {thread scope},
      Threads.phases start observe log thread = some (.gated scope) →
        PastGate .orchestratorExecuting log thread :=
    fun atPhase => (pastGate_iff execution _).mpr ⟨_, atPhase, _, rfl⟩
  constructor
  · intro thread other first second
    obtain ⟨_, firstPhase, _, rfl⟩ := (pastGate_iff execution _).mp first
    obtain ⟨_, secondPhase, _, rfl⟩ := (pastGate_iff execution _).mp second
    exact inv.gate.unique firstPhase secondPhase
  · intro thread call history after current step
    exact refused_step execution current step
  · intro owner published
    obtain ⟨scope, atPhase, alive⟩ := inv.owner_of_pointer published
    exact ⟨gated atPhase, alive⟩
  · intro thread op next runs uses
    obtain ⟨phase, atPhase, allowed⟩ :=
      Threads.allowed_of_performs verified execution runs
    obtain ⟨owner, scope, ownPhase, alive, own⟩ :=
      inv.owner_of_used atPhase allowed uses
    exact ⟨owner, gated ownPhase, alive, own⟩
  · intro nobody
    cases inv.gate with
    | opened _ rest => exact rest
    | closed owner scope atPhase alone shown =>
        exact absurd (gated atPhase) (nobody owner)
  · intro thread idle past
    obtain ⟨phase, atPhase, _⟩ := (pastGate_iff execution thread).mp past
    have none_ : Threads.phases start observe log thread = none :=
      Threads.phases_of_idle execution idle
    rw [none_] at atPhase
    cases atPhase

end Result

/-! ## A cancellation while a stage runs -/

/-- A registry with one profile. -/
def oneProfile : AgentRegistry :=
  (AgentRegistry.empty.registerProfile { id := "helper" }).2

/--
One agent is executed; a second execution is refused, and a cancellation
reaches the runtime of the first before it returns.
-/
def cancelledStage : Threads.Played Bool OrchestratorCall OrchestratorReturn
    (Memory Bool) agents :=
  Threads.play (scheduled fun _ _ => quiet) (body oneProfile true) {}
    ([.starts true (.executeAgent "helper"
        { id := "t", objective := "Help", workingDirectory := "/w" }
        false false false)] ++
      List.replicate 8 (.continues true) ++
      [.starts false (.executeAgent "helper"
          { id := "u", objective := "Help", workingDirectory := "/w" }
          false false false),
        .continues false, .continues false,
        .starts false .cancel] ++
      List.replicate 6 (.continues false) ++
      List.replicate 8 (.continues true))

example : cancelledStage.log.length = 27 := by decide +kernel

theorem orchestrator_mutually_exclusive_cancelled :
    MutuallyExclusive oneProfile true cancelledStage.log
      cancelledStage.system :=
  orchestrator_mutually_exclusive oneProfile true _ _
    (Threads.play_execution (scheduled_performs fun _ _ => quiet) _)

end ArnCore.Agent.OrchestratorExclusion
