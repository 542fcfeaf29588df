import ArnCore.Agent.RuntimeProtocol
import ArnCore.Agent.SharedMemory
import ArnCore.Interaction.Ownership

/-!
# Mutual exclusion in the runtime

Any number of threads call `execute` and `cancel_active_request` of one
runtime, in any interleaving and with any exceptions.  The invariant speaks
about the phases of the calls and the shared memory; what a phase allows was
shown of the programs once.
-/

namespace ArnCore.Agent.RuntimeExclusion

open ArnCore.Interaction
open ArnCore.Interaction.Ownership
open ArnCore.Provider
open ArnCore.Tool
open ArnCore.Agent.Environment
open ArnCore.Agent.ExposedTools
open ArnCore.Agent.PromptDiscipline
open ArnCore.Agent.RuntimeProtocol
open ArnCore.Agent.SharedMemory

variable {Thread : Type}

/-! ## The invariant -/

/-- The memory shows what the execution past the gate has done. -/
structure Mirrors (memory : Memory Thread) (thread : Thread)
    (scope : Scope) : Prop where
  session : memory.alive .session = owned thread scope.session
  cancelled : memory.alive .cancelled = owned thread scope.cancelled
  active : memory.pointers .activeSession = owned thread scope.active
  activeCancel :
    memory.pointers .activeCancel = owned thread scope.activeCancel

/-- Nothing of an execution is left in the memory. -/
structure Vacant (memory : Memory Thread) : Prop where
  session : memory.alive .session = none
  cancelled : memory.alive .cancelled = none
  active : memory.pointers .activeSession = none
  activeCancel : memory.pointers .activeCancel = none

/-- The gate is open and nothing is left behind. -/
structure AtRest (memory : Memory Thread) : Prop where
  executing : memory.flags .runtimeExecuting = false
  vacant : Vacant memory

/-- The gate is closed, and the memory shows the scope of the execution. -/
structure Shows (thread : Thread) (scope : Scope)
    (memory : Memory Thread) : Prop where
  executing : memory.flags .runtimeExecuting = true
  mirrors : Mirrors memory thread scope
  valid : scope.Valid

/-- The phases of all calls against the shared memory. -/
structure Exclusive (phases : Thread → Option Phase)
    (memory : Memory Thread) : Prop where
  gate : Gated Phase.gated AtRest Shows phases memory
  holder : HeldBy Phase.holdsMutex phases (memory.holder .runtime)
  found : ∀ thread, phases thread = some (.inspecting (some true)) →
    memory.pointers .activeSession ≠ none

theorem Mirrors.update
    {memory : Memory Thread} {thread : Thread} {scope : Scope}
    (mirrors : Mirrors memory thread scope) (op : AgentOp) :
    Mirrors (memory.update thread op) thread (scope.after op) := by
  cases op with
  | publish name =>
      cases name with
      | activeSession =>
          exact ⟨mirrors.session, mirrors.cancelled, rfl,
            mirrors.activeCancel⟩
      | activeCancel =>
          exact ⟨mirrors.session, mirrors.cancelled, mirrors.active, rfl⟩
      | _ => exact ⟨mirrors.session, mirrors.cancelled, mirrors.active,
          mirrors.activeCancel⟩
  | clear name =>
      cases name with
      | activeSession =>
          exact ⟨mirrors.session, mirrors.cancelled, rfl,
            mirrors.activeCancel⟩
      | activeCancel =>
          exact ⟨mirrors.session, mirrors.cancelled, mirrors.active, rfl⟩
      | _ => exact ⟨mirrors.session, mirrors.cancelled, mirrors.active,
          mirrors.activeCancel⟩
  | construct name =>
      cases name with
      | session =>
          exact ⟨rfl, mirrors.cancelled, mirrors.active,
            mirrors.activeCancel⟩
      | cancelled =>
          exact ⟨mirrors.session, rfl, mirrors.active, mirrors.activeCancel⟩
      | runtime => exact ⟨mirrors.session, mirrors.cancelled, mirrors.active,
          mirrors.activeCancel⟩
  | destroy name =>
      cases name with
      | session =>
          exact ⟨rfl, mirrors.cancelled, mirrors.active,
            mirrors.activeCancel⟩
      | cancelled =>
          exact ⟨mirrors.session, rfl, mirrors.active, mirrors.activeCancel⟩
      | runtime => exact ⟨mirrors.session, mirrors.cancelled, mirrors.active,
          mirrors.activeCancel⟩
  | store flag value =>
      cases flag <;> cases value <;> exact ⟨mirrors.session,
        mirrors.cancelled, mirrors.active, mirrors.activeCancel⟩
  | lock name =>
      cases name <;> exact ⟨mirrors.session, mirrors.cancelled,
        mirrors.active, mirrors.activeCancel⟩
  | unlock name =>
      cases name <;> exact ⟨mirrors.session, mirrors.cancelled,
        mirrors.active, mirrors.activeCancel⟩
  | _ => exact ⟨mirrors.session, mirrors.cancelled, mirrors.active,
      mirrors.activeCancel⟩

/-! ## Preservation -/

section Preservation

variable [DecidableEq Thread] {phases : Thread → Option Phase}
  {memory after : Memory Thread} {thread : Thread}

theorem gated_injective : Function.Injective Phase.gated :=
  fun _ _ same => Phase.gated.inj same

omit [DecidableEq Thread] in
theorem AtRest.congr
    (rest : AtRest memory)
    (flag : after.flags .runtimeExecuting = memory.flags .runtimeExecuting)
    (alive : after.alive = memory.alive)
    (pointers : after.pointers = memory.pointers) :
    AtRest after where
  executing := flag.trans rest.executing
  vacant := by
    constructor
    · rw [alive, rest.vacant.session]
    · rw [alive, rest.vacant.cancelled]
    · rw [pointers, rest.vacant.active]
    · rw [pointers, rest.vacant.activeCancel]

omit [DecidableEq Thread] in
theorem Shows.congr
    {owner : Thread} {scope : Scope}
    (shown : Shows owner scope memory)
    (flag : after.flags .runtimeExecuting = memory.flags .runtimeExecuting)
    (alive : after.alive = memory.alive)
    (pointers : after.pointers = memory.pointers) :
    Shows owner scope after where
  executing := flag.trans shown.executing
  mirrors := by
    constructor
    · rw [alive, shown.mirrors.session]
    · rw [alive, shown.mirrors.cancelled]
    · rw [pointers, shown.mirrors.active]
    · rw [pointers, shown.mirrors.activeCancel]
  valid := shown.valid

/-- A step of a call that is not past the gate. -/
theorem Exclusive.outside
    {next : Option Phase}
    (exclusive : Exclusive phases memory)
    (before : ∀ scope, phases thread ≠ some (.gated scope))
    (later : ∀ scope, next ≠ some (.gated scope))
    (flag : after.flags .runtimeExecuting = memory.flags .runtimeExecuting)
    (alive : after.alive = memory.alive)
    (pointers : after.pointers = memory.pointers)
    (holder : HeldBy Phase.holdsMutex (Function.update phases thread next)
      (after.holder .runtime))
    (found : next = some (.inspecting (some true)) →
      memory.pointers .activeSession ≠ none) :
    Exclusive (Function.update phases thread next) after where
  gate := exclusive.gate.outside before later
    (fun rest => rest.congr flag alive pointers)
    (fun _ _ shown => shown.congr flag alive pointers)
  holder := holder
  found := by
    intro other inspecting
    rw [pointers]
    by_cases own : other = thread
    · subst own
      rw [Function.update_self] at inspecting
      exact found inspecting
    · rw [Function.update_of_ne own] at inspecting
      exact exclusive.found other inspecting

omit [DecidableEq Thread] in
/-- The pointer to the session changes under the mutex only. -/
theorem pointer_of_free
    {scope : Scope} {op : AgentOp}
    (allowed : scope.Allows op) (free : scope.holding = false) :
    (memory.update thread op).pointers .activeSession =
      memory.pointers .activeSession := by
  cases op with
  | publish name =>
      cases name with
      | activeSession => exact absurd (free.symm.trans allowed.1) nofun
      | _ => rfl
  | clear name =>
      cases name with
      | activeSession => exact absurd (free.symm.trans allowed) nofun
      | _ => rfl
  | _ => rfl

/-- A step of the execution that is past the gate. -/
theorem Exclusive.inside
    {scope : Scope} {op : AgentOp}
    (exclusive : Exclusive phases memory)
    (gated : phases thread = some (.gated scope))
    (allowed : scope.Allows op)
    (flag : (memory.update thread op).flags .runtimeExecuting =
      memory.flags .runtimeExecuting)
    (holder : HeldBy Phase.holdsMutex
      (Function.update phases thread (some (.gated (scope.after op))))
      ((memory.update thread op).holder .runtime)) :
    Exclusive (Function.update phases thread (some (.gated (scope.after op))))
      (memory.update thread op) where
  gate := by
    have shown := exclusive.gate.shown gated_injective gated
    apply exclusive.gate.moves gated
    exact ⟨flag.trans shown.executing, shown.mirrors.update op,
      shown.valid.after allowed⟩
  holder := holder
  found := by
    intro other inspecting
    by_cases own : other = thread
    · subst own
      rw [Function.update_self] at inspecting
      cases inspecting
    · rw [Function.update_of_ne own] at inspecting
      have free : scope.holding = false := by
        by_contra holding
        rw [Bool.not_eq_false] at holding
        exact own (exclusive.holder.unique inspecting rfl gated holding)
      rw [pointer_of_free allowed free]
      exact exclusive.found other inspecting

omit [DecidableEq Thread] in
theorem flag_of_allowed
    {scope : Scope} {op : AgentOp}
    (allowed : scope.Allows op)
    (stays : ∀ value, op ≠ .store .runtimeExecuting value) :
    (memory.update thread op).flags .runtimeExecuting =
      memory.flags .runtimeExecuting := by
  cases op with
  | store flag value =>
      cases flag with
      | runtimeExecuting => exact absurd rfl (stays value)
      | _ => rfl
  | exchange flag value => exact allowed.1.elim
  | _ => rfl

/-- The execution past the gate takes and releases the mutex itself. -/
theorem heldBy_inside
    {scope : Scope} {op : AgentOp} {answer : agents.Answer op}
    (held : HeldBy Phase.holdsMutex phases (memory.holder .runtime))
    (gated : phases thread = some (.gated scope))
    (allowed : scope.Allows op)
    (answers : memory.Answers op answer) :
    HeldBy Phase.holdsMutex
      (Function.update phases thread (some (.gated (scope.after op))))
      ((memory.update thread op).holder .runtime) := by
  have keeps : (scope.after op).holding = scope.holding →
      HeldBy Phase.holdsMutex
        (Function.update phases thread (some (.gated (scope.after op))))
        (memory.holder .runtime) := by
    intro same
    apply held.kept
    rw [gated]
    simp only [Option.some.injEq, exists_eq_left', Phase.holdsMutex, same]
  cases op with
  | lock name =>
      cases name with
      | runtime =>
          have free : memory.holder .runtime = none := answers
          rw [free] at held
          exact held.taken rfl
      | _ => exact keeps rfl
  | unlock name =>
      cases name with
      | runtime => exact held.released ⟨_, gated, allowed.1⟩ rfl
      | _ => exact keeps rfl
  | store flag value => cases flag <;> cases value <;> exact keeps rfl
  | publish name => cases name <;> exact keeps rfl
  | clear name => cases name <;> exact keeps rfl
  | construct name => cases name <;> exact keeps rfl
  | destroy name => cases name <;> exact keeps rfl
  | _ => exact keeps rfl

/-- The execution past the gate opens it again, with nothing left behind. -/
theorem Exclusive.opens
    (exclusive : Exclusive phases memory)
    (gated : phases thread = some (.gated {})) :
    Exclusive (Function.update phases thread (some .released))
      (memory.update thread (.store .runtimeExecuting false)) where
  gate := by
    have mirrors := (exclusive.gate.shown gated_injective gated).mirrors
    apply exclusive.gate.leaves gated
    · exact nofun
    · exact ⟨rfl, mirrors.session, mirrors.cancelled, mirrors.active,
        mirrors.activeCancel⟩
  holder := by
    apply exclusive.holder.kept
    rw [gated]
    simp [Phase.holdsMutex]
  found := by
    intro other inspecting
    by_cases own : other = thread
    · subst own
      rw [Function.update_self] at inspecting
      cases inspecting
    · rw [Function.update_of_ne own] at inspecting
      exact exclusive.found other inspecting

/-- An execution passes the open gate. -/
theorem Exclusive.enters
    (exclusive : Exclusive phases memory)
    (entering : phases thread = some .entering)
    (open_ : memory.flags .runtimeExecuting = false) :
    Exclusive (Function.update phases thread (some (.gated {})))
      (memory.update thread (.exchange .runtimeExecuting true)) where
  gate := by
    apply exclusive.gate.enters
    · intro owner scope shown
      exact absurd (open_.symm.trans shown.executing) nofun
    · rintro ⟨_, vacant⟩
      exact ⟨rfl, ⟨vacant.session, vacant.cancelled, vacant.active,
        vacant.activeCancel⟩, by simp, nofun, nofun, fun _ => rfl⟩
  holder := by
    apply exclusive.holder.kept
    rw [entering]
    simp [Phase.holdsMutex]
  found := by
    intro other inspecting
    by_cases own : other = thread
    · subst own
      rw [Function.update_self] at inspecting
      cases inspecting
    · rw [Function.update_of_ne own] at inspecting
      exact exclusive.found other inspecting

/-- The steps of a cancellation leave the gate alone. -/
theorem Exclusive.inspects
    {found : Bool} {op : AgentOp} {answer : agents.Answer op}
    (exclusive : Exclusive phases memory)
    (inspecting : phases thread = some (.inspecting (some found)))
    (allowed : op = .unlock .runtime ∨ (found = true ∧ Dereferences op)) :
    Exclusive
      (Function.update phases thread
        (some (observe (.inspecting (some found)) ⟨op, answer⟩)))
      (memory.update thread op) := by
  have notGated : ∀ scope, phases thread ≠ some (.gated scope) := by
    rw [inspecting]
    exact nofun
  have holds : ∃ phase, phases thread = some phase ∧
      phase.holdsMutex = true := ⟨_, inspecting, rfl⟩
  have silent : ∀ {after : Memory Thread},
      after.flags .runtimeExecuting = memory.flags .runtimeExecuting →
      after.alive = memory.alive → after.pointers = memory.pointers →
      after.holder .runtime = memory.holder .runtime →
      Exclusive
        (Function.update phases thread (some (.inspecting (some found))))
        after := by
    intro after flag alive pointers holder
    refine exclusive.outside notGated ?_ flag alive pointers ?_ ?_
    · exact nofun
    · rw [holder]
      apply exclusive.holder.kept
      rw [inspecting]
    · rintro same
      cases same
      exact exclusive.found thread inspecting
  rcases allowed with rfl | ⟨rfl, dereferences⟩
  · refine exclusive.outside notGated ?_ rfl rfl rfl ?_ ?_
    · exact nofun
    · exact exclusive.holder.released holds rfl
    · exact nofun
  · cases op with
    | store flag value =>
        cases flag <;> cases value <;>
          first
          | exact dereferences.elim
          | exact silent rfl rfl rfl rfl
    | lock name =>
        cases name <;>
          first
          | exact dereferences.elim
          | exact silent rfl rfl rfl rfl
    | unlock name =>
        cases name <;>
          first
          | exact dereferences.elim
          | exact silent rfl rfl rfl rfl
    | present name =>
        cases name <;>
          first
          | exact dereferences.elim
          | exact silent rfl rfl rfl rfl
    | cancelProvider => exact silent rfl rfl rfl rfl
    | _ => exact dereferences.elim

theorem exclusive_performs
    {phase : Phase} {op : AgentOp} {answer : agents.Answer op}
    (exclusive : Exclusive phases memory)
    (atPhase : phases thread = some phase) (allowed : Allowed phase op)
    (performed : (memoryOf thread).perform memory op answer after) :
    Exclusive
      (Function.update phases thread (some (observe phase ⟨op, answer⟩)))
      after := by
  obtain ⟨answers, rfl⟩ := performed
  cases phase with
  | entering =>
      cases allowed
      cases busy : memory.flags .runtimeExecuting with
      | false =>
          have passed : answer = false := answers.trans busy
          subst passed
          exact exclusive.enters atPhase busy
      | true =>
          have refused : answer = true := answers.trans busy
          subst refused
          have notGated : ∀ scope, phases thread ≠ some (.gated scope) := by
            rw [atPhase]
            exact nofun
          refine exclusive.outside notGated ?_ busy.symm rfl rfl ?_ ?_
          · exact nofun
          · apply exclusive.holder.kept
            rw [atPhase]
            simp [Phase.holdsMutex, observe]
          · exact nofun
  | gated scope =>
      by_cases stays : ∀ value, op ≠ .store .runtimeExecuting value
      · rw [observe_gated stays]
        exact exclusive.inside atPhase allowed (flag_of_allowed allowed stays)
          (heldBy_inside exclusive.holder atPhase allowed answers)
      · obtain ⟨value, same⟩ := not_forall.mp stays
        rw [ne_eq, not_not] at same
        subst same
        cases value with
        | true => exact allowed.1.elim
        | false =>
            have left : scope = {} := allowed
            subst left
            exact exclusive.opens atPhase
  | waiting =>
      cases allowed
      have free : memory.holder .runtime = none := answers
      have held := exclusive.holder
      rw [free] at held
      have notGated : ∀ scope, phases thread ≠ some (.gated scope) := by
        rw [atPhase]
        exact nofun
      refine exclusive.outside notGated ?_ rfl rfl rfl ?_ ?_
      · exact nofun
      · exact held.taken rfl
      · exact nofun
  | inspecting found =>
      cases found with
      | none =>
          cases allowed
          have notGated : ∀ scope, phases thread ≠ some (.gated scope) := by
            rw [atPhase]
            exact nofun
          refine exclusive.outside notGated ?_ rfl rfl rfl ?_ ?_
          · exact nofun
          · apply exclusive.holder.kept
            rw [atPhase]
            simp [Phase.holdsMutex, observe]
          · intro same
            have present : answer = true := by
              cases answer with
              | false => cases same
              | true => rfl
            have some_ : (memory.pointers .activeSession).isSome = true := by
              rw [← present]
              exact answers.symm
            exact Option.isSome_iff_ne_none.mp some_
      | some found => exact exclusive.inspects atPhase allowed
  | refused => exact allowed.elim
  | released => exact allowed.elim
  | left => exact allowed.elim

end Preservation

/-- The invariant holds in every interleaving. -/
theorem exclusive
    [DecidableEq Thread]
    {hasProvider : Bool} {apiKey model : String}
    {bindings : List NativeBinding}
    {log : List (ThreadEvent Thread RuntimeCall RuntimeReturn agents)}
    {system : Threads Thread RuntimeReturn (Memory Thread) agents}
    (execution : Execution
      (Threads.Step memoryOf (body hasProvider apiKey model bindings))
      (Threads.idle {}) log system) :
    Exclusive (Threads.phases start observe log) system.shared := by
  refine Threads.invariant
    (body_verified hasProvider apiKey model bindings) ?_ ?_ ?_ ?_ execution
  · constructor
    · refine .opened ?_ ⟨rfl, rfl, rfl, rfl, rfl⟩
      rintro thread scope ⟨⟩
    · exact HeldBy.idle
    · rintro thread ⟨⟩
  · intro phases memory thread call exclusive idle
    refine exclusive.outside ?_ ?_ rfl rfl rfl ?_ ?_
    · rw [idle]
      rintro scope ⟨⟩
    · cases call <;> rintro scope ⟨⟩
    · apply exclusive.holder.kept
      rw [idle]
      cases call <;> simp [start, Phase.holdsMutex]
    · cases call <;> rintro ⟨⟩
  · intro phases memory thread phase op answer after exclusive atPhase
      allowed performed
    exact exclusive_performs exclusive atPhase allowed performed
  · intro phases memory thread phase value exclusive atPhase ends
    refine exclusive.outside ?_ ?_ rfl rfl rfl ?_ ?_
    · rw [atPhase]
      rintro scope ⟨⟩
      exact ends
    · rintro scope ⟨⟩
    · apply exclusive.holder.kept
      rw [atPhase]
      cases phase <;> simp_all [Post, Phase.holdsMutex]
    · rintro ⟨⟩

/-! ## What the interleavings have in common -/

/-- The histories of all threads, interleaved. -/
abbrev RuntimeLog (Thread : Type) :=
  List (ThreadEvent Thread RuntimeCall RuntimeReturn agents)

/-- The programs of all threads, over the shared memory. -/
abbrev RuntimeThreads (Thread : Type) :=
  Threads Thread RuntimeReturn (Memory Thread) agents

section Interleavings

variable [DecidableEq Thread] {hasProvider : Bool} {apiKey model : String}
  {bindings : List NativeBinding} {log : RuntimeLog Thread}
  {system : RuntimeThreads Thread}

/-- The gate in the history agrees with the phases of the protocol. -/
theorem pastGate_iff
    (execution : Execution
      (Threads.Step memoryOf (body hasProvider apiKey model bindings))
      (Threads.idle {}) log system)
    (thread : Thread) :
    PastGate .runtimeExecuting log thread ↔
      ∃ phase, Threads.phases start observe log thread = some phase ∧
        phase.IsGated := by
  refine Threads.within_iff
    (body_verified hasProvider apiKey model bindings) ?_ observe_gated_iff ?_
    execution thread
  · rintro (_ | _) ⟨scope, ⟨⟩⟩
  · rintro phase value ends ⟨scope, rfl⟩
    exact ends

/--
One runtime and all of its callers: who is past the gate, what the pointers
refer to, and which objects the calls use.
-/
structure MutuallyExclusive (log : RuntimeLog Thread)
    (system : RuntimeThreads Thread) : Prop where
  /-- At most one execution is past the gate. -/
  atMostOne : ∀ thread other, PastGate .runtimeExecuting log thread →
    PastGate .runtimeExecuting log other → thread = other
  /-- A refused execution has nothing left to do but to say so. -/
  refused : ∀ thread before after,
    log = before ++
        .performs thread ⟨.exchange .runtimeExecuting true, true⟩ :: after →
      (∀ event ∈ after, event.thread ≠ thread) →
        system.running thread = some (.done (.executed (.ok busy)))
  /-- A pointer refers to an object of the execution past the gate. -/
  pointers : ∀ owner,
    system.shared.pointers .activeSession = some owner ∨
        system.shared.pointers .activeCancel = some owner →
      PastGate .runtimeExecuting log owner ∧
        system.shared.alive .session = some owner ∧
        system.shared.alive .cancelled = some owner
  /-- Both pointers are null or none, unless they are being assigned. -/
  together : (∀ owner, PastGate .runtimeExecuting log owner →
      system.shared.holder .runtime ≠ some owner) →
    system.shared.pointers .activeSession =
      system.shared.pointers .activeCancel
  /-- A used object is alive, and it is the user's own or a published one. -/
  uses : ∀ thread op next object,
    system.running thread = some (.call op next) → Uses op object →
      ∃ owner, PastGate .runtimeExecuting log owner ∧
        system.shared.alive object = some owner ∧
        (thread = owner ∨
          (system.shared.pointers .activeSession = some owner ∧
            system.shared.pointers .activeCancel = some owner))
  /-- When nobody is past the gate, it is open and nothing is left behind. -/
  atRest : (∀ thread, ¬ PastGate .runtimeExecuting log thread) →
    AtRest system.shared
  /-- A call that has returned is not past the gate. -/
  returned : ∀ thread, system.running thread = none →
    ¬ PastGate .runtimeExecuting log thread

/-- The phase of a refused execution, until its thread takes another step. -/
theorem phase_of_refused
    (execution : Execution
      (Threads.Step memoryOf (body hasProvider apiKey model bindings))
      (Threads.idle {}) log system)
    {thread : Thread} {before after : RuntimeLog Thread}
    (split : log = before ++
      .performs thread ⟨.exchange .runtimeExecuting true, true⟩ :: after)
    (silent : ∀ event ∈ after, event.thread ≠ thread) :
    Threads.phases start observe log thread = some .refused := by
  induction execution generalizing after with
  | start => simp at split
  | @extend log source target event past last induction =>
      rcases snoc_eq_append_cons split with
        ⟨_, sameEvent, _⟩ | ⟨shorter, samePast, sameAfter⟩
      · subst sameEvent
        cases last with
        | performs _ runs performed =>
            obtain ⟨phase, atPhase, allowed⟩ :=
              Threads.allowed_of_performs
                (body_verified hasProvider apiKey model bindings) past runs
            rw [Threads.phases_performs, Function.update_self, atPhase,
              entering_of_exchange allowed]
            rfl
      · subst sameAfter
        have other : event.thread ≠ thread :=
          silent event (List.mem_append_right _ (List.mem_singleton.mpr rfl))
        rw [Threads.phases, Threads.current_snoc,
          Threads.advance_of_ne other.symm]
        apply induction samePast
        exact fun earlier recorded =>
          silent earlier (List.mem_append_left _ recorded)

end Interleavings

section Consequences

variable {phases : Thread → Option Phase} {memory : Memory Thread}

/-- A pointer that is set makes its execution the one past the gate. -/
theorem Exclusive.owner_of_pointer
    (exclusive : Exclusive phases memory) {owner : Thread}
    (published : memory.pointers .activeSession = some owner ∨
      memory.pointers .activeCancel = some owner) :
    ∃ scope, phases owner = some (.gated scope) ∧
      Mirrors memory owner scope ∧ scope.Valid ∧
      memory.alive .session = some owner ∧
      memory.alive .cancelled = some owner := by
  cases exclusive.gate with
  | opened nobody rest =>
      rw [rest.vacant.active, rest.vacant.activeCancel] at published
      exact published.elim nofun nofun
  | closed thread scope gated alone shown =>
      rcases shown with ⟨_, mirrors, valid⟩
      have set : (scope.active = true ∨ scope.activeCancel = true) ∧
          thread = owner := by
        rw [mirrors.active, mirrors.activeCancel, owned_eq_some,
          owned_eq_some] at published
        rcases published with ⟨active, same⟩ | ⟨activeCancel, same⟩
        · exact ⟨Or.inl active, same⟩
        · exact ⟨Or.inr activeCancel, same⟩
      rcases set with ⟨set, rfl⟩
      have exist := valid.published set
      refine ⟨scope, gated, mirrors, valid, ?_, ?_⟩
      · rw [mirrors.session, exist.1]
        rfl
      · rw [mirrors.cancelled, valid.ready exist.2]
        rfl

/-- The objects an execution past the gate uses have been constructed. -/
theorem alive_of_allowed
    {thread : Thread} {scope : Scope} {op : AgentOp} {object : ObjectName}
    (mirrors : Mirrors memory thread scope) (valid : scope.Valid)
    (allowed : scope.Allows op) (uses : Uses op object) :
    memory.alive object = some thread := by
  have session : scope.session = true →
      memory.alive .session = some thread := by
    intro constructed
    rw [mirrors.session, constructed]
    rfl
  have cancelled : scope.cancelled = true →
      memory.alive .cancelled = some thread := by
    intro constructed
    rw [mirrors.cancelled, constructed]
    rfl
  have prompted : scope.active = true → scope.session = true :=
    fun active => (valid.published (Or.inl active)).1
  cases op with
  | load flag =>
      cases flag with
      | cancelled =>
          subst uses
          exact cancelled (valid.ready allowed)
      | _ => exact uses.elim
  | store flag value =>
      cases flag with
      | cancelled =>
          subst uses
          cases value with
          | false => exact cancelled allowed.1
          | true => exact allowed.1.elim
      | _ => exact uses.elim
  | lock name =>
      cases name with
      | session =>
          subst uses
          exact session allowed
      | _ => exact uses.elim
  | unlock name =>
      cases name with
      | session =>
          subst uses
          exact session allowed
      | _ => exact uses.elim
  | publish name =>
      cases name with
      | activeSession =>
          subst uses
          exact session allowed.2.1
      | activeCancel =>
          subst uses
          exact cancelled (valid.ready allowed.2.2)
      | activeProvider =>
          subst uses
          exact session (prompted allowed.2.1)
      | activeRuntime => exact allowed.1.elim
  | clear name =>
      cases name with
      | activeProvider =>
          subst uses
          exact session (prompted allowed.2.1)
      | _ => exact uses.elim
  | present name => exact allowed.1.elim
  | executeRuntime context => exact allowed.1.elim
  | cancelRuntime => exact allowed.1.elim
  | _ => exact uses.elim

/-- A cancellation uses the published objects of the execution it found. -/
theorem Exclusive.owner_of_inspecting
    (exclusive : Exclusive phases memory) {thread : Thread}
    (inspecting : phases thread = some (.inspecting (some true))) :
    ∃ owner scope, phases owner = some (.gated scope) ∧
      memory.alive .session = some owner ∧
      memory.alive .cancelled = some owner ∧
      memory.pointers .activeSession = some owner ∧
      memory.pointers .activeCancel = some owner := by
  obtain ⟨owner, found⟩ :=
    Option.ne_none_iff_exists'.mp (exclusive.found thread inspecting)
  obtain ⟨scope, gated, mirrors, valid, session, cancelled⟩ :=
    exclusive.owner_of_pointer (Or.inl found)
  refine ⟨owner, scope, gated, session, cancelled, found, ?_⟩
  have free : scope.holding = false := by
    by_contra holding
    rw [Bool.not_eq_false] at holding
    have same := exclusive.holder.unique inspecting rfl gated holding
    subst same
    rw [inspecting] at gated
    cases gated
  have active : scope.active = true := by
    rw [mirrors.active, owned_eq_some] at found
    exact found.1
  rw [mirrors.activeCancel, ← valid.settled free, active]
  rfl

theorem object_of_dereferences {op : AgentOp} {object : ObjectName}
    (dereferences : Dereferences op) (uses : Uses op object) :
    object = .session ∨ object = .cancelled := by
  cases op with
  | store flag value =>
      cases flag <;>
        first
        | exact Or.inr uses
        | exact dereferences.elim
  | lock name =>
      cases name <;>
        first
        | exact Or.inl uses
        | exact dereferences.elim
  | unlock name =>
      cases name <;>
        first
        | exact Or.inl uses
        | exact dereferences.elim
  | present name =>
      cases name <;>
        first
        | exact Or.inl uses
        | exact dereferences.elim
  | cancelProvider => exact uses.elim
  | _ => exact dereferences.elim

/-- An object that a call is about to use is alive. -/
theorem Exclusive.owner_of_used
    (exclusive : Exclusive phases memory) {thread : Thread} {phase : Phase}
    {op : AgentOp} {object : ObjectName}
    (atPhase : phases thread = some phase) (allowed : Allowed phase op)
    (uses : Uses op object) :
    ∃ owner scope, phases owner = some (.gated scope) ∧
      memory.alive object = some owner ∧
      (thread = owner ∨
        (memory.pointers .activeSession = some owner ∧
          memory.pointers .activeCancel = some owner)) := by
  cases phase with
  | gated scope =>
      have shown := exclusive.gate.shown gated_injective atPhase
      exact ⟨thread, scope, atPhase,
        alive_of_allowed shown.mirrors shown.valid allowed uses, Or.inl rfl⟩
  | inspecting found =>
      cases found with
      | none =>
          cases allowed
          exact uses.elim
      | some found =>
          rcases allowed with rfl | ⟨rfl, dereferences⟩
          · exact uses.elim
          · obtain ⟨owner, scope, ownPhase, session, cancelled, active,
              activeCancel⟩ := exclusive.owner_of_inspecting atPhase
            refine ⟨owner, scope, ownPhase, ?_, Or.inr ⟨active, activeCancel⟩⟩
            rcases object_of_dereferences dereferences uses with rfl | rfl
            · exact session
            · exact cancelled
  | entering =>
      cases allowed
      exact uses.elim
  | waiting =>
      cases allowed
      exact uses.elim
  | refused => exact allowed.elim
  | released => exact allowed.elim
  | left => exact allowed.elim

end Consequences

section Result

variable [DecidableEq Thread]

/--
In every interleaving of executions and cancellations of one runtime, with
any answers and exceptions of its environment, the executions exclude each
other, a refused one does nothing, and the published pointers and all other
uses stay with live objects of the execution past the gate.
-/
theorem runtime_mutually_exclusive
    (hasProvider : Bool) (apiKey model : String)
    (bindings : List NativeBinding)
    (log : RuntimeLog Thread) (system : RuntimeThreads Thread)
    (execution : Execution
      (Threads.Step memoryOf (body hasProvider apiKey model bindings))
      (Threads.idle {}) log system) :
    MutuallyExclusive log system := by
  have verified := body_verified hasProvider apiKey model bindings
  have inv := exclusive execution
  have gated : ∀ {thread scope},
      Threads.phases start observe log thread = some (.gated scope) →
        PastGate .runtimeExecuting log thread :=
    fun atPhase => (pastGate_iff execution _).mpr ⟨_, atPhase, _, rfl⟩
  constructor
  · intro thread other first second
    obtain ⟨_, firstPhase, _, rfl⟩ := (pastGate_iff execution _).mp first
    obtain ⟨_, secondPhase, _, rfl⟩ := (pastGate_iff execution _).mp second
    exact inv.gate.unique firstPhase secondPhase
  · intro thread before after split silent
    have atPhase := phase_of_refused execution split silent
    cases runs : system.running thread with
    | none =>
        have idle : Threads.phases start observe log thread = none :=
          Threads.phases_of_idle execution runs
        rw [idle] at atPhase
        cases atPhase
    | some program =>
        cases program with
        | call op next =>
            obtain ⟨phase, same, allowed⟩ :=
              Threads.allowed_of_performs verified execution runs
            rw [same] at atPhase
            cases atPhase
            exact allowed.elim
        | done value =>
            obtain ⟨phase, same, ends⟩ :=
              Threads.post_of_returns verified execution runs
            rw [same] at atPhase
            cases atPhase
            have refused : value = .executed (.ok busy) := ends
            rw [refused]
  · intro owner published
    obtain ⟨scope, atPhase, _, _, session, cancelled⟩ :=
      inv.owner_of_pointer published
    exact ⟨gated atPhase, session, cancelled⟩
  · intro free
    cases inv.gate with
    | opened nobody rest => rw [rest.vacant.active, rest.vacant.activeCancel]
    | closed owner scope atPhase alone shown =>
        have outside : scope.holding = false := by
          by_contra holding
          rw [Bool.not_eq_false] at holding
          exact free owner (gated atPhase)
            ((inv.holder owner).mpr ⟨_, atPhase, holding⟩)
        rw [shown.mirrors.active, shown.mirrors.activeCancel,
          shown.valid.settled outside]
  · intro thread op next object runs uses
    obtain ⟨phase, atPhase, allowed⟩ :=
      Threads.allowed_of_performs verified execution runs
    obtain ⟨owner, scope, ownPhase, alive, own⟩ :=
      inv.owner_of_used atPhase allowed uses
    exact ⟨owner, gated ownPhase, alive, own⟩
  · intro nobody
    cases inv.gate with
    | opened _ rest => exact rest
    | closed owner scope atPhase alone shown =>
        exact absurd (gated atPhase) (nobody owner)
  · intro thread idle past
    obtain ⟨phase, atPhase, _⟩ := (pastGate_iff execution thread).mp past
    have none_ : Threads.phases start observe log thread = none :=
      Threads.phases_of_idle execution idle
    rw [none_] at atPhase
    cases atPhase

end Result

/-! ## A nested execution and a cancellation -/

/-- An execution of a valid task without tools, with a flag of the caller. -/
def validCall : RuntimeCall :=
  .execute (.knowing [])
    { profile := { id := "coder" }
      task := { id := "t", objective := "Fix it", workingDirectory := "/w" } }
    false false true

/--
The second caller comes before the first turn of the first one and is refused;
its cancellation then finds the session and its flag.  The first one returns.
-/
def cancelledNested : Threads.Played Bool RuntimeCall RuntimeReturn
    (Memory Bool) agents :=
  Threads.play (scheduled fun _ _ => quiet) (body true "key" "model" []) {}
    (.starts true validCall :: List.replicate 18 (.continues true) ++
      .starts false validCall :: List.replicate 2 (.continues false) ++
      .starts false .cancel :: List.replicate 7 (.continues false) ++
      List.replicate 15 (.continues true))

/-- The provider of the session is cancelled. -/
def cancelsProvider :
    ThreadEvent Bool RuntimeCall RuntimeReturn agents → Bool
  | .performs _ ⟨.cancelProvider, _⟩ => true
  | _ => false

example :
    cancelledNested.log.length = 45 ∧
      cancelledNested.log.any cancelsProvider = true := by
  decide +kernel

theorem runtime_mutually_exclusive_nested :
    MutuallyExclusive cancelledNested.log cancelledNested.system :=
  runtime_mutually_exclusive true "key" "model" [] _ _
    (Threads.play_execution (scheduled_performs fun _ _ => quiet) _)

end ArnCore.Agent.RuntimeExclusion
