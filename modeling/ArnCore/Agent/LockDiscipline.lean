import ArnCore.Agent.OrchestratorProtocol
import ArnCore.Agent.SharedMemory
import ArnCore.Agent.WorkflowCancellation
import ArnCore.Interaction.LockOrder

/-!
# The order in which mutexes are taken

An orchestrator and the runtimes of its stages have three mutexes.  A
cancellation takes all of them, from the orchestrator down to the session; an
execution holds one of them at a time.  No interleaving of executions and
cancellations is therefore ever stuck.
-/

namespace ArnCore.Agent.LockDiscipline

open ArnCore.Collections
open ArnCore.Interaction
open ArnCore.Interaction.LockOrder
open ArnCore.Provider
open ArnCore.Tool
open ArnCore.Agent.AgentOrchestrator
open ArnCore.Agent.Environment
open ArnCore.Agent.EnvironmentSteps
open ArnCore.Agent.ExecutionSafety
open ArnCore.Agent.ExposedTools
open ArnCore.Agent.OrchestratorProtocol
open ArnCore.Agent.RuntimeOutline
open ArnCore.Agent.RuntimeProtocol
open ArnCore.Agent.SharedMemory
open ArnCore.Agent.StepBudget
open ArnCore.Agent.TracedSession
open ArnCore.Agent.WorkflowCancellation
open ArnCore.Agent.WorkflowOutline
open ArnCore.Agent.WorkflowProtocol
open ArnCore.Agent.WorkflowSteps

/-! ## The order of the mutexes -/

/-- From the outside to the inside. -/
def depth : MutexName → Nat
  | .orchestrator => 0
  | .runtime => 1
  | .session => 2

instance : Preorder MutexName := Preorder.lift depth

instance : Fintype MutexName where
  elems := {.orchestrator, .runtime, .session}
  complete := by intro name; cases name <;> simp

/-- What an operation does to the mutexes. -/
def lockUse : AgentOp → LockUse MutexName
  | .lock name => .takes name
  | .unlock name => .frees name
  | _ => .neither

/-- The mutexes that are held after an event. -/
abbrev heldAfter : (MutexName → Bool) → AgentEvent → MutexName → Bool :=
  after lockUse

/-- The operations that keep the order. -/
abbrev InOrder : (MutexName → Bool) → agents.Op → Prop :=
  Ordered lockUse

/-- Where no mutex is held, any may be taken. -/
theorem above_nothing (name other : MutexName)
    (held : (nothing : MutexName → Bool) other = true) : other < name := by
  cases held

/-- An action that leaves the mutexes alone. -/
abbrev LockFree {Locals Value : Type} (action : Action agents Locals Value) :
    Prop :=
  Action.Safe (monitored (after lockUse)) (fun _ op => lockUse op = .neither)
    action

/-- The order is kept, and every mutex that is taken is released. -/
abbrev KeepsOrder {Locals Value : Type} (held : MutexName → Bool)
    (action : Action agents Locals Value) : Prop :=
  LockOrder.Keeps lockUse held action

theorem keepsOrder_guarded
    {Locals Value : Type} {held : MutexName → Bool} {name : MutexName}
    {body : Action agents Locals Value}
    (above : ∀ other, held other = true → other < name)
    (runs : KeepsOrder (Function.update held name true) body) :
    KeepsOrder held ((mutex name).guarded body) := by
  have takes : lockUse (.lock name) = .takes name := rfl
  have frees : lockUse (.unlock name) = .frees name := rfl
  refine keeps_section (.lock name : agents.Op) takes above runs ?_
  intro free
  exact @leads_frees agents _ _ _ _ _ _ _ (.unlock name) frees free

/-! ## The session -/

section Session

variable {apiKey model : String} {config : AgentConfig}
  {exposed : List (String × ExposedTool)} {text progress attached : Bool}

theorem always_lockFree
    {Locals : Type} {op : AgentOp} (neither : lockUse op = .neither) :
    LockFree
      (Action.ofHost (always op) : Action agents Locals (agents.Answer op)) :=
  always_safe op fun _ => neither

/-- A call that may throw. -/
theorem ofHost_lockFree
    {Locals Value : Type} {op : AgentOp}
    {next : agents.Answer op → Except Exception Value}
    (neither : lockUse op = .neither) :
    LockFree
      (Action.ofHost (.call op fun answer => .done (next answer)) :
        Action agents Locals Value) :=
  .ofHost fun _ => ⟨neither, fun _ _ _ => trivial⟩

theorem always_keepsOrder
    {Locals : Type} {held : MutexName → Bool} {op : AgentOp}
    (neither : lockUse op = .neither) :
    KeepsOrder held
      (Action.ofHost (always op) : Action agents Locals (agents.Answer op)) :=
  keeps_of_neither (always_lockFree neither)

theorem lockFree_of_inCall
    {Value : Type} {action : Action agents PermissionOutcome Value}
    (inCall : Action.Safe (monitored (after lockUse)) (fun _ => InCall)
      action) :
    LockFree action := by
  intro locals held
  refine (inCall locals held).mono ?_ fun _ _ _ _ => trivial
  rintro held op (rfl | serves)
  · rfl
  · cases op with
    | onProgress message => rfl
    | confirm request => rfl
    | enterTool name arguments => rfl
    | _ => exact serves.elim

theorem turnLoop_lockFree (round : Int) (turn : ModelTurn) :
    LockFree
      (AgentSession.turnLoop
        (sessionOf PermissionOutcome apiKey model config exposed
          (AgentRuntime.confirmHandler (hostHandler attached)))
        anyProvider (registryOf PermissionOutcome exposed)
        (hostCallbacks text progress) (callerFlag true) round turn) := by
  -- The rounds that are left decrease with every iteration.
  induction left : (config.maxToolRounds - round).toNat
    using Nat.strongRecOn generalizing round turn with
  | ind left induction =>
      rw [AgentSession.turnLoop]
      split
      · exact .pure _
      · split
        · exact .pure _
        · rename_i more
          have more : ¬ round + 1 > config.maxToolRounds := more
          apply Action.Safe.bind
            (lockFree_of_inCall (runCalls_inCall turn.toolCalls []))
          rintro (_ | responses)
          · exact .pure _
          · apply Action.Safe.bind (always_lockFree rfl)
            intro stop
            split
            · exact .pure _
            · apply Action.Safe.bind (ofHost_lockFree rfl)
              intro next
              apply Action.Safe.bind (always_lockFree rfl)
              intro stop
              split
              · exact .pure _
              · split
                · exact induction _ (by omega) (round + 1) next rfl
                · exact .pure _

theorem runTurns_lockFree (input : String) :
    LockFree
      (AgentSession.runTurns
        (sessionOf PermissionOutcome apiKey model config exposed
          (AgentRuntime.confirmHandler (hostHandler attached)))
        anyProvider (registryOf PermissionOutcome exposed)
        (hostCallbacks text progress) (callerFlag true) input) := by
  apply Action.Safe.bind (ofHost_lockFree rfl)
  intro turn
  apply Action.Safe.bind (always_lockFree rfl)
  intro stop
  split
  · exact .pure _
  · split
    · exact turnLoop_lockFree 0 turn
    · exact .pure _

/-- Only the session is locked while the provider and the tools run. -/
theorem prompt_keepsOrder (input : String) :
    KeepsOrder nothing
      ((sessionOf PermissionOutcome apiKey model config exposed
        (AgentRuntime.confirmHandler (hostHandler attached))).prompt
          (hostCallbacks text progress) (callerFlag true) input) := by
  apply keepsOrder_guarded (above_nothing .session)
  apply keeps_of_neither
  show Action.Safe _ _ (if apiKey = "" then _ else if model = "" then _ else _)
  split
  · exact .pure _
  · split
    · exact .pure _
    · apply Action.Safe.bind (always_lockFree rfl)
      intro stop
      split
      · exact .pure _
      · apply Action.Safe.bind (ofHost_lockFree rfl)
        intro trimmed
        apply Action.Safe.bind (always_lockFree rfl)
        intro published
        exact .scopeGuard (runTurns_lockFree input) (always_lockFree rfl)

end Session

/-! ## Triples of the order -/

section Triples

variable {Locals Value : Type}

/-- Outside its critical sections a call holds nothing. -/
abbrev Unlocked (held : MutexName → Bool) : Prop :=
  held = nothing

/-- Inside one it holds its mutex only. -/
abbrev Holding (name : MutexName) (held : MutexName → Bool) : Prop :=
  held = Function.update nothing name true

/-- The triples of this order. -/
abbrev LockTriple (action : Action agents Locals Value)
    (after : Except Exception Value → (MutexName → Bool) → Prop) : Prop :=
  Triple (monitored heldAfter) InOrder Unlocked action after

/-- What uses no mutex changes nothing. -/
theorem neither_step
    {held : MutexName → Bool} {op : AgentOp}
    (neither : lockUse op = .neither) :
    Step (monitored heldAfter) InOrder (· = held) op fun _ => (· = held) := by
  apply step_at
  · simp only [InOrder, Ordered, neither]
  · exact fun _ => after_neither neither

theorem takes_step (name : MutexName) :
    Step (monitored heldAfter) InOrder Unlocked (.lock name)
      fun _ => Holding name :=
  step_at (above_nothing name) fun _ => rfl

theorem frees_step (name : MutexName) :
    Step (monitored heldAfter) InOrder (Holding name) (.unlock name)
      fun _ => Unlocked := by
  apply step_at
  · exact Function.update_self name true nothing
  · intro answer
    show Function.update (Function.update nothing name true) name false =
      nothing
    rw [Function.update_idem]
    exact Function.update_eq_self name nothing

/-- One assignment under a mutex. -/
theorem assign_triple
    {name : MutexName} {op : AgentOp} (neither : lockUse op = .neither) :
    LockTriple
      ((mutex name).guarded (Action.ofHost (always op)) :
        Action agents Locals (agents.Answer op))
      (Returning fun _ => Unlocked) :=
  triple_guarded (takes_step name) (neither_step neither) (frees_step name)

/-- An operation on the session under its mutex. -/
theorem provided_triple
    {op : AgentOp} {next : agents.Answer op → Except Exception Value}
    (neither : lockUse op = .neither) :
    LockTriple
      (provided (Action.ofHost (.call op fun answer => .done (next answer))))
      fun _ => Unlocked :=
  triple_section (takes_step .session) (triple_ask (neither_step neither))
    fun _ => frees_step .session

end Triples

/-! ## The runtime -/

section Runtime

variable {hasProvider : Bool} {apiKey model : String}
  {bindings : List NativeBinding} {text progress attached : Bool}

/-- An execution of a runtime takes one mutex at a time. -/
theorem execution_outline (json : JsonText) (context : AgentContext) :
    ExecutionOutline (monitored heldAfter) InOrder hasProvider apiKey model
      bindings json context text progress attached fun _ => Unlocked where
  claims := neither_step rfl
  refuses _ unlocked := unlocked
  opens := neither_step rfl
  asks := provided_triple rfl
  incompatible _ unlocked := unlocked
  empties := provided_triple rfl
  flags := neither_step rfl
  lowers := neither_step rfl
  attaches :=
    triple_assigned (takes_step .runtime) (neither_step rfl)
      (neither_step rfl) (frees_step .runtime)
  prompts accepted registry input known _ := by
    obtain ⟨exposed, rfl⟩ := exists_exposed known
    exact prompt_keepsOrder input
  unprompted _ unlocked := unlocked
  detaches :=
    triple_assigned (takes_step .runtime) (neither_step rfl)
      (neither_step rfl) (frees_step .runtime)
  resets := provided_triple rfl
  again _ unlocked := unlocked
  checks := neither_step rfl
  unflags := neither_step rfl
  closes := neither_step rfl
  releases := neither_step rfl

/-- A runtime releases every mutex that it takes. -/
theorem execute_triple
    (runtime : RuntimeParts) (json : JsonText) (context : AgentContext) :
    LockTriple
      ((runtime.runtime json).execute context (hostCallbacks text progress)
        (hostHandler attached)) fun _ => Unlocked := by
  apply (execution_outline json context).execute.imp
  rintro (failure | result) held ends
  · exact ends.elim
  · exact ends.elim And.right id

end Runtime

/-! ## A cancellation -/

section Cancellation

variable {parts : RuntimeParts} {json : JsonText}

/-- Inside the orchestrator and the runtime the session may be locked. -/
theorem below_session (name : MutexName)
    (held : Function.update (Function.update nothing .orchestrator true)
      .runtime true name = true) : name < .session := by
  cases name with
  | orchestrator => exact Nat.zero_lt_two
  | runtime => exact Nat.one_lt_two
  | session => cases held

theorem below_runtime (name : MutexName)
    (held : Function.update nothing .orchestrator true name = true) :
    name < .runtime := by
  cases name with
  | orchestrator => exact Nat.zero_lt_one
  | _ => cases held

/-- A cancellation of the runtime, from inside the orchestrator. -/
theorem cancelActiveRequest_keepsOrder :
    KeepsOrder (Function.update nothing .orchestrator true)
      (parts.runtime json).cancelActiveRequest := by
  apply Action.Leads.withLocals
  apply keepsOrder_guarded below_runtime
  refine keeps_bind (always_keepsOrder rfl) fun active => ?_
  split
  · refine keeps_bind (always_keepsOrder rfl) fun _ => ?_
    refine keeps_bind (always_keepsOrder rfl) fun found => ?_
    rcases parts with ⟨hasProvider, apiKey, model, bindings⟩
    cases hasProvider with
    | false =>
        split_ifs
        · exact keeps_pure ()
        · exact keepsOrder_guarded below_session
            (keeps_of_neither (.pure ()))
    | true =>
        have cancels : LockFree
            (Action.ofHost (ask AgentOp.cancelProvider) :
              Action agents PermissionOutcome Unit) :=
          ofHost_lockFree rfl
        split_ifs
        · exact keeps_of_neither cancels
        · exact keepsOrder_guarded below_session (keeps_of_neither cancels)
  · exact keeps_pure ()

end Cancellation

/-! ## The orchestrator -/

section Orchestrator

variable {parts : OrchestratorParts}
  {started finished continuation text progress attached : Bool}

/-- A workflow takes no mutex but for its pointer and inside its runtimes. -/
theorem workflow_outline (task : OrchestrationTask) :
    Outline (monitored heldAfter) InOrder parts.orchestrator
      (fun profile => (parts.runtimes profile).runtime parts.json) task
      (hostWorkflow started finished continuation text progress)
      (hostHandler attached) (fun _ => Unlocked) where
  claims := triple_always (neither_step rfl)
  resets := triple_always (neither_step rfl)
  refuses code message held unlocked := unlocked
  starts stages held known unlocked := unlocked
  checks visit := triple_always (neither_step rfl)
  makes factory visit present := by
    cases parts.factory_of_present present
    refine triple_create (step_at trivial ?_)
    rintro (failure | _ | _)
    · rfl
    · rfl
    · exact ⟨rfl, rfl⟩
  builds visit := triple_always (neither_step rfl)
  attaches visit := assign_triple rfl
  announces visit :=
    triple_announce (fun _ _ unlocked => unlocked) fun _ => neither_step rfl
  permits visit := triple_always (neither_step rfl)
  withdraws visit := assign_triple rfl
  executes visit := execute_triple _ _ _
  detaches visit result := assign_triple rfl
  reports visit result :=
    triple_report (fun _ _ unlocked => unlocked) fun _ => neither_step rfl
  judges visit result := triple_always (neither_step rfl)
  unasked absent visit result held unlocked := unlocked
  asks callback visit result present := by
    cases continuation with
    | false => cases present
    | true =>
        cases present
        exact triple_ask (neither_step rfl)
  ratifies visit result decision := triple_always (neither_step rfl)
  destroys progress rest := triple_always (neither_step rfl)
  completes workflow held unlocked := unlocked
  releases workflow := triple_always (neither_step rfl)

/-- The same holds of an execution of one agent. -/
theorem agent_outline (profileId : String) (task : AgentTask) :
    AgentOutline (monitored heldAfter) InOrder
      parts.orchestrator
      (fun profile => (parts.runtimes profile).runtime parts.json) profileId
      task (hostCallbacks text progress) (hostHandler attached)
      (fun _ => Unlocked) where
  claims := triple_always (neither_step rfl)
  resets := triple_always (neither_step rfl)
  refuses code message held unlocked := unlocked
  starts profile held known unlocked := unlocked
  makes factory profile present := by
    cases parts.factory_of_present present
    refine triple_create (step_at trivial ?_)
    rintro (failure | _ | _)
    · rfl
    · rfl
    · exact ⟨rfl, rfl⟩
  builds profile := triple_always (neither_step rfl)
  attaches profile := assign_triple rfl
  permits profile := triple_always (neither_step rfl)
  executes profile := execute_triple _ _ _
  detaches result := assign_triple rfl
  judges result := triple_always (neither_step rfl)
  destroys result := triple_always (neither_step rfl)
  releases result := triple_always (neither_step rfl)

/-- A cancellation goes from the orchestrator down to the session. -/
theorem cancel_keepsOrder (active : RuntimeParts) :
    KeepsOrder nothing
      (parts.orchestrator.cancelActiveExecution
        (active.runtime parts.json)) := by
  refine keeps_bind (always_keepsOrder rfl) fun _ => ?_
  apply keepsOrder_guarded (above_nothing .orchestrator)
  refine keeps_bind (always_keepsOrder rfl) fun present => ?_
  split
  · exact cancelActiveRequest_keepsOrder
  · exact keeps_pure ()

end Orchestrator

/-! ## Calls of the host -/

/-- What the threads of the host call; see `body` for the runtimes. -/
inductive HostCall where
  | execute (task : OrchestrationTask)
      (started finished continuation text progress attached : Bool)
  | executeAgent (profileId : String) (task : AgentTask)
      (text progress attached : Bool)
  /-- The pointer, if it is set, refers to a runtime made of these parts. -/
  | cancel (active : RuntimeParts)

/-- The program of a call of the host, over the runtimes of the stages. -/
def hostBody (parts : OrchestratorParts) :
    HostCall → Program agents OrchestratorReturn
  | .execute task started finished continuation text progress attached => do
      let (outcome, _) ←
        (parts.orchestrator.execute task
          (hostWorkflow started finished continuation text progress)
          (hostHandler attached)).run.run ()
      pure (.executed outcome)
  | .executeAgent profileId task text progress attached => do
      let (outcome, _) ←
        (parts.orchestrator.executeAgent profileId task
          (hostCallbacks text progress) (hostHandler attached)).run.run ()
      pure (.agentExecuted outcome)
  | .cancel active => do
      let (outcome, _) ←
        (parts.orchestrator.cancelActiveExecution
          (active.runtime parts.json)).run.run ()
      pure (.cancelled outcome)

theorem hostBody_verified (parts : OrchestratorParts) :
    Verified lockUse (hostBody parts) := by
  intro call
  cases call with
  | execute task started finished continuation text progress attached =>
      apply Program.Holds.bind_of
        ((workflow_outline task).execute () nothing rfl)
      rintro held ⟨failure | result, locals⟩ returned
      · exact returned.elim
      · exact returned
  | executeAgent profileId task text progress attached =>
      apply Program.Holds.bind_of
        ((agent_outline profileId task).executeAgent () nothing rfl)
      rintro held ⟨failure | result, locals⟩ returned
      · exact returned.elim
      · exact returned
  | cancel active =>
      exact Program.Holds.bind_of (cancel_keepsOrder active () nothing rfl)
        fun _ _ returned => returned

/-- The memory lets a thread wait for a mutex only. -/
theorem guards_memoryOf {Thread : Type} :
    Guards lockUse (memoryOf : Thread → _) Memory.holder where
  takes := by
    intro thread memory op name answer after performed takes
    cases op with
    | lock other =>
        cases takes
        obtain ⟨free, rfl⟩ := performed
        exact ⟨free, rfl⟩
    | _ => cases takes
  frees := by
    intro thread memory op name answer after performed frees
    cases op with
    | unlock other =>
        cases frees
        obtain ⟨-, rfl⟩ := performed
        rfl
    | _ => cases frees
  neither := by
    intro thread memory op answer after performed neither
    obtain ⟨-, rfl⟩ := performed
    cases op with
    | lock other => cases neither
    | unlock other => cases neither
    | _ => rfl
  ready := by
    intro thread memory op free
    cases op with
    | load name => exact ⟨memory.flags name, _, rfl, rfl⟩
    | exchange name value => exact ⟨memory.flags name, _, rfl, rfl⟩
    | lock name => exact ⟨(), _, free name rfl, rfl⟩
    | present name => exact ⟨(memory.pointers name).isSome, _, rfl, rfl⟩
    | _ => exact ⟨quiet _, _, trivial, rfl⟩

/--
Any number of threads execute workflows and single agents on one orchestrator
and cancel them, in any interleaving; what the host and the provider are asked
returns, without calling the orchestrator from inside.  No state is stuck: a
thread inside a call can go on, although others may wait for a mutex.  Without
further calls no interleaving goes on for ever, and every call can be brought
to return.
-/
theorem executions_never_stuck
    {Thread : Type} [DecidableEq Thread] {parts : OrchestratorParts}
    {log : List (ThreadEvent Thread HostCall OrchestratorReturn agents)}
    {system : Threads Thread OrchestratorReturn (Memory Thread) agents}
    (execution : Execution (Threads.Step memoryOf (hostBody parts))
      (Threads.idle {}) log system) :
    ((∃ thread, system.running thread ≠ none) →
        ∃ thread, CanStep memoryOf (hostBody parts) system thread) ∧
      (¬ ∃ later : ℕ → Threads Thread OrchestratorReturn (Memory Thread) agents,
        later 0 = system ∧
          ∀ n, Threads.Advances memoryOf (hostBody parts) (later (n + 1))
            (later n)) ∧
      ∃ more after,
        Execution (Threads.Step memoryOf (hostBody parts)) (Threads.idle {})
            (log ++ more) after ∧
          (∀ thread call, .calls thread call ∉ more) ∧
          ∀ thread, after.running thread = none := by
  have verified := hostBody_verified parts
  have unheld : ∀ name, ({} : Memory Thread).holder name = none :=
    fun _ => rfl
  refine ⟨?_, Threads.not_endless execution,
    calls_complete guards_memoryOf verified unheld execution⟩
  rintro ⟨thread, inCall⟩
  exact exists_canStep guards_memoryOf verified unheld execution inCall

/-! ## A cancellation that waits -/

/--
The executor is in the prompt of an agent, before it publishes its provider;
the canceller holds the two outer mutexes and waits for the session.
-/
def waitingRun :
    Threads.Played Caller HostCall OrchestratorReturn (Memory Caller) agents :=
  Threads.play (scheduled fun _ _ => quiet) (hostBody fourRuntimes) {}
    (.starts .executor (.executeAgent "explorer"
        { id := "t", objective := "Fix it", workingDirectory := "/w" }
        false false false) ::
      List.replicate 24 (.continues .executor) ++
      .starts .canceller (.cancel
        { hasProvider := true
          apiKey := "key"
          model := "model"
          bindings := [] }) ::
      List.replicate 13 (.continues .canceller))

/-- Somebody can go on although the canceller holds two mutexes and waits. -/
theorem executions_never_stuck_waitingRun :
    (waitingRun.system.shared.holder .orchestrator = some .canceller ∧
        waitingRun.system.shared.holder .runtime = some .canceller ∧
        waitingRun.system.shared.holder .session = some .executor) ∧
      ∃ thread, CanStep memoryOf (hostBody fourRuntimes) waitingRun.system
        thread := by
  have inCall : (waitingRun.system.running .canceller).isSome = true := by
    decide +kernel
  refine ⟨by decide +kernel, (executions_never_stuck
    (Threads.play_execution (scheduled_performs fun _ _ => quiet) _)).1
    ⟨.canceller, ?_⟩⟩
  exact Option.isSome_iff_ne_none.mp inCall

end ArnCore.Agent.LockDiscipline
