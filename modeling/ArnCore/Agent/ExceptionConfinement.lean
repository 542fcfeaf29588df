import ArnCore.Agent.AlikeEnvironment

/-!
# Exceptions are not passed on

A provider, a tool or a callback of the host may throw anything, and the text of
an exception may contain credentials.  An execution notices that something was
thrown, but not what: with other exceptions in the same places every thread
performs the same operations, and every execution returns the same result.
-/

namespace ArnCore.Agent.ExceptionConfinement

open ArnCore.Agent.AlikeAgents
open ArnCore.Agent.AlikeEnvironment
open ArnCore.Agent.Environment
open ArnCore.Agent.ExposedTools
open ArnCore.Agent.LockDiscipline
open ArnCore.Agent.OrchestratorProtocol
open ArnCore.Agent.SharedMemory
open ArnCore.Agent.WorkflowCancellation
open ArnCore.Agent.WorkflowProtocol
open ArnCore.Agent.WorkflowSteps
open ArnCore.Interaction
open ArnCore.Provider
open ArnCore.Tool

/-! ## Other exceptions in the same places -/

/-- The same value, or any two exceptions. -/
inductive Replaced {Value : Type} :
    Except Exception Value → Except Exception Value → Prop where
  | returns (value : Value) : Replaced (.ok value) (.ok value)
  | throws (failure other : Exception) :
      Replaced (.error failure) (.error other)

/-- Uses of the context are told apart, exceptions are not. -/
def nativeLikeness : Likeness nativeTools where
  ops := Eq
  answers _ _ answer other := HEq answer other
  failures _ _ := True

/-- Answers that differ only in what they throw. -/
def SameButThrown : (op : AgentOp) → agents.Answer op → agents.Answer op → Prop
  | .modelCapabilities _, answer, reply => Replaced answer reply
  | .startTurn _, answer, reply => Replaced answer reply
  | .continueTurn _, answer, reply => Replaced answer reply
  | .trimHistory _, answer, reply => Replaced answer reply
  | .cancelProvider, answer, reply => Replaced answer reply
  | .resetProvider, answer, reply => Replaced answer reply
  | .onText _, answer, reply => Replaced answer reply
  | .onProgress _, answer, reply => Replaced answer reply
  | .confirm _, answer, reply => Replaced answer reply
  | .executeTool _ _, answer, reply => Replaced answer reply
  | .enterTool _ _, run, other =>
      Program.Alike nativeLikeness Replaced run other
  | .createRuntime _, answer, reply => Replaced answer reply
  | .executeRuntime _, answer, reply => Replaced answer reply
  | .cancelRuntime, answer, reply => Replaced answer reply
  | .stageStarted _, answer, reply => Replaced answer reply
  | .stageFinished _ _, answer, reply => Replaced answer reply
  | .beforeNextStage _ _ _, answer, reply => Replaced answer reply
  | _, answer, reply => answer = reply

/-- Answers of one operation that differ only in what they throw. -/
inductive AnswersAlike : (op other : AgentOp) → agents.Answer op →
    agents.Answer other → Prop where
  | answered (op : AgentOp) {answer reply : agents.Answer op}
      (alike : SameButThrown op answer reply) :
      AnswersAlike op op answer reply

/-- The same operations, whatever is thrown. -/
def sameButThrown : Likeness agents where
  ops := Eq
  answers := AnswersAlike
  failures _ _ := True

theorem Replaced.outcomes
    {Value : Type} {answer reply : Except Exception Value}
    (replaced : Replaced answer reply) :
    sameButThrown.Outcomes Eq answer reply := by
  cases replaced with
  | returns value => exact .returns rfl
  | throws failure other => exact .throws trivial

/-! ## The environment -/

theorem memoryAlike : MemoryAlike sameButThrown where
  ops _ _ := rfl
  answers op onMemory answer other same := by
    cases same with
    | answered alike => cases op <;> first | exact alike | exact onMemory.elim

/-- A call that is answered with a value or an exception. -/
theorem asked_alike
    {Value : Type} {computation : Host agents Value} (op : AgentOp)
    (answers : agents.Answer op → Except Exception Value)
    (asks : computation.run = .call op fun answer => .done (answers answer))
    (replaced : ∀ answer reply, SameButThrown op answer reply →
      Replaced (answers answer) (answers reply)) :
    Asked sameButThrown computation := by
  unfold Asked Host.Alike
  rw [asks]
  refine ⟨rfl, fun answer reply answered => ?_⟩
  cases answered with
  | answered alike => exact (replaced answer reply alike).outcomes

theorem anyProvider_alike (apiKey : String) :
    ProvidersAlike sameButThrown apiKey apiKey
      (anyProvider : IModelProvider agents PermissionOutcome)
      anyProvider where
  modelCapabilities model :=
    .ofHost (asked_alike (.modelCapabilities model) id rfl fun _ _ alike => alike)
  startTurn _ _ _ _ _ _ _ _ :=
    .ofHost (asked_alike (.startTurn _) id rfl fun _ _ alike => alike)
  continueTurn _ _ _ _ _ _ _ _ :=
    .ofHost (asked_alike (.continueTurn _) id rfl fun _ _ alike => alike)
  trimHistory maxEntries :=
    .ofHost (asked_alike (.trimHistory maxEntries) id rfl fun _ _ alike => alike)
  cancelActiveRequest :=
    .ofHost (asked_alike .cancelProvider id rfl fun _ _ alike => alike)
  resetSession :=
    .ofHost (asked_alike .resetProvider id rfl fun _ _ alike => alike)

/-- By induction on the run of the tool, which uses its context the same. -/
theorem runNative_alike
    {Locals : Type} {context : ToolContext agents Locals}
    (within : ContextAlike sameButThrown context) {run other : NativeRun}
    (alike : Program.Alike nativeLikeness Replaced run other) :
    Action.Alike sameButThrown Eq (runNative context run)
      (runNative context other) := by
  induction run generalizing other with
  | done outcome =>
      cases other with
      | call op next => exact alike.elim
      | done reply =>
          cases alike with
          | returns value => exact .pure rfl
          | throws failure other => exact .throw trivial
  | call op next induction =>
      cases other with
      | done reply => exact alike.elim
      | call same more =>
          obtain ⟨rfl, continues⟩ := alike
          cases op with
          | cancelRequested =>
              exact .bind_eq (isSet_alike within.flag) fun stop =>
                induction stop (continues stop stop HEq.rfl)
          | confirm request =>
              unfold runNative
              cases handler : context.confirm with
              | none => exact induction none (continues none none HEq.rfl)
              | some confirm =>
                  exact .bind_eq (within.confirm confirm handler request)
                    fun approved => induction _ (continues _ _ HEq.rfl)

theorem nativeTool_alike
    {Locals : Type} (definition : ToolDefinition) (confirms : Bool) :
    ToolAlike sameButThrown
      (nativeTool definition confirms : ITool agents Locals) := by
  intro arguments context within locals
  refine ⟨rfl, fun run other answered => ?_⟩
  cases answered with
  | answered alike => exact runNative_alike within alike locals

theorem environmentAlike : EnvironmentAlike sameButThrown Eq where
  memory := memoryAlike
  failures _ := trivial
  provider apiKey _ same := same ▸ anyProvider_alike apiKey
  tool := nativeTool_alike
  onText delta := asked_alike (.onText delta) id rfl fun _ _ alike => alike
  onProgress message :=
    asked_alike (.onProgress message) id rfl fun _ _ alike => alike
  confirm request :=
    asked_alike (.confirm request) id rfl fun _ _ alike => alike
  createRuntime profile :=
    asked_alike (.createRuntime profile) id rfl fun _ _ alike => alike
  stageStarted profileId :=
    asked_alike (.stageStarted profileId) id rfl fun _ _ alike => alike
  stageFinished profileId result :=
    asked_alike (.stageFinished profileId result) id rfl fun _ _ alike => alike
  beforeNextStage profileId result artifact :=
    asked_alike (.beforeNextStage profileId result artifact) id rfl
      fun _ _ alike => alike

/-! ## Executions -/

/-- With the same keys the orchestrator is the same. -/
theorem withKeys_self (parts : OrchestratorParts) :
    withKeys parts (fun profile => (parts.runtimes profile).apiKey) = parts :=
  rfl

theorem hostBody_sameButThrown
    (parts : OrchestratorParts) (call : HostCall) :
    (hostBody parts call).Alike sameButThrown (ReturnsAlike sameButThrown)
      (hostBody parts call) := by
  have alike : (hostBody parts call).Alike sameButThrown
      (ReturnsAlike sameButThrown)
      (hostBody
        (withKeys parts fun profile => (parts.runtimes profile).apiKey)
        call) :=
    hostBody_alike environmentAlike (fun _ => Iff.rfl) (fun _ => rfl)
      (fun _ => rfl) call
  rwa [withKeys_self] at alike

/--
Any number of threads execute workflows and single agents on one orchestrator
and cancel them; whatever the factory, the provider, the tools and the callbacks
throw, no execution throws.  Let another interleaving make the same steps, with
answers that differ only in the exceptions that are thrown.  Then every thread
performs the same operations with the same arguments, and the executions return
the same results; only a cancellation may throw what it is thrown.
-/
theorem executions_confine_exceptions
    {Thread : Type} [DecidableEq Thread] {parts : OrchestratorParts}
    {log others : List
      (ThreadEvent Thread HostCall OrchestratorReturn agents)}
    {system after : Threads Thread OrchestratorReturn (Memory Thread) agents}
    (execution : Execution (Threads.Step memoryOf (hostBody parts))
      (Threads.idle {}) log system)
    (another : Execution (Threads.Step memoryOf (hostBody parts))
      (Threads.idle {}) others after)
    (scheduled : List.Forall₂ (Threads.Scheduled sameButThrown) log others) :
    List.Forall₂
      (Threads.Entries sameButThrown (ReturnsAlike sameButThrown))
      log others :=
  (Threads.entries_of_scheduled (hostBody_sameButThrown parts) execution
    another scheduled).1

/-! ## A provider that throws -/

/-- Nothing happens but that the first turn throws. -/
def throwing (failure : Exception) : (op : AgentOp) → agents.Answer op
  | .startTurn _ => .error failure
  | op => quiet op

/-- A workflow whose first stage is thrown this exception. -/
def thrownRun (failure : Exception) :
    Threads.Played Caller HostCall OrchestratorReturn (Memory Caller) agents :=
  Threads.play (scheduled fun _ _ => throwing failure)
    (hostBody fourRuntimes) {}
    (.starts .executor (.execute
        { id := "t", objective := "Fix it", workingDirectory := "/w" }
        false false false false false false) ::
      List.replicate 60 (.continues .executor))

/-- What the turns of a log threw. -/
def turnsThrown :
    List (ThreadEvent Caller HostCall OrchestratorReturn agents) →
      List Exception
  | [] => []
  | .performs _ ⟨.startTurn _, .error failure⟩ :: log =>
      failure :: turnsThrown log
  | _ :: log => turnsThrown log

/-- The summaries of the workflows that a log returned. -/
def summariesReturned :
    List (ThreadEvent Caller HostCall OrchestratorReturn agents) →
      List String
  | [] => []
  | .returns _ (.executed (.ok result)) :: log =>
      result.summary :: summariesReturned log
  | _ :: log => summariesReturned log

theorem sameButThrown_throwing (failure other : Exception) (op : AgentOp) :
    SameButThrown op (throwing failure op) (throwing other op) := by
  cases op with
  | startTurn request => exact .throws failure other
  | enterTool name arguments => exact .returns _
  | _ => first | rfl | exact .returns _

theorem responds_throwing
    (failure other : Exception)
    (log before : List
      (ThreadEvent Caller HostCall OrchestratorReturn agents))
    (thread : Caller) (memory : Memory Caller) (op same : AgentOp)
    (alike : sameButThrown.ops op same) :
    Threads.Responds sameButThrown op same
      (scheduled (fun _ _ => throwing failure) log thread memory op)
      (scheduled (fun _ _ => throwing other) before thread memory same) := by
  obtain rfl : op = same := alike
  cases op with
  | lock name =>
      simp only [scheduled]
      split
      · exact .answers _ (.answered _ rfl)
      · exact .waits
  | load name => exact .answers _ (.answered _ rfl)
  | exchange name value => exact .answers _ (.answered _ rfl)
  | present name => exact .answers _ (.answered _ rfl)
  | _ =>
      exact .answers _ (.answered _ (sameButThrown_throwing failure other _))

/-- The two runs make the same steps. -/
theorem thrownRun_scheduled (failure other : Exception) :
    List.Forall₂ (Threads.Scheduled sameButThrown) (thrownRun failure).log
      (thrownRun other).log := by
  have same : Threads.PlayedAlike sameButThrown (ReturnsAlike sameButThrown)
      (thrownRun failure) (thrownRun other) :=
    Threads.play_alike (responds_throwing failure other)
      (hostBody_sameButThrown fourRuntimes) {} _
  exact same.log.imp fun _ _ => Threads.Entries.scheduled

theorem executions_confine_exceptions_thrownRun :
    (turnsThrown (thrownRun (.standard "401 for key")).log =
          [.standard "401 for key"] ∧
        turnsThrown (thrownRun .foreign).log = [.foreign] ∧
        summariesReturned (thrownRun .foreign).log =
          ["Execution failed in the provider, tool or callback."]) ∧
      List.Forall₂
        (Threads.Entries sameButThrown (ReturnsAlike sameButThrown))
        (thrownRun (.standard "401 for key")).log (thrownRun .foreign).log :=
  ⟨by decide +kernel,
    executions_confine_exceptions
      (Threads.play_execution (scheduled_performs _) _)
      (Threads.play_execution (scheduled_performs _) _)
      (thrownRun_scheduled _ _)⟩

end ArnCore.Agent.ExceptionConfinement
