import ArnCore.Agent.AlikeWorkflows
import ArnCore.Agent.LockDiscipline

/-!
# Environments that are alike

The calls of an orchestrator over runtimes are alike as soon as the operations
of their environment are: the shared memory answers exactly, and what the
provider, the tools and the callbacks of the host do is alike.
-/

namespace ArnCore.Agent.AlikeEnvironment

open ArnCore.Agent.AlikeAgents
open ArnCore.Agent.AlikeWorkflows
open ArnCore.Agent.Environment
open ArnCore.Agent.ExposedTools
open ArnCore.Agent.LockDiscipline
open ArnCore.Agent.OrchestrationFlow
open ArnCore.Agent.OrchestratorProtocol
open ArnCore.Agent.WorkflowProtocol
open ArnCore.Interaction
open ArnCore.Provider
open ArnCore.Tool

/-- The operations on what the threads share. -/
def OnMemory : AgentOp → Prop
  | .load _ | .store _ _ | .exchange _ _ => True
  | .lock _ | .unlock _ => True
  | .publish _ | .clear _ | .present _ => True
  | .construct _ | .destroy _ => True
  | _ => False

/-- A call of the environment is like itself. -/
def Asked {Value : Type} (likeness : Likeness agents)
    (computation : Host agents Value) : Prop :=
  Host.Alike likeness Eq computation computation

/-- The shared memory is asked and answers the same. -/
structure MemoryAlike (likeness : Likeness agents) : Prop where
  ops : ∀ op, OnMemory op → likeness.ops op op
  answers : ∀ op, OnMemory op → ∀ answer other,
    likeness.answers op op answer other → answer = other

theorem MemoryAlike.unfailing
    {likeness : Likeness agents} (memory : MemoryAlike likeness) :
    MemoryAlike likeness.unfailing where
  ops := memory.ops
  answers := memory.answers

/-- What the calls of an orchestrator rely on. -/
structure EnvironmentAlike (likeness : Likeness agents)
    (keys : String → String → Prop) : Prop where
  memory : MemoryAlike likeness
  failures : ∀ failure, likeness.failures failure failure
  provider : ∀ apiKey otherKey, keys apiKey otherKey →
    ProvidersAlike likeness apiKey otherKey
      (anyProvider : IModelProvider agents PermissionOutcome) anyProvider
  tool : ∀ definition confirms, ToolAlike likeness
    (nativeTool definition confirms : ITool agents PermissionOutcome)
  onText : ∀ delta, Asked likeness (ask (.onText delta) : Host agents Unit)
  onProgress : ∀ message,
    Asked likeness (ask (.onProgress message) : Host agents Unit)
  confirm : ∀ request,
    Asked likeness (ask (.confirm request) : Host agents Bool)
  createRuntime : ∀ profile,
    Asked likeness (ask (.createRuntime profile) : Host agents Bool)
  stageStarted : ∀ profileId,
    Asked likeness (ask (.stageStarted profileId) : Host agents Unit)
  stageFinished : ∀ profileId result,
    Asked likeness (ask (.stageFinished profileId result) : Host agents Unit)
  beforeNextStage : ∀ profileId result artifact,
    Asked likeness
      (ask (.beforeNextStage profileId result artifact) :
        Host agents ContinuationDecision)

/-- An environment that tells nothing apart from itself. -/
theorem environmentAlike_of_exact
    {likeness : Likeness agents} {keys : String → String → Prop}
    (exact : likeness.Exact)
    (provider : ∀ apiKey otherKey, keys apiKey otherKey →
      ProvidersAlike likeness apiKey otherKey
        (anyProvider : IModelProvider agents PermissionOutcome) anyProvider) :
    EnvironmentAlike likeness keys where
  memory := ⟨fun op _ => exact.ops op, fun op _ => exact.answers op⟩
  failures := exact.failures
  provider := provider
  tool _ _ _ _ _ := .refl exact (fun _ => rfl) _
  onText _ := .refl exact _
  onProgress _ := .refl exact _
  confirm _ := .refl exact _
  createRuntime _ := .refl exact _
  stageStarted _ := .refl exact _
  stageFinished _ _ := .refl exact _
  beforeNextStage _ _ _ := .refl exact _

section Objects

variable {likeness : Likeness agents}

section Memory

variable (memory : MemoryAlike likeness)

include memory

/-- An operation on the memory that cannot throw. -/
theorem always_alike {op : AgentOp} (onMemory : OnMemory op) :
    Host.Alike likeness Eq (always op) (always op) := by
  refine ⟨memory.ops op onMemory, fun answer reply answered => ?_⟩
  exact .returns (memory.answers op onMemory answer reply answered)

theorem flag_alike (name : Flag) :
    (flag name).Alike likeness (flag name) where
  load := always_alike memory trivial
  store _ := always_alike memory trivial
  exchange _ := always_alike memory trivial

theorem mutex_alike (name : MutexName) :
    (mutex name).Alike likeness (mutex name) where
  lock := always_alike memory trivial
  unlock := always_alike memory trivial

theorem pointer_alike (name : PointerName) :
    (pointer name).Alike likeness (pointer name) where
  publish := always_alike memory trivial
  clear := always_alike memory trivial
  present := always_alike memory trivial

theorem lifetime_alike (name : ObjectName) :
    (lifetime name).Alike likeness (lifetime name) where
  construct := always_alike memory trivial
  destroy := always_alike memory trivial

end Memory

section Callbacks

variable {keys : String → String → Prop}
  (environment : EnvironmentAlike likeness keys)

include environment

theorem callbacks_alike (text progress : Bool) :
    CallbacksAlike likeness (hostCallbacks text progress) where
  onText call same message := by
    cases text with
    | false => cases same
    | true =>
        cases same
        exact environment.onText message
  onProgress call same message := by
    cases progress with
    | false => cases same
    | true =>
        cases same
        exact environment.onProgress message

theorem handler_alike (attached : Bool) :
    ConfirmAlike likeness (hostHandler attached) := by
  intro call same request
  cases attached with
  | false => cases same
  | true =>
      cases same
      exact environment.confirm request

theorem host_alike (started finished continuation text progress : Bool) :
    HostAlike likeness
      (hostWorkflow started finished continuation text progress) where
  onStageStarted call same profileId := by
    cases started with
    | false => cases same
    | true =>
        cases same
        exact environment.stageStarted profileId
  onStageFinished call same profileId result := by
    cases finished with
    | false => cases same
    | true =>
        cases same
        exact environment.stageFinished profileId result
  beforeNextStage call same profileId result artifact := by
    cases continuation with
    | false => cases same
    | true =>
        cases same
        exact environment.beforeNextStage profileId result artifact
  runtime := callbacks_alike environment text progress

end Callbacks

end Objects

/-! ## The calls of an orchestrator -/

/-- The orchestrator whose runtimes have other keys. -/
def withKeys (parts : OrchestratorParts) (keys : AgentProfile → String) :
    OrchestratorParts :=
  { parts with
    runtimes := fun profile =>
      { parts.runtimes profile with apiKey := keys profile } }

section Calls

variable {likeness : Likeness agents} {related : String → String → Prop}
  (environment : EnvironmentAlike likeness related)

include environment

theorem runtime_alike
    {parts : RuntimeParts} {apiKey : String}
    (keyed : parts.apiKey = "" ↔ apiKey = "")
    (keys : related parts.apiKey apiKey) :
    RuntimesAlike likeness
      (anyRuntime parts.hasProvider parts.apiKey parts.model parts.bindings)
      (anyRuntime parts.hasProvider apiKey parts.model parts.bindings) where
  provider := by
    cases present : parts.hasProvider with
    | false => exact .absent
    | true => exact .present (environment.provider _ _ keys)
  apiKey := keyed
  model := rfl
  tools := rfl
  bindings := by
    intro binding member tool same
    obtain ⟨native, _, rfl⟩ := List.mem_map.mp member
    obtain ⟨⟨definition, confirms⟩, _, rfl⟩ := Option.map_eq_some_iff.mp same
    exact environment.tool definition confirms
  executing := flag_alike environment.memory _
  activeMutex := mutex_alike environment.memory _
  active := pointer_alike environment.memory _
  activeCancel := pointer_alike environment.memory _
  sessionLifetime := lifetime_alike environment.memory _
  sessionMutex := mutex_alike environment.memory _
  activeProvider := pointer_alike environment.memory _
  cancelledLifetime := lifetime_alike environment.memory _
  cancelled := rfl
  flag := flag_alike environment.memory _

theorem runs_alike
    {parts : RuntimeParts} {apiKey : String} (json : JsonText)
    (keyed : parts.apiKey = "" ↔ apiKey = "")
    (keys : related parts.apiKey apiKey) :
    RunsAlike likeness (parts.runtime json)
      (({ parts with apiKey := apiKey } : RuntimeParts).runtime json) where
  execute context _ _ informs confirms :=
    executeRuntime_alike (runtime_alike environment keyed keys) informs
      confirms environment.failures json context
  cancelActiveRequest :=
    .withLocals (cancelRuntime_alike (runtime_alike environment keyed keys))

variable {parts : OrchestratorParts} {keys : AgentProfile → String}

theorem orchestrator_alike
    (keyed : ∀ profile, (parts.runtimes profile).apiKey = "" ↔
      keys profile = "")
    (allRelated : ∀ profile,
      related (parts.runtimes profile).apiKey (keys profile)) :
    OrchestratorsAlike likeness parts.orchestrator
      (withKeys parts keys).orchestrator where
  registry := rfl
  factory := by
    show Present (FactoriesAlike likeness)
      (if parts.hasFactory then some parts.factory else none)
      (if parts.hasFactory then some (withKeys parts keys).factory else none)
    cases parts.hasFactory with
    | false => exact .absent
    | true =>
        refine .present fun profile => ?_
        refine .bind_eq (.ofHost (environment.createRuntime profile))
          fun created => ?_
        cases created with
        | false => exact .pure .absent
        | true =>
            exact .pure (.present
              (runs_alike environment parts.json (keyed profile)
                (allRelated profile)))
  executing := flag_alike environment.memory.unfailing _
  cancelRequested := flag_alike environment.memory.unfailing _
  activeMutex := mutex_alike environment.memory.unfailing _
  activeRuntime := pointer_alike environment.memory.unfailing _
  runtimeLifetime := lifetime_alike environment.memory.unfailing _

/-- Executions do not throw; a cancellation may throw what a provider throws. -/
inductive ReturnsAlike (likeness : Likeness agents) :
    OrchestratorReturn → OrchestratorReturn → Prop where
  | executed (result : OrchestrationResult) :
      ReturnsAlike likeness (.executed (.ok result)) (.executed (.ok result))
  | agentExecuted (result : AgentResult) :
      ReturnsAlike likeness (.agentExecuted (.ok result))
        (.agentExecuted (.ok result))
  | cancelled {outcome other : Except Exception Unit}
      (alike : likeness.Outcomes Eq outcome other) :
      ReturnsAlike likeness (.cancelled outcome) (.cancelled other)

/-- Every call of the host is alike. -/
theorem hostBody_alike
    (keyed : ∀ profile, (parts.runtimes profile).apiKey = "" ↔
      keys profile = "")
    (allRelated : ∀ profile,
      related (parts.runtimes profile).apiKey (keys profile))
    (same : ∀ apiKey, related apiKey apiKey) (call : HostCall) :
    (hostBody parts call).Alike likeness (ReturnsAlike likeness)
      (hostBody (withKeys parts keys) call) := by
  have orchestrators := orchestrator_alike environment keyed allRelated
  cases call with
  | execute task started finished continuation text progress attached =>
      have executes := AlikeWorkflows.execute_alike orchestrators
        (host_alike environment started finished continuation text progress)
        (handler_alike environment attached) task ()
      refine (Program.Alike.unfailing_iff.mp executes).bind ?_
      rintro ⟨outcome, _⟩ ⟨other, _⟩ ⟨outcomes, -⟩
      obtain ⟨result, rfl, rfl⟩ := outcomes.exists_of_unfailing
      exact .executed result
  | executeAgent profileId task text progress attached =>
      have executes := executeAgent_alike orchestrators
        (callbacks_alike environment text progress)
        (handler_alike environment attached) profileId task ()
      refine (Program.Alike.unfailing_iff.mp executes).bind ?_
      rintro ⟨outcome, _⟩ ⟨other, _⟩ ⟨outcomes, -⟩
      obtain ⟨result, rfl, rfl⟩ := outcomes.exists_of_unfailing
      exact .agentExecuted result
  | cancel active =>
      refine Program.Alike.bind
        (cancelExecution_alike orchestrators
          (runs_alike environment parts.json Iff.rfl (same active.apiKey))
          ()) ?_
      exact fun _ _ ends => .cancelled ends.1

end Calls

end ArnCore.Agent.AlikeEnvironment
