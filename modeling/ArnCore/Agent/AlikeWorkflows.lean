import ArnCore.Agent.AlikeAgents

/-!
# Workflows that are alike

An orchestrator hands on what the runtimes of its stages and the callbacks of
the host return.  Where those are alike, so are whole workflows, executions of
single agents and cancellations.
-/

namespace ArnCore.Agent.AlikeWorkflows

open ArnCore.Agent.AgentOrchestrator
open ArnCore.Agent.AlikeAgents
open ArnCore.Interaction
open ArnCore.Provider

variable {signature : Signature} {likeness : Likeness signature}

/-! ## What a workflow is made of -/

section Parts

variable (likeness : Likeness signature)

/-- Runtimes behind their interface. -/
structure RunsAlike (runtime other : IAgentRuntime signature) : Prop where
  execute : ∀ context callbacks confirm,
    CallbacksAlike likeness callbacks → ConfirmAlike likeness confirm →
      Action.Alike likeness Eq (runtime.execute context callbacks confirm)
        (other.execute context callbacks confirm)
  cancelActiveRequest :
    Action.Alike likeness Eq runtime.cancelActiveRequest
      other.cancelActiveRequest

def FactoriesAlike (factory other : AgentRuntimeFactory signature) : Prop :=
  ∀ profile, Action.Alike likeness (Present (RunsAlike likeness))
    (factory profile) (other profile)

/-- Orchestrators that differ in their factory only. -/
structure OrchestratorsAlike (orchestrator other : AgentOrchestrator signature) :
    Prop where
  registry : orchestrator.registry = other.registry
  factory : Present (FactoriesAlike likeness) orchestrator.runtimeFactory
    other.runtimeFactory
  executing : orchestrator.executing.Alike likeness.unfailing other.executing
  cancelRequested : orchestrator.cancelRequested.Alike likeness.unfailing
    other.cancelRequested
  activeMutex : orchestrator.activeMutex.Alike likeness.unfailing
    other.activeMutex
  activeRuntime : orchestrator.activeRuntime.Alike likeness.unfailing
    other.activeRuntime
  runtimeLifetime : orchestrator.runtimeLifetime.Alike likeness.unfailing
    other.runtimeLifetime

/-- The callbacks of the host, where they are there. -/
structure HostAlike (callbacks : OrchestrationCallbacks signature) : Prop where
  onStageStarted : CallbackAlike likeness callbacks.onStageStarted
  onStageFinished : ∀ call, callbacks.onStageFinished = some call →
    ∀ profileId result,
      Host.Alike likeness Eq (call profileId result) (call profileId result)
  beforeNextStage : ∀ call, callbacks.beforeNextStage = some call →
    ∀ profileId result artifact,
      Host.Alike likeness Eq (call profileId result artifact)
        (call profileId result artifact)
  runtime : CallbacksAlike likeness callbacks.runtime

end Parts

section Workflows

variable {orchestrator other : AgentOrchestrator signature}
  {runtime partner : IAgentRuntime signature}
  {factory otherFactory : AgentRuntimeFactory signature}
  {callbacks : OrchestrationCallbacks signature}
  {streams : StreamCallbacks signature} {confirm : HostConfirm signature}

/-! ## One stage -/

theorem detach_alike
    (orchestrators : OrchestratorsAlike likeness orchestrator other) :
    Action.Alike likeness.unfailing Eq
      (orchestrator.activeMutex.guarded
        (Action.ofHost orchestrator.activeRuntime.clear) :
          Action signature Unit Unit)
      (other.activeMutex.guarded
        (Action.ofHost other.activeRuntime.clear)) :=
  orchestrators.activeMutex.guarded (.ofHost orchestrators.activeRuntime.clear)

theorem attach_alike
    (orchestrators : OrchestratorsAlike likeness orchestrator other) :
    Action.Alike likeness.unfailing Eq
      (orchestrator.activeMutex.guarded
        (Action.ofHost orchestrator.activeRuntime.publish) :
          Action signature Unit Unit)
      (other.activeMutex.guarded
        (Action.ofHost other.activeRuntime.publish)) :=
  orchestrators.activeMutex.guarded
    (.ofHost orchestrators.activeRuntime.publish)

/-- An exception of the runtime or of a callback becomes the same result. -/
theorem attemptStage_alike
    (orchestrators : OrchestratorsAlike likeness orchestrator other)
    (runtimes : RunsAlike likeness runtime partner)
    (hosts : HostAlike likeness callbacks)
    (confirms : ConfirmAlike likeness confirm)
    (profileId : String) (context : AgentContext) :
    Action.Alike likeness.unfailing Eq
      (orchestrator.attemptStage runtime profileId context callbacks confirm)
      (other.attemptStage partner profileId context callbacks confirm) := by
  refine .tryCatch_unfailing ?_ fun _ _ _ => .pure rfl
  refine .bind_eq (notify_alike hosts.onStageStarted _) fun _ => ?_
  refine .bind_eq (.ofHost orchestrators.cancelRequested.load.of_unfailing)
    fun stop => ?_
  cases stop with
  | true =>
      exact .bind_eq (detach_alike orchestrators).of_unfailing
        fun _ => .pure rfl
  | false =>
      exact .bind_eq
        (runtimes.execute context _ confirm hosts.runtime confirms)
        fun result => .pure rfl

theorem finishThrew_alike
    (hosts : HostAlike likeness callbacks) (profileId : String)
    (result : AgentResult) :
    Action.Alike likeness.unfailing Eq (finishThrew callbacks profileId result)
      (finishThrew callbacks profileId result) := by
  unfold finishThrew
  cases called : callbacks.onStageFinished with
  | none => exact .pure rfl
  | some call =>
      exact .tryCatch_unfailing
        (.bind_eq (.ofHost (hosts.onStageFinished call called _ _)) fun _ =>
          .pure rfl)
        fun _ _ _ => .pure rfl

theorem continueWorkflow_alike
    (orchestrators : OrchestratorsAlike likeness orchestrator other)
    (hosts : HostAlike likeness callbacks) (stage : StageDefinition)
    (result : AgentResult) (workflow : OrchestrationResult) :
    Action.Alike likeness.unfailing Eq
      (orchestrator.continueWorkflow callbacks stage result workflow)
      (other.continueWorkflow callbacks stage result workflow) := by
  unfold continueWorkflow
  cases called : callbacks.beforeNextStage with
  | none => exact .pure rfl
  | some call =>
      refine .bind_eq ?_ fun decision => ?_
      · exact .tryCatch_unfailing
          (.bind_eq (.ofHost (hosts.beforeNextStage call called _ _ _))
            fun _ => .pure rfl)
          fun _ _ _ => .pure rfl
      · cases decision with
        | none => exact .pure rfl
        | some decision =>
            refine .bind_eq (.ofHost orchestrators.cancelRequested.load)
              fun stop => ?_
            split
            · exact .pure rfl
            · split <;> exact .pure rfl

theorem settleStage_alike
    (orchestrators : OrchestratorsAlike likeness orchestrator other)
    (hosts : HostAlike likeness callbacks) (stage : StageDefinition)
    (result : AgentResult) (last : Bool) (workflow : OrchestrationResult) :
    Action.Alike likeness.unfailing Eq
      (orchestrator.settleStage callbacks stage result last workflow)
      (other.settleStage callbacks stage result last workflow) := by
  refine .bind_eq (finishThrew_alike hosts _ _) fun threw => ?_
  split
  · exact .pure rfl
  · refine .bind_eq (.ofHost orchestrators.cancelRequested.load) fun stop => ?_
    split
    · exact .pure rfl
    · split
      · exact .pure rfl
      · split
        · exact .pure rfl
        · exact continueWorkflow_alike orchestrators hosts _ _ _

theorem construct_alike
    (factories : FactoriesAlike likeness factory otherFactory)
    (profile : AgentProfile) :
    Action.Alike likeness.unfailing (Present (Present (RunsAlike likeness)))
      (construct factory profile) (construct otherFactory profile) :=
  .tryCatch_unfailing
    (.bind (factories profile) fun _ _ related => .pure (.present related))
    fun _ _ _ => .pure .absent

theorem runStage_alike
    (orchestrators : OrchestratorsAlike likeness orchestrator other)
    (factories : FactoriesAlike likeness factory otherFactory)
    (hosts : HostAlike likeness callbacks)
    (confirms : ConfirmAlike likeness confirm) (task : OrchestrationTask)
    (stage : StageDefinition) (profile : AgentProfile) (last : Bool)
    (workflow : OrchestrationResult) :
    Action.Alike likeness.unfailing Eq
      (orchestrator.runStage factory task callbacks confirm stage profile last
        workflow)
      (other.runStage otherFactory task callbacks confirm stage profile last
        workflow) := by
  refine .bind_eq (.ofHost orchestrators.cancelRequested.load) fun stop => ?_
  split
  · exact .pure rfl
  · refine .bind (construct_alike factories profile) ?_
    rintro _ _ (_ | ⟨_ | runtimes⟩)
    · exact .pure rfl
    · exact .pure rfl
    · refine orchestrators.runtimeLifetime.scoped ?_
      refine .bind_eq (attach_alike orchestrators) fun _ => ?_
      refine .bind_eq
        (attemptStage_alike orchestrators runtimes hosts confirms _ _)
        fun attempted => ?_
      cases attempted with
      | none => exact .pure rfl
      | some result =>
          exact .bind_eq (detach_alike orchestrators) fun _ =>
            settleStage_alike orchestrators hosts _ _ _ _

theorem runStages_alike
    (orchestrators : OrchestratorsAlike likeness orchestrator other)
    (factories : FactoriesAlike likeness factory otherFactory)
    (hosts : HostAlike likeness callbacks)
    (confirms : ConfirmAlike likeness confirm) (task : OrchestrationTask)
    (stages : List (StageDefinition × AgentProfile))
    (workflow : OrchestrationResult) :
    Action.Alike likeness.unfailing Eq
      (orchestrator.runStages factory task callbacks confirm stages workflow)
      (other.runStages otherFactory task callbacks confirm stages
        workflow) := by
  induction stages generalizing workflow with
  | nil => exact .pure rfl
  | cons head rest induction =>
      refine .bind_eq
        (runStage_alike orchestrators factories hosts confirms _ _ _ _ _)
        fun progress => ?_
      cases progress with
      | left workflow => exact .pure rfl
      | next workflow => exact induction workflow

/-! ## Whole calls -/

theorem executeClaimed_alike
    (orchestrators : OrchestratorsAlike likeness orchestrator other)
    (hosts : HostAlike likeness callbacks)
    (confirms : ConfirmAlike likeness confirm) (task : OrchestrationTask) :
    Action.Alike likeness.unfailing Eq
      (orchestrator.executeClaimed task callbacks confirm)
      (other.executeClaimed task callbacks confirm) := by
  unfold executeClaimed
  rw [← orchestrators.registry]
  refine .bind_eq (.ofHost (orchestrators.cancelRequested.store false))
    fun _ => ?_
  split
  · exact .pure rfl
  · have present := orchestrators.factory
    generalize orchestrator.runtimeFactory = first at present
    generalize other.runtimeFactory = second at present
    cases present with
    | absent => exact .pure rfl
    | present factories =>
        dsimp only
        split
        · exact .pure rfl
        · cases findProfiles orchestrator.registry kStages with
          | error missing => exact .pure rfl
          | ok stages =>
              exact runStages_alike orchestrators factories hosts confirms
                task stages {}

theorem execute_alike
    (orchestrators : OrchestratorsAlike likeness orchestrator other)
    (hosts : HostAlike likeness callbacks)
    (confirms : ConfirmAlike likeness confirm) (task : OrchestrationTask) :
    Action.Alike likeness.unfailing Eq (orchestrator.execute task callbacks confirm)
      (other.execute task callbacks confirm) := by
  refine .bind_eq (.ofHost (orchestrators.executing.exchange true))
    fun busy => ?_
  split
  · exact .pure rfl
  · exact .scopeGuard
      (executeClaimed_alike orchestrators hosts confirms task)
      (.ofHost (orchestrators.executing.store false))

theorem executeOnce_alike
    (orchestrators : OrchestratorsAlike likeness orchestrator other)
    (runtimes : RunsAlike likeness runtime partner)
    (informs : CallbacksAlike likeness streams)
    (confirms : ConfirmAlike likeness confirm) (context : AgentContext) :
    Action.Alike likeness.unfailing Eq
      (orchestrator.executeOnce runtime context streams confirm)
      (other.executeOnce partner context streams confirm) := by
  refine .tryCatch_unfailing ?_ fun _ _ _ => .pure rfl
  refine .bind_eq (.ofHost orchestrators.cancelRequested.load.of_unfailing)
    fun stop => ?_
  split
  · exact .pure rfl
  · exact runtimes.execute context streams confirm informs confirms

theorem settleOnce_alike
    (orchestrators : OrchestratorsAlike likeness orchestrator other)
    (result : AgentResult) :
    Action.Alike likeness.unfailing Eq (orchestrator.settleOnce result)
      (other.settleOnce result) := by
  refine .bind_eq (.ofHost orchestrators.cancelRequested.load) fun stop => ?_
  split <;> exact .pure rfl

theorem executeAgentClaimed_alike
    (orchestrators : OrchestratorsAlike likeness orchestrator other)
    (informs : CallbacksAlike likeness streams)
    (confirms : ConfirmAlike likeness confirm) (profileId : String)
    (task : AgentTask) :
    Action.Alike likeness.unfailing Eq
      (orchestrator.executeAgentClaimed profileId task streams confirm)
      (other.executeAgentClaimed profileId task streams confirm) := by
  unfold executeAgentClaimed
  rw [← orchestrators.registry]
  refine .bind_eq (.ofHost (orchestrators.cancelRequested.store false))
    fun _ => ?_
  split
  · exact .pure rfl
  · have present := orchestrators.factory
    generalize orchestrator.runtimeFactory = first at present
    generalize other.runtimeFactory = second at present
    cases present with
    | absent => exact .pure rfl
    | present factories =>
        cases orchestrator.registry.find profileId with
        | none => exact .pure rfl
        | some profile =>
            refine .bind (construct_alike factories profile) ?_
            rintro _ _ (_ | ⟨_ | runtimes⟩)
            · exact .pure rfl
            · exact .pure rfl
            · refine orchestrators.runtimeLifetime.scoped ?_
              exact .bind_eq (attach_alike orchestrators) fun _ =>
                .bind_eq
                  (executeOnce_alike orchestrators runtimes informs confirms _)
                  fun result => .bind_eq (detach_alike orchestrators) fun _ =>
                    settleOnce_alike orchestrators result

theorem executeAgent_alike
    (orchestrators : OrchestratorsAlike likeness orchestrator other)
    (informs : CallbacksAlike likeness streams)
    (confirms : ConfirmAlike likeness confirm) (profileId : String)
    (task : AgentTask) :
    Action.Alike likeness.unfailing Eq
      (orchestrator.executeAgent profileId task streams confirm)
      (other.executeAgent profileId task streams confirm) := by
  refine .bind_eq (.ofHost (orchestrators.executing.exchange true))
    fun busy => ?_
  split
  · exact .pure rfl
  · exact .scopeGuard
      (executeAgentClaimed_alike orchestrators informs confirms profileId task)
      (.ofHost (orchestrators.executing.store false))

/-- The pointer of the one refers to the like of that of the other. -/
theorem cancelExecution_alike
    (orchestrators : OrchestratorsAlike likeness orchestrator other)
    (runtimes : RunsAlike likeness runtime partner) :
    Action.Alike likeness Eq (orchestrator.cancelActiveExecution runtime)
      (other.cancelActiveExecution partner) := by
  refine .bind_eq
    (.ofHost (orchestrators.cancelRequested.store true).of_unfailing)
    fun _ => ?_
  refine orchestrators.activeMutex.of_unfailing.guarded ?_
  refine .bind_eq (.ofHost orchestrators.activeRuntime.present.of_unfailing)
    fun present => ?_
  split
  · exact runtimes.cancelActiveRequest
  · exact .pure rfl

end Workflows

end ArnCore.Agent.AlikeWorkflows
