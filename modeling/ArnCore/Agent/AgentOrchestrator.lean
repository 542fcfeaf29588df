import ArnCore.Agent.AgentRuntime

/-!
# The orchestrator: four stages in a fixed order

`AgentOrchestrator::execute` runs explorer, planner, coder and reviewer one
after the other.  A stage sees the artifacts that `artifacts_for_stage` scopes
to it, and the loop over the stages is left at its first failure, cancellation
or declined continuation.
-/

namespace ArnCore.Agent

open ArnCore.Collections
open ArnCore.Interaction
open ArnCore.Provider
open ArnCore.Tool

variable {signature : Signature}

/-! ## The registry of profiles -/

/-- Profiles under their own, nonempty ids. -/
structure AgentRegistry where
  profiles : List (String × AgentProfile) := []
  keyed : ∀ id profile, OrderedMap.find? id profiles = some profile →
      profile.id = id ∧ id ≠ "" := by
    intro id profile found; cases found

namespace AgentRegistry

/-- No profile is registered. -/
def empty : AgentRegistry := {}

/-- `find` -/
def find (registry : AgentRegistry) (id : String) : Option AgentProfile :=
  OrderedMap.find? id registry.profiles

/-- `register_profile`: whether the profile was added, and the registry. -/
def registerProfile (registry : AgentRegistry) (profile : AgentProfile) :
    Bool × AgentRegistry :=
  if rejected : profile.id = "" ∨ (registry.find profile.id).isSome then
    (false, registry)
  else
    (true,
      { profiles := OrderedMap.insert profile.id profile registry.profiles
        keyed := by
          intro id stored found
          rw [OrderedMap.find?_insert] at found
          split_ifs at found with same
          · cases found
            exact ⟨same, fun empty => rejected (Or.inl (same.trans empty))⟩
          · exact registry.keyed id stored found })

/-- A profile is found under its own id. -/
theorem find_id
    {registry : AgentRegistry} {id : String} {profile : AgentProfile}
    (found : registry.find id = some profile) :
    profile.id = id :=
  (registry.keyed id profile found).1

end AgentRegistry

/-! ## Tasks and results -/

/-- `OrchestrationTask`; the directory is its generic UTF-8 spelling. -/
structure OrchestrationTask where
  id : String
  objective : String
  workingDirectory : String
  initialArtifacts : List ContextArtifact := []
  constraints : TaskConstraints := {}
  maxAgentRuns : Nat := 4
deriving DecidableEq, Repr

/-- `OrchestrationTask::valid` -/
def OrchestrationTask.valid (task : OrchestrationTask) : Bool :=
  hasText task.id && hasText task.objective &&
    task.workingDirectory ≠ "" && 0 < task.maxAgentRuns &&
    task.constraints.stepsValid

inductive OrchestrationStatus where
  | completed
  | failed
  | cancelled
  | continuationDeclined
  | needsInput
  | needsConfirmation
deriving DecidableEq, Repr

inductive ContinuationDecision where
  | proceed
  | decline
  | cancel
deriving DecidableEq, Repr

structure AgentExecutionRecord where
  profileId : String
  result : AgentResult
deriving DecidableEq, Repr

structure OrchestrationError where
  code : String
  message : String
  profileId : String
deriving DecidableEq, Repr

structure OrchestrationResult where
  status : OrchestrationStatus := .failed
  summary : String := ""
  executions : List AgentExecutionRecord := []
  artifacts : List ContextArtifact := []
  error : Option OrchestrationError := none
deriving DecidableEq, Repr

/-- `orchestration_status` -/
def orchestrationStatus : AgentStatus → OrchestrationStatus
  | .completed => .completed
  | .failed => .failed
  | .cancelled => .cancelled
  | .needsInput => .needsInput
  | .needsConfirmation => .needsConfirmation

/-- `preflight_failure` -/
def preflightFailure (code message : String) : OrchestrationResult where
  status := .failed
  summary := message
  error := some { code := code, message := message, profileId := "" }

namespace OrchestrationResult

/-- Record the result of a stage. -/
def recorded (workflow : OrchestrationResult) (profileId : String)
    (result : AgentResult) : OrchestrationResult :=
  { workflow with
    executions := workflow.executions ++
      [{ profileId := profileId, result := result }] }

/-- Add the artifacts of a completed stage. -/
def contributed (workflow : OrchestrationResult)
    (artifacts : List ContextArtifact) : OrchestrationResult :=
  { workflow with artifacts := workflow.artifacts ++ artifacts }

/-- Complete the workflow with the summary of its last stage. -/
def completed (workflow : OrchestrationResult) : OrchestrationResult :=
  { workflow with
    status := .completed
    summary :=
      (workflow.executions.getLast?.map fun execution =>
        execution.result.summary).getD "" }

/-- Leave the workflow as cancelled. -/
def cancelledWith (workflow : OrchestrationResult) (summary : String) :
    OrchestrationResult :=
  { workflow with status := .cancelled, summary := summary }

/-- Leave the workflow because its continuation was declined. -/
def declined (workflow : OrchestrationResult) : OrchestrationResult :=
  { workflow with
    status := .continuationDeclined
    summary := "Workflow continuation declined." }

/-- Leave the workflow with an error of the environment at a stage. -/
def failedAt (workflow : OrchestrationResult)
    (code summary profileId : String) : OrchestrationResult :=
  { workflow with
    status := .failed
    summary := summary
    error :=
      some { code := code, message := summary, profileId := profileId } }

/-- Leave the workflow with the result of an incomplete stage. -/
def incompleteAt (workflow : OrchestrationResult) (result : AgentResult)
    (profileId : String) : OrchestrationResult :=
  let error := result.error.getD
    { code := "stage_incomplete", message := result.summary }
  { workflow with
    status := orchestrationStatus result.status
    summary := result.summary
    error :=
      some
        { code := error.code
          message := error.message
          profileId := profileId } }

end OrchestrationResult

/-! ## Stages and their artifacts -/

structure StageDefinition where
  profileId : String
  outputType : ArtifactType
deriving DecidableEq, Repr

def explorerId : String := "explorer"
def plannerId : String := "planner"
def coderId : String := "coder"
def reviewerId : String := "reviewer"

/-- `kStages` -/
def kStages : List StageDefinition :=
  [{ profileId := explorerId, outputType := .explorationReport },
    { profileId := plannerId, outputType := .implementationPlan },
    { profileId := coderId, outputType := .changeSummary },
    { profileId := reviewerId, outputType := .reviewReport }]

/-- `user_request` -/
def userRequest (task : OrchestrationTask) : ContextArtifact where
  type := .userRequest
  producer := "user"
  content := task.objective

/-- The condition under which `artifacts_for_stage` includes an artifact. -/
def includesArtifact (profileId : String) (artifact : ContextArtifact) :
    Bool :=
  (profileId = plannerId && artifact.type = .explorationReport) ||
    (profileId = coderId &&
      (artifact.type = .explorationReport ||
        artifact.type = .implementationPlan)) ||
    (profileId = reviewerId &&
      (artifact.type = .implementationPlan ||
        artifact.type = .changeSummary ||
        artifact.type = .testResult))

/-- The test results among some artifacts, in order. -/
def testResults (artifacts : List ContextArtifact) : List ContextArtifact :=
  artifacts.filter fun artifact => artifact.type = .testResult

/-- `artifacts_for_stage` -/
def artifactsForStage (profileId : String)
    (initial produced : List ContextArtifact) : List ContextArtifact :=
  (if profileId = explorerId || profileId = plannerId then initial else []) ++
    produced.filter (includesArtifact profileId) ++
    (if profileId = reviewerId then testResults initial else [])

/-- The context of a stage. -/
def stageContext (task : OrchestrationTask) (stage : StageDefinition)
    (profile : AgentProfile) (produced : List ContextArtifact) :
    AgentContext where
  profile := profile
  task :=
    { id := task.id ++ ":" ++ stage.profileId
      objective := task.objective
      workingDirectory := task.workingDirectory
      inputs := [userRequest task]
      constraints := task.constraints }
  artifacts :=
    artifactsForStage stage.profileId task.initialArtifacts produced

/-- The artifact a completed stage contributes itself. -/
def stageArtifact (stage : StageDefinition) (result : AgentResult) :
    ContextArtifact where
  type := stage.outputType
  producer := stage.profileId
  content := result.summary

/-- Everything a completed stage contributes. -/
def contribution (stage : StageDefinition) (result : AgentResult) :
    List ContextArtifact :=
  stageArtifact stage result :: testResults result.artifacts

/-! ## The orchestrator -/

/-- How an iteration of the loop over the stages ends. -/
inductive Progress where
  | left (workflow : OrchestrationResult)
  | next (workflow : OrchestrationResult)

/-- The interface `IAgentRuntime`. -/
structure IAgentRuntime (signature : Signature) where
  execute : AgentContext → StreamCallbacks signature →
    HostConfirm signature → Action signature Unit AgentResult
  cancelActiveRequest : Action signature Unit Unit

/-- The factory may throw, and it may return no runtime. -/
abbrev AgentRuntimeFactory (signature : Signature) :=
  AgentProfile → Action signature Unit (Option (IAgentRuntime signature))

/-- The callbacks of the host; empty functions are absent. -/
structure OrchestrationCallbacks (signature : Signature) where
  onStageStarted : Option (String → Host signature Unit) := none
  onStageFinished : Option (String → AgentResult → Host signature Unit) := none
  beforeNextStage :
    Option (String → AgentResult → ContextArtifact →
      Host signature ContinuationDecision) := none
  runtime : StreamCallbacks signature := {}

/--
The members of `AgentOrchestrator`; the last one belongs to the local variable
`runtime` of a stage.
-/
structure AgentOrchestrator (signature : Signature) where
  registry : AgentRegistry
  runtimeFactory : Option (AgentRuntimeFactory signature)
  executing : AtomicBool signature
  cancelRequested : AtomicBool signature
  activeMutex : Mutex signature
  activeRuntime : Pointer signature
  runtimeLifetime : Lifetime signature

namespace AgentOrchestrator

variable (orchestrator : AgentOrchestrator signature)

/-- The result of a stage whose runtime or start callback threw. -/
def stageThrew : AgentResult where
  status := .failed
  summary := "Agent runtime or orchestration callback failed."
  error :=
    some
      { code := "orchestration_exception"
        message := "Agent runtime or orchestration callback failed." }

/--
Run the published runtime; `none` when the workflow is left because it was
cancelled before.
-/
def executeUnlessCancelled (runtime : IAgentRuntime signature)
    (context : AgentContext) (callbacks : OrchestrationCallbacks signature)
    (confirm : HostConfirm signature) :
    Action signature Unit (Option AgentResult) := do
  let stop ← Action.ofHost orchestrator.cancelRequested.load
  if stop then do
    orchestrator.activeMutex.guarded
      (Action.ofHost orchestrator.activeRuntime.clear)
    pure none
  else do
    let result ← runtime.execute context callbacks.runtime confirm
    pure (some result)

/-- Announce and run one stage; an exception becomes its result. -/
def attemptStage (runtime : IAgentRuntime signature) (profileId : String)
    (context : AgentContext) (callbacks : OrchestrationCallbacks signature)
    (confirm : HostConfirm signature) :
    Action signature Unit (Option AgentResult) :=
  tryCatch
    (do
      notify callbacks.onStageStarted profileId
      orchestrator.executeUnlessCancelled runtime context callbacks confirm)
    fun _ => pure (some stageThrew)

/-- `if (callbacks.on_stage_finished)`: whether the callback threw. -/
def finishThrew (callbacks : OrchestrationCallbacks signature)
    (profileId : String) (result : AgentResult) :
    Action signature Unit Bool :=
  match callbacks.onStageFinished with
  | none => pure false
  | some callback =>
      tryCatch
        (do
          Action.ofHost (callback profileId result)
          pure false)
        fun _ => pure true

/-- The decision of `before_next_stage`; `none` when the callback threw. -/
def decide
    (callback : String → AgentResult → ContextArtifact →
      Host signature ContinuationDecision)
    (profileId : String) (result : AgentResult) (artifact : ContextArtifact) :
    Action signature Unit (Option ContinuationDecision) :=
  tryCatch
    (do
      let decision ←
        Action.ofHost (callback profileId result artifact)
      pure (some decision))
    fun _ => pure none

/-- The continuation between two stages. -/
def continueWorkflow (callbacks : OrchestrationCallbacks signature)
    (stage : StageDefinition) (result : AgentResult)
    (workflow : OrchestrationResult) : Action signature Unit Progress :=
  match callbacks.beforeNextStage with
  | none => pure (.next workflow)
  | some callback => do
      let decision ← decide callback stage.profileId result
        (stageArtifact stage result)
      match decision with
      | none =>
          pure (.left (workflow.failedAt "orchestration_callback_failed"
            "Orchestration continuation callback failed." stage.profileId))
      | some decision => do
          let stop ← Action.ofHost orchestrator.cancelRequested.load
          if stop || decision = .cancel then
            pure (.left (workflow.cancelledWith "Workflow cancelled."))
          else if decision = .decline then
            pure (.left workflow.declined)
          else
            pure (.next workflow)

/-- From the recorded result of a stage to the next stage. -/
def settleStage (callbacks : OrchestrationCallbacks signature)
    (stage : StageDefinition) (result : AgentResult) (last : Bool)
    (workflow : OrchestrationResult) : Action signature Unit Progress := do
  let threw ← finishThrew callbacks stage.profileId result
  if threw then
    pure (.left (workflow.failedAt "orchestration_callback_failed"
      "Orchestration stage callback failed." stage.profileId))
  else do
    let stop ← Action.ofHost orchestrator.cancelRequested.load
    if stop || result.status = .cancelled then
      pure (.left (workflow.cancelledWith
        (if result.summary = "" then "Workflow cancelled."
        else result.summary)))
    else if result.status ≠ .completed then
      pure (.left (workflow.incompleteAt result stage.profileId))
    else if last then
      pure (.next (workflow.contributed (contribution stage result)))
    else
      orchestrator.continueWorkflow callbacks stage result
        (workflow.contributed (contribution stage result))

/-- Construct the runtime of a stage; `none` when the factory threw. -/
def construct (factory : AgentRuntimeFactory signature)
    (profile : AgentProfile) :
    Action signature Unit (Option (Option (IAgentRuntime signature))) :=
  tryCatch
    (do
      let runtime ← factory profile
      pure (some runtime))
    fun _ => pure none

/-- One iteration of the loop over the stages. -/
def runStage (factory : AgentRuntimeFactory signature)
    (task : OrchestrationTask) (callbacks : OrchestrationCallbacks signature)
    (confirm : HostConfirm signature) (stage : StageDefinition)
    (profile : AgentProfile) (last : Bool) (workflow : OrchestrationResult) :
    Action signature Unit Progress := do
  let stop ← Action.ofHost orchestrator.cancelRequested.load
  if stop then
    pure (.left (workflow.cancelledWith "Workflow cancelled."))
  else do
    let created ← construct factory profile
    match created with
    | none =>
        pure (.left (workflow.failedAt "runtime_factory_failed"
          "Agent runtime construction failed." stage.profileId))
    | some none =>
        pure (.left (workflow.failedAt "runtime_factory_failed"
          "Agent runtime factory returned no runtime." stage.profileId))
    | some (some runtime) =>
        orchestrator.runtimeLifetime.scoped do
          orchestrator.activeMutex.guarded
            (Action.ofHost orchestrator.activeRuntime.publish)
          let attempted ← orchestrator.attemptStage runtime stage.profileId
            (stageContext task stage profile workflow.artifacts)
            callbacks confirm
          match attempted with
          | none =>
              pure (.left (workflow.cancelledWith "Workflow cancelled."))
          | some result => do
              orchestrator.activeMutex.guarded
                (Action.ofHost orchestrator.activeRuntime.clear)
              orchestrator.settleStage callbacks stage result last
                (workflow.recorded stage.profileId result)

/-- The loop over the stages, with the profiles found in preflight. -/
def runStages (factory : AgentRuntimeFactory signature)
    (task : OrchestrationTask) (callbacks : OrchestrationCallbacks signature)
    (confirm : HostConfirm signature) :
    List (StageDefinition × AgentProfile) → OrchestrationResult →
      Action signature Unit OrchestrationResult
  | [], workflow => pure workflow.completed
  | (stage, profile) :: rest, workflow => do
      let progress ← orchestrator.runStage factory task callbacks confirm
        stage profile rest.isEmpty workflow
      match progress with
      | .left workflow => pure workflow
      | .next workflow =>
          runStages factory task callbacks confirm rest workflow

/-- The profiles of the stages, or the first stage without one. -/
def findProfiles (registry : AgentRegistry) :
    List StageDefinition →
      Except StageDefinition (List (StageDefinition × AgentProfile))
  | [] => .ok []
  | stage :: rest =>
      match registry.find stage.profileId with
      | none => .error stage
      | some profile =>
          match findProfiles registry rest with
          | .error missing => .error missing
          | .ok found => .ok ((stage, profile) :: found)

/-- `execute` after the orchestrator was claimed. -/
def executeClaimed (task : OrchestrationTask)
    (callbacks : OrchestrationCallbacks signature)
    (confirm : HostConfirm signature) :
    Action signature Unit OrchestrationResult := do
  Action.ofHost (orchestrator.cancelRequested.store false)
  if !task.valid then
    pure (preflightFailure "invalid_orchestration_task"
      "Orchestration requires an ID, objective, working directory and positive budgets.")
  else
    match orchestrator.runtimeFactory with
    | none =>
        pure (preflightFailure "missing_runtime_factory"
          "An agent runtime factory is required.")
    | some factory =>
        if task.maxAgentRuns < kStages.length then
          pure (preflightFailure "agent_run_budget_exhausted"
            "The workflow requires four agent runs.")
        else
          match findProfiles orchestrator.registry kStages with
          | .error missing =>
              pure (preflightFailure "missing_standard_profile"
                ("A required standard agent profile is missing: "
                  ++ missing.profileId))
          | .ok stages =>
              orchestrator.runStages factory task callbacks confirm stages {}

/-- `AgentOrchestrator::execute` -/
def execute (task : OrchestrationTask)
    (callbacks : OrchestrationCallbacks signature)
    (confirm : HostConfirm signature) :
    Action signature Unit OrchestrationResult := do
  let busy ← Action.ofHost (orchestrator.executing.exchange true)
  if busy then
    pure (preflightFailure "orchestrator_busy"
      "An orchestration workflow is already running.")
  else
    Action.scopeGuard (orchestrator.executeClaimed task callbacks confirm)
      (Action.ofHost (orchestrator.executing.store false))

/-- `agent_failure` -/
def agentFailure (code message : String) : AgentResult where
  status := .failed
  summary := message
  error := some { code := code, message := message }

/-- Run the published runtime; an exception becomes the result. -/
def executeOnce (runtime : IAgentRuntime signature) (context : AgentContext)
    (callbacks : StreamCallbacks signature)
    (confirm : HostConfirm signature) : Action signature Unit AgentResult :=
  tryCatch
    (do
      let stop ← Action.ofHost orchestrator.cancelRequested.load
      if stop then
        pure { status := .cancelled, summary := "Execution cancelled." }
      else
        runtime.execute context callbacks confirm)
    fun _ =>
      pure (agentFailure "execution_exception"
        "Agent runtime execution failed.")

/-- The result of `execute_agent` after its runtime was detached. -/
def settleOnce (result : AgentResult) : Action signature Unit AgentResult := do
  let stop ← Action.ofHost orchestrator.cancelRequested.load
  if stop || result.status = .cancelled then
    pure
      { status := .cancelled
        summary :=
          if result.summary = "" then "Execution cancelled."
          else result.summary
        artifacts := result.artifacts }
  else
    pure result

/-- `execute_agent` after the orchestrator was claimed. -/
def executeAgentClaimed (profileId : String) (task : AgentTask)
    (callbacks : StreamCallbacks signature)
    (confirm : HostConfirm signature) :
    Action signature Unit AgentResult := do
  Action.ofHost (orchestrator.cancelRequested.store false)
  if !task.valid then
    pure (agentFailure "invalid_agent_task"
      "Agent execution requires an ID, objective, working directory and positive budget.")
  else
    match orchestrator.runtimeFactory with
    | none =>
        pure (agentFailure "missing_runtime_factory"
          "An agent runtime factory is required.")
    | some factory =>
        match orchestrator.registry.find profileId with
        | none =>
            pure (agentFailure "unknown_agent_profile"
              "The requested agent profile is not registered.")
        | some profile => do
            let created ← construct factory profile
            match created with
            | none =>
                pure (agentFailure "runtime_factory_failed"
                  "Agent runtime construction failed.")
            | some none =>
                pure (agentFailure "runtime_factory_failed"
                  "Agent runtime factory returned no runtime.")
            | some (some runtime) =>
                orchestrator.runtimeLifetime.scoped do
                  orchestrator.activeMutex.guarded
                    (Action.ofHost orchestrator.activeRuntime.publish)
                  let result ← orchestrator.executeOnce runtime
                    { profile := profile, task := task } callbacks confirm
                  orchestrator.activeMutex.guarded
                    (Action.ofHost orchestrator.activeRuntime.clear)
                  orchestrator.settleOnce result

/-- `AgentOrchestrator::execute_agent` -/
def executeAgent (profileId : String) (task : AgentTask)
    (callbacks : StreamCallbacks signature)
    (confirm : HostConfirm signature) :
    Action signature Unit AgentResult := do
  let busy ← Action.ofHost (orchestrator.executing.exchange true)
  if busy then
    pure (agentFailure "orchestrator_busy"
      "An agent execution is already running.")
  else
    Action.scopeGuard
      (orchestrator.executeAgentClaimed profileId task callbacks confirm)
      (Action.ofHost (orchestrator.executing.store false))

/-- `cancel_active_execution`; the pointer refers to the given runtime. -/
def cancelActiveExecution (active : IAgentRuntime signature) :
    Action signature Unit Unit := do
  Action.ofHost (orchestrator.cancelRequested.store true)
  orchestrator.activeMutex.guarded do
    let present ← Action.ofHost orchestrator.activeRuntime.present
    if present then
      active.cancelActiveRequest
    else
      pure ()

end AgentOrchestrator

end ArnCore.Agent
