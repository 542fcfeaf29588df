import ArnCore.Agent.EnvironmentSteps

/-!
# Proof outlines of the orchestrator

A condition on `execute` is stated by an assertion for every point that a
workflow passes.  What has to be shown of it is one condition for every call
that the workflow makes: the call leads from the assertion in front of it to
the one behind it.  The branches, the guards, the handlers and the loop of
`execute` are gone through here, once for all conditions.  `execute_agent` has
outlines of the same kind.
-/

namespace ArnCore.Agent.WorkflowOutline

open ArnCore.Interaction
open ArnCore.Provider
open ArnCore.Agent.AgentOrchestrator
open ArnCore.Agent.Environment
open ArnCore.Agent.EnvironmentSteps

variable {signature : Signature} {State : Type}

/-! ## The points of a workflow -/

/-- One iteration of the loop: its stage, what follows and what was done. -/
structure Visit where
  stage : StageDefinition
  profile : AgentProfile
  rest : List (StageDefinition × AgentProfile)
  workflow : OrchestrationResult

/-- The workflow with the record of the stage. -/
def Visit.recorded (visit : Visit) (result : AgentResult) :
    OrchestrationResult :=
  visit.workflow.recorded visit.stage.profileId result

/-- The workflow with the artifacts of the completed stage. -/
def Visit.contributed (visit : Visit) (result : AgentResult) :
    OrchestrationResult :=
  (visit.recorded result).contributed (contribution visit.stage result)

/-- The context in which the stage is executed. -/
def Visit.context (visit : Visit) (task : OrchestrationTask) : AgentContext :=
  stageContext task visit.stage visit.profile visit.workflow.artifacts

/-- Where a workflow stands between two of its calls. -/
inductive Point where
  | entering
  | claimed
  | preflight
  | head (stages : List (StageDefinition × AgentProfile))
      (workflow : OrchestrationResult)
  | chosen (visit : Visit)
  | made (visit : Visit)
  | built (visit : Visit)
  | attached (visit : Visit)
  | announced (visit : Visit)
  | withdrawing (visit : Visit)
  | running (visit : Visit)
  | executed (visit : Visit) (result : AgentResult)
  | recorded (visit : Visit) (result : AgentResult)
  | reported (visit : Visit) (result : AgentResult)
  | continuing (visit : Visit) (result : AgentResult)
  | decided (visit : Visit) (result : AgentResult)
      (decision : ContinuationDecision)
  | settled (progress : Progress) (rest : List (StageDefinition × AgentProfile))
  | left (workflow : OrchestrationResult)
  | returned (result : OrchestrationResult)

namespace Point

/-- What follows the exchange at the gate. -/
def entered (busy : Bool) : Point :=
  if busy then
    .returned (preflightFailure "orchestrator_busy"
      "An orchestration workflow is already running.")
  else
    .claimed

/-- What follows the check of the flag at the head of the loop. -/
def checked (visit : Visit) (stop : Bool) : Point :=
  if stop then .left (visit.workflow.cancelledWith "Workflow cancelled.")
  else .chosen visit

/-- A stage whose runtime was not made. -/
def unmade (visit : Visit) (summary : String) : Point :=
  .left (visit.workflow.failedAt "runtime_factory_failed" summary
    visit.stage.profileId)

/-- What follows the announcement of a stage; it may have thrown. -/
def announcing (visit : Visit) : Except Exception Unit → Point
  | .ok _ => .announced visit
  | .error _ => .executed visit stageThrew

/-- What follows the check of the flag behind the announcement. -/
def permitted (visit : Visit) (stop : Bool) : Point :=
  if stop then .withdrawing visit else .running visit

/-- The workflow is left in the scope of its runtime. -/
def leaving (visit : Visit) (workflow : OrchestrationResult) : Point :=
  .settled (.left workflow) visit.rest

/-- The stage is passed in the scope of its runtime. -/
def passing (visit : Visit) (result : AgentResult) : Point :=
  .settled (.next (visit.contributed result)) visit.rest

/-- What follows the execution of the runtime; it may have thrown. -/
def finishing (visit : Visit) : Except Exception AgentResult → Point
  | .ok result => .executed visit result
  | .error _ => .executed visit stageThrew

/-- What follows the report of a stage; it may have thrown. -/
def reporting (visit : Visit) (result : AgentResult) :
    Except Exception Unit → Point
  | .ok _ => .reported visit result
  | .error _ =>
      leaving visit ((visit.recorded result).failedAt
        "orchestration_callback_failed" "Orchestration stage callback failed."
        visit.stage.profileId)

/-- What follows the check of the flag behind the report. -/
def judged (visit : Visit) (result : AgentResult) (stop : Bool) : Point :=
  if stop || result.status = .cancelled then
    leaving visit ((visit.recorded result).cancelledWith
      (if result.summary = "" then "Workflow cancelled." else result.summary))
  else if result.status ≠ .completed then
    leaving visit
      ((visit.recorded result).incompleteAt result visit.stage.profileId)
  else if visit.rest.isEmpty then
    passing visit result
  else
    .continuing visit result

/-- What follows the question whether to continue; it may have thrown. -/
def asked (visit : Visit) (result : AgentResult) :
    Except Exception ContinuationDecision → Point
  | .ok decision => .decided visit result decision
  | .error _ =>
      leaving visit ((visit.contributed result).failedAt
        "orchestration_callback_failed"
        "Orchestration continuation callback failed." visit.stage.profileId)

/-- What follows the check of the flag behind a decision. -/
def ratified (visit : Visit) (result : AgentResult)
    (decision : ContinuationDecision) (stop : Bool) : Point :=
  if stop || decision = .cancel then
    leaving visit
      ((visit.contributed result).cancelledWith "Workflow cancelled.")
  else if decision = .decline then
    leaving visit (visit.contributed result).declined
  else
    passing visit result

theorem judged_of_each
    {motive : Point → Prop} {visit : Visit} {result : AgentResult}
    (leaves : ∀ workflow, motive (.leaving visit workflow))
    (passes : motive (.passing visit result))
    (continues : motive (.continuing visit result)) (stop : Bool) :
    motive (.judged visit result stop) := by
  unfold judged
  split_ifs
  · exact leaves _
  · exact leaves _
  · exact leaves _
  · exact passes
  · exact continues

theorem ratified_of_each
    {motive : Point → Prop} {visit : Visit} {result : AgentResult}
    (leaves : ∀ workflow, motive (.leaving visit workflow))
    (passes : motive (.passing visit result))
    (decision : ContinuationDecision) (stop : Bool) :
    motive (.ratified visit result decision stop) := by
  unfold ratified
  split_ifs
  · exact leaves _
  · exact leaves _
  · exact passes

/-- What follows the scope of a runtime. -/
def departing (rest : List (StageDefinition × AgentProfile)) :
    Progress → Point
  | .left workflow => .left workflow
  | .next workflow => .head rest workflow

end Point

/-! ## Outlines -/

/-- The triples of an orchestrator, which has no local variables. -/
abbrev CallTriple {Value : Type} (world : World signature State)
    (allowed : State → signature.Op → Prop) (before : State → Prop)
    (action : Action signature Unit Value)
    (after : Except Exception Value → State → Prop) : Prop :=
  Triple world allowed before action after

/-- `if (callbacks.on_stage_finished)` -/
def report (callbacks : OrchestrationCallbacks signature) (profileId : String)
    (result : AgentResult) : Action signature Unit Unit :=
  match callbacks.onStageFinished with
  | none => pure ()
  | some callback => Action.ofHost (callback profileId result)

/--
The conditions on the calls of a workflow.  The runtimes that its factory makes
are known, a stage has one of them.
-/
structure Outline (world : World signature State)
    (allowed : State → signature.Op → Prop)
    (orchestrator : AgentOrchestrator signature)
    (runtimeOf : AgentProfile → IAgentRuntime signature)
    (task : OrchestrationTask) (callbacks : OrchestrationCallbacks signature)
    (confirm : HostConfirm signature)
    (assertion : Point → State → Prop) : Prop where
  claims : CallTriple world allowed (assertion .entering)
    (Action.ofHost (orchestrator.executing.exchange true))
    (Returning fun busy => assertion (.entered busy))
  resets : CallTriple world allowed (assertion .claimed)
    (Action.ofHost (orchestrator.cancelRequested.store false))
    (Returning fun _ => assertion .preflight)
  refuses : ∀ code message state, assertion .preflight state →
    assertion (.left (preflightFailure code message)) state
  starts : ∀ stages state,
    findProfiles orchestrator.registry kStages = .ok stages →
      assertion .preflight state → assertion (.head stages {}) state
  checks : ∀ visit : Visit,
    CallTriple world allowed
      (assertion (.head ((visit.stage, visit.profile) :: visit.rest)
        visit.workflow))
      (Action.ofHost orchestrator.cancelRequested.load)
      (Returning fun stop => assertion (.checked visit stop))
  makes : ∀ factory visit, orchestrator.runtimeFactory = some factory →
    CallTriple world allowed (assertion (.chosen visit)) (factory visit.profile)
      fun outcome reached =>
        match outcome with
        | .ok (some runtime) =>
            runtime = runtimeOf visit.profile ∧
              assertion (.made visit) reached
        | .ok none =>
            assertion
              (.unmade visit "Agent runtime factory returned no runtime.")
              reached
        | .error _ =>
            assertion (.unmade visit "Agent runtime construction failed.")
              reached
  builds : ∀ visit,
    CallTriple world allowed (assertion (.made visit))
      (Action.ofHost orchestrator.runtimeLifetime.construct)
      (Returning fun _ => assertion (.built visit))
  attaches : ∀ visit,
    CallTriple world allowed (assertion (.built visit))
      (orchestrator.activeMutex.guarded
        (Action.ofHost orchestrator.activeRuntime.publish))
      (Returning fun _ => assertion (.attached visit))
  announces : ∀ visit,
    CallTriple world allowed (assertion (.attached visit))
      (notify callbacks.onStageStarted visit.stage.profileId)
      fun outcome => assertion (.announcing visit outcome)
  permits : ∀ visit,
    CallTriple world allowed (assertion (.announced visit))
      (Action.ofHost orchestrator.cancelRequested.load)
      (Returning fun stop => assertion (.permitted visit stop))
  withdraws : ∀ visit,
    CallTriple world allowed (assertion (.withdrawing visit))
      (orchestrator.activeMutex.guarded
        (Action.ofHost orchestrator.activeRuntime.clear))
      (Returning fun _ => assertion
        (.leaving visit (visit.workflow.cancelledWith "Workflow cancelled.")))
  executes : ∀ visit,
    CallTriple world allowed (assertion (.running visit))
      ((runtimeOf visit.profile).execute (visit.context task)
        callbacks.runtime confirm)
      fun outcome => assertion (.finishing visit outcome)
  detaches : ∀ visit result,
    CallTriple world allowed (assertion (.executed visit result))
      (orchestrator.activeMutex.guarded
        (Action.ofHost orchestrator.activeRuntime.clear))
      (Returning fun _ => assertion (.recorded visit result))
  reports : ∀ visit result,
    CallTriple world allowed (assertion (.recorded visit result))
      (report callbacks visit.stage.profileId result)
      fun outcome => assertion (.reporting visit result outcome)
  judges : ∀ visit result,
    CallTriple world allowed (assertion (.reported visit result))
      (Action.ofHost orchestrator.cancelRequested.load)
      (Returning fun stop => assertion (.judged visit result stop))
  unasked : callbacks.beforeNextStage = none → ∀ visit result state,
    assertion (.continuing visit result) state →
      assertion (.passing visit result) state
  asks : ∀ callback visit result, callbacks.beforeNextStage = some callback →
    CallTriple world allowed (assertion (.continuing visit result))
      (Action.ofHost
        (callback visit.stage.profileId result
          (stageArtifact visit.stage result)))
      fun outcome => assertion (.asked visit result outcome)
  ratifies : ∀ visit result decision,
    CallTriple world allowed (assertion (.decided visit result decision))
      (Action.ofHost orchestrator.cancelRequested.load)
      (Returning fun stop => assertion (.ratified visit result decision stop))
  destroys : ∀ progress rest,
    CallTriple world allowed (assertion (.settled progress rest))
      (Action.ofHost orchestrator.runtimeLifetime.destroy)
      (Returning fun _ => assertion (.departing rest progress))
  completes : ∀ workflow state, assertion (.head [] workflow) state →
    assertion (.left workflow.completed) state
  releases : ∀ workflow,
    CallTriple world allowed (assertion (.left workflow))
      (Action.ofHost (orchestrator.executing.store false))
      (Returning fun _ => assertion (.returned workflow))

/-! ## The workflow follows its outline -/

namespace Outline

variable {world : World signature State}
  {allowed : State → signature.Op → Prop}
  {orchestrator : AgentOrchestrator signature}
  {runtimeOf : AgentProfile → IAgentRuntime signature}
  {task : OrchestrationTask} {callbacks : OrchestrationCallbacks signature}
  {confirm : HostConfirm signature} {assertion : Point → State → Prop}
  (outline : Outline world allowed orchestrator runtimeOf task callbacks
    confirm assertion)

include outline

theorem finishThrew
    (visit : Visit) (result : AgentResult) :
    Triple world allowed (assertion (.recorded visit result))
      (AgentOrchestrator.finishThrew callbacks visit.stage.profileId result)
      (Returning fun threw => assertion
        (if threw then .reporting visit result (.error .foreign)
        else .reported visit result)) := by
  have reports := outline.reports visit result
  unfold report at reports
  unfold AgentOrchestrator.finishThrew
  cases present : callbacks.onStageFinished with
  | none =>
      rw [present] at reports
      exact reports
  | some callback =>
      rw [present] at reports
      exact .caught reports (fun _ _ _ found => found) fun _ _ found => found

theorem continueWorkflow (visit : Visit) (result : AgentResult) :
    Triple world allowed (assertion (.continuing visit result))
      (orchestrator.continueWorkflow callbacks visit.stage result
        (visit.contributed result))
      (Returning fun progress => assertion (.settled progress visit.rest)) := by
  unfold AgentOrchestrator.continueWorkflow
  cases present : callbacks.beforeNextStage with
  | none => exact fun _ => outline.unasked present visit result
  | some callback =>
      have decides : Triple world allowed (assertion (.continuing visit result))
          (AgentOrchestrator.decide callback visit.stage.profileId result
            (stageArtifact visit.stage result))
          (Returning fun decision => assertion
            (match decision with
            | some decision => .decided visit result decision
            | none => .asked visit result (.error .foreign))) :=
        .caught (outline.asks callback visit result present)
          (fun _ _ _ found => found) fun _ _ found => found
      refine decides.bind ?_
      rintro (_ | decision)
      · exact fun _ _ found => found
      · refine (outline.ratifies visit result decision).bind fun stop => ?_
        show Triple world allowed
          (assertion (if _ then _ else if _ then _ else _))
          (if _ then _ else if _ then _ else _) _
        split_ifs <;> exact fun _ _ found => found

theorem settleStage (visit : Visit) (result : AgentResult) :
    Triple world allowed (assertion (.recorded visit result))
      (orchestrator.settleStage callbacks visit.stage result
        visit.rest.isEmpty (visit.recorded result))
      (Returning fun progress => assertion (.settled progress visit.rest)) := by
  refine (outline.finishThrew visit result).bind fun threw => ?_
  cases threw with
  | true => exact fun _ _ found => found
  | false =>
      refine (outline.judges visit result).bind fun stop => ?_
      show Triple world allowed
        (assertion (if _ then _ else if _ then _ else if _ then _ else _))
        (if _ then _ else if _ then _ else if _ then _ else _) _
      split_ifs with cancelled silent incomplete last
      · exact fun _ _ found => found
      · exact fun _ _ found => found
      · exact fun _ _ found => found
      · exact fun _ _ found => found
      · exact outline.continueWorkflow visit result

/-- What follows the attempt to run a stage. -/
def Attempted (visit : Visit) : Option AgentResult → Point
  | some result => .executed visit result
  | none =>
      .leaving visit (visit.workflow.cancelledWith "Workflow cancelled.")

theorem attemptStage (visit : Visit) :
    Triple world allowed (assertion (.attached visit))
      (orchestrator.attemptStage (runtimeOf visit.profile)
        visit.stage.profileId (visit.context task) callbacks confirm)
      (Returning fun attempted => assertion (Attempted visit attempted)) := by
  refine .caught (outline.announces visit) (fun _ => ?_)
    fun _ _ found => found
  intro locals state announced
  apply Action.holds_tryCatch.mpr
  apply Action.holds_bind.mpr
  apply (outline.permits visit locals state announced).imp
  rintro (failure | _ | _) ⟨⟩ checked found
  · exact found.elim
  · apply Action.holds_bind.mpr
    apply (outline.executes visit () checked found).imp
    rintro (failure | result) ⟨⟩ ended executed
    · exact executed
    · exact executed
  · apply Action.holds_bind.mpr
    apply (outline.withdraws visit () checked found).imp
    rintro (failure | ⟨⟩) ⟨⟩ ended withdrawn
    · exact withdrawn.elim
    · exact withdrawn

/-- A stage in the scope of its runtime. -/
theorem scopedStage (visit : Visit) :
    Triple world allowed (assertion (.made visit))
      (orchestrator.runtimeLifetime.scoped do
        orchestrator.activeMutex.guarded
          (Action.ofHost orchestrator.activeRuntime.publish)
        let attempted ← orchestrator.attemptStage (runtimeOf visit.profile)
          visit.stage.profileId (visit.context task) callbacks confirm
        match attempted with
        | none =>
            pure
              (.left (visit.workflow.cancelledWith "Workflow cancelled."))
        | some result => do
            orchestrator.activeMutex.guarded
              (Action.ofHost orchestrator.activeRuntime.clear)
            orchestrator.settleStage callbacks visit.stage result
              visit.rest.isEmpty (visit.recorded result))
      (Returning fun progress =>
        assertion (.departing visit.rest progress)) := by
  refine (outline.builds visit).bind fun _ => ?_
  refine .guard ?_ fun progress => outline.destroys progress visit.rest
  refine (outline.attaches visit).bind fun _ => ?_
  refine (outline.attemptStage visit).bind ?_
  rintro (_ | result)
  · exact fun _ _ found => found
  · exact (outline.detaches visit result).bind fun _ =>
      outline.settleStage visit result

theorem runStage
    (factory : AgentRuntimeFactory signature) (visit : Visit)
    (present : orchestrator.runtimeFactory = some factory) :
    Triple world allowed
      (assertion (.head ((visit.stage, visit.profile) :: visit.rest)
        visit.workflow))
      (orchestrator.runStage factory task callbacks confirm visit.stage
        visit.profile visit.rest.isEmpty visit.workflow)
      (Returning fun progress =>
        assertion (.departing visit.rest progress)) := by
  refine (outline.checks visit).bind fun stop => ?_
  cases stop with
  | true => exact fun _ _ found => found
  | false =>
      intro locals state chosen
      apply Action.holds_bind.mpr
      apply Action.holds_tryCatch.mpr
      apply Action.holds_bind.mpr
      apply (outline.makes factory visit present locals state chosen).imp
      rintro (failure | _ | runtime) ⟨⟩ reached found
      · exact found
      · exact found
      · obtain ⟨rfl, made⟩ := found
        exact outline.scopedStage visit () reached made

theorem runStages
    (factory : AgentRuntimeFactory signature)
    (present : orchestrator.runtimeFactory = some factory)
    (stages : List (StageDefinition × AgentProfile))
    (workflow : OrchestrationResult) :
    Triple world allowed (assertion (.head stages workflow))
      (orchestrator.runStages factory task callbacks confirm stages workflow)
      (Returning fun result => assertion (.left result)) := by
  induction stages generalizing workflow with
  | nil => exact fun _ => outline.completes workflow
  | cons first rest induction =>
      refine (outline.runStage factory ⟨first.1, first.2, rest, workflow⟩
        present).bind ?_
      rintro (left | following)
      · exact fun _ _ found => found
      · exact induction following

theorem executeClaimed :
    Triple world allowed (assertion .claimed)
      (orchestrator.executeClaimed task callbacks confirm)
      (Returning fun result => assertion (.left result)) := by
  refine outline.resets.bind fun _ => ?_
  split
  · exact fun _ => outline.refuses _ _
  · split
    · exact fun _ => outline.refuses _ _
    · rename_i factory present
      split
      · exact fun _ => outline.refuses _ _
      · split
        · exact fun _ => outline.refuses _ _
        · rename_i stages known
          intro locals state preflight
          exact outline.runStages factory present stages {} locals state
            (outline.starts stages state known preflight)

/-- A workflow that follows an outline returns where the outline says so. -/
theorem execute :
    Triple world allowed (assertion .entering)
      (orchestrator.execute task callbacks confirm)
      (Returning fun result => assertion (.returned result)) := by
  refine outline.claims.bind fun busy => ?_
  cases busy with
  | true => exact fun _ _ found => found
  | false => exact .guard outline.executeClaimed outline.releases

end Outline

/-! ## A single agent -/

/-- Where an execution of a single agent stands between two of its calls. -/
inductive AgentPoint where
  | entering
  | claimed
  | preflight
  | chosen (profile : AgentProfile)
  | made (profile : AgentProfile)
  | built (profile : AgentProfile)
  | attached (profile : AgentProfile)
  | running (profile : AgentProfile)
  | executed (result : AgentResult)
  | detached (result : AgentResult)
  | settled (result : AgentResult)
  | left (result : AgentResult)
  | returned (result : AgentResult)

namespace AgentPoint

/-- What follows the exchange at the gate. -/
def entered (busy : Bool) : AgentPoint :=
  if busy then
    .returned (agentFailure "orchestrator_busy"
      "An agent execution is already running.")
  else
    .claimed

/-- What follows the check of the flag in front of the runtime. -/
def permitted (profile : AgentProfile) (stop : Bool) : AgentPoint :=
  if stop then
    .executed { status := .cancelled, summary := "Execution cancelled." }
  else
    .running profile

/-- What follows the execution of the runtime; it may have thrown. -/
def finishing : Except Exception AgentResult → AgentPoint
  | .ok result => .executed result
  | .error _ =>
      .executed (agentFailure "execution_exception"
        "Agent runtime execution failed.")

/-- What follows the check of the flag behind the runtime. -/
def judged (result : AgentResult) (stop : Bool) : AgentPoint :=
  if stop || result.status = .cancelled then
    .settled
      { status := .cancelled
        summary :=
          if result.summary = "" then "Execution cancelled."
          else result.summary
        artifacts := result.artifacts }
  else
    .settled result

end AgentPoint

/-- The conditions on the calls of an execution of a single agent. -/
structure AgentOutline (world : World signature State)
    (allowed : State → signature.Op → Prop)
    (orchestrator : AgentOrchestrator signature)
    (runtimeOf : AgentProfile → IAgentRuntime signature)
    (profileId : String) (task : AgentTask)
    (callbacks : StreamCallbacks signature)
    (confirm : HostConfirm signature)
    (assertion : AgentPoint → State → Prop) : Prop where
  claims : CallTriple world allowed (assertion .entering)
    (Action.ofHost (orchestrator.executing.exchange true))
    (Returning fun busy => assertion (.entered busy))
  resets : CallTriple world allowed (assertion .claimed)
    (Action.ofHost (orchestrator.cancelRequested.store false))
    (Returning fun _ => assertion .preflight)
  refuses : ∀ code message state, assertion .preflight state →
    assertion (.left (agentFailure code message)) state
  starts : ∀ profile state,
    orchestrator.registry.find profileId = some profile →
      assertion .preflight state → assertion (.chosen profile) state
  makes : ∀ factory profile, orchestrator.runtimeFactory = some factory →
    CallTriple world allowed (assertion (.chosen profile)) (factory profile)
      fun outcome reached =>
        match outcome with
        | .ok (some runtime) =>
            runtime = runtimeOf profile ∧ assertion (.made profile) reached
        | .ok none =>
            assertion (.left (agentFailure "runtime_factory_failed"
              "Agent runtime factory returned no runtime.")) reached
        | .error _ =>
            assertion (.left (agentFailure "runtime_factory_failed"
              "Agent runtime construction failed.")) reached
  builds : ∀ profile,
    CallTriple world allowed (assertion (.made profile))
      (Action.ofHost orchestrator.runtimeLifetime.construct)
      (Returning fun _ => assertion (.built profile))
  attaches : ∀ profile,
    CallTriple world allowed (assertion (.built profile))
      (orchestrator.activeMutex.guarded
        (Action.ofHost orchestrator.activeRuntime.publish))
      (Returning fun _ => assertion (.attached profile))
  permits : ∀ profile,
    CallTriple world allowed (assertion (.attached profile))
      (Action.ofHost orchestrator.cancelRequested.load)
      (Returning fun stop => assertion (.permitted profile stop))
  executes : ∀ profile,
    CallTriple world allowed (assertion (.running profile))
      ((runtimeOf profile).execute { profile := profile, task := task }
        callbacks confirm)
      fun outcome => assertion (.finishing outcome)
  detaches : ∀ result,
    CallTriple world allowed (assertion (.executed result))
      (orchestrator.activeMutex.guarded
        (Action.ofHost orchestrator.activeRuntime.clear))
      (Returning fun _ => assertion (.detached result))
  judges : ∀ result,
    CallTriple world allowed (assertion (.detached result))
      (Action.ofHost orchestrator.cancelRequested.load)
      (Returning fun stop => assertion (.judged result stop))
  destroys : ∀ result,
    CallTriple world allowed (assertion (.settled result))
      (Action.ofHost orchestrator.runtimeLifetime.destroy)
      (Returning fun _ => assertion (.left result))
  releases : ∀ result,
    CallTriple world allowed (assertion (.left result))
      (Action.ofHost (orchestrator.executing.store false))
      (Returning fun _ => assertion (.returned result))

namespace AgentOutline

variable {world : World signature State}
  {allowed : State → signature.Op → Prop}
  {orchestrator : AgentOrchestrator signature}
  {runtimeOf : AgentProfile → IAgentRuntime signature}
  {profileId : String} {task : AgentTask}
  {callbacks : StreamCallbacks signature} {confirm : HostConfirm signature}
  {assertion : AgentPoint → State → Prop}
  (outline : AgentOutline world allowed orchestrator runtimeOf profileId task
    callbacks confirm assertion)

include outline

theorem executeOnce (profile : AgentProfile) :
    Triple world allowed (assertion (.attached profile))
      (orchestrator.executeOnce (runtimeOf profile)
        { profile := profile, task := task } callbacks confirm)
      (Returning fun result => assertion (.executed result)) := by
  intro locals state attached
  apply Action.holds_tryCatch.mpr
  apply Action.holds_bind.mpr
  apply (outline.permits profile locals state attached).imp
  rintro (failure | _ | _) ⟨⟩ checked found
  · exact found.elim
  · apply (outline.executes profile () checked found).imp
    rintro (failure | result) ⟨⟩ ended executed
    · exact executed
    · exact executed
  · exact found

theorem settleOnce (result : AgentResult) :
    Triple world allowed (assertion (.detached result))
      (orchestrator.settleOnce result)
      (Returning fun settled => assertion (.settled settled)) := by
  refine (outline.judges result).bind fun stop => ?_
  show Triple world allowed (assertion (if _ then _ else _))
    (if _ then _ else _) _
  split
  · exact fun _ _ found => found
  · exact fun _ _ found => found

theorem scopedAgent (profile : AgentProfile) :
    Triple world allowed (assertion (.made profile))
      (orchestrator.runtimeLifetime.scoped do
        orchestrator.activeMutex.guarded
          (Action.ofHost orchestrator.activeRuntime.publish)
        let result ← orchestrator.executeOnce (runtimeOf profile)
          { profile := profile, task := task } callbacks confirm
        orchestrator.activeMutex.guarded
          (Action.ofHost orchestrator.activeRuntime.clear)
        orchestrator.settleOnce result)
      (Returning fun result => assertion (.left result)) := by
  refine (outline.builds profile).bind fun _ => ?_
  refine .guard ?_ outline.destroys
  refine (outline.attaches profile).bind fun _ => ?_
  refine (outline.executeOnce profile).bind fun result => ?_
  exact (outline.detaches result).bind fun _ => outline.settleOnce result

theorem executeAgentClaimed :
    Triple world allowed (assertion .claimed)
      (orchestrator.executeAgentClaimed profileId task callbacks confirm)
      (Returning fun result => assertion (.left result)) := by
  refine outline.resets.bind fun _ => ?_
  split
  · exact fun _ => outline.refuses _ _
  · split
    · exact fun _ => outline.refuses _ _
    · rename_i factory present
      split
      · exact fun _ => outline.refuses _ _
      · rename_i profile known
        intro locals state preflight
        apply Action.holds_bind.mpr
        apply Action.holds_tryCatch.mpr
        apply Action.holds_bind.mpr
        apply (outline.makes factory profile present locals state
          (outline.starts profile state known preflight)).imp
        rintro (failure | _ | runtime) ⟨⟩ reached found
        · exact found
        · exact found
        · obtain ⟨rfl, made⟩ := found
          exact outline.scopedAgent profile () reached made

/-- An execution of a single agent returns where its outline says so. -/
theorem executeAgent :
    Triple world allowed (assertion .entering)
      (orchestrator.executeAgent profileId task callbacks confirm)
      (Returning fun result => assertion (.returned result)) := by
  refine outline.claims.bind fun busy => ?_
  cases busy with
  | true => exact fun _ _ found => found
  | false => exact .guard outline.executeAgentClaimed outline.releases

end AgentOutline

/-! ## The calls of the environment -/

section Calls

variable {world : World agents State}
  {allowed : State → AgentOp → Prop} {before : State → Prop}
  {started finished continuation text progress : Bool}

/-- A factory that makes one runtime, makes none or throws. -/
theorem triple_create
    {profile : AgentProfile} {runtime : IAgentRuntime agents}
    {next : Except Exception (Option (IAgentRuntime agents)) → State → Prop}
    (step : Step world allowed before (.createRuntime profile)
      fun answer => next (answer.map fun created =>
        if created then some runtime else none)) :
    Triple world allowed before
      (do
        let created ← Action.ofHost (ask (AgentOp.createRuntime profile))
        if created then pure (some runtime) else pure none :
        Action agents Unit (Option (IAgentRuntime agents))) next := by
  intro locals state start
  refine ⟨(step state start).1, fun answer reached performed => ?_⟩
  have found := (step state start).2 answer reached performed
  rcases answer with failure | _ | _
  · exact found
  · exact found
  · exact found

/-- A stage is announced, or the callback is absent. -/
theorem triple_announce
    {profileId : String} {next : Except Exception Unit → State → Prop}
    (silent : started = false → ∀ state, before state → next (.ok ()) state)
    (calls : started = true → Step world allowed before
      (.stageStarted profileId) fun answer => next answer) :
    CallTriple world allowed before
      (notify
        (hostWorkflow started finished continuation text
          progress).onStageStarted profileId) next := by
  cases started with
  | false => exact fun _ => silent rfl
  | true => exact triple_ask (calls rfl)

/-- A stage is reported, or the callback is absent. -/
theorem triple_report
    {profileId : String} {result : AgentResult}
    {next : Except Exception Unit → State → Prop}
    (silent : finished = false → ∀ state, before state → next (.ok ()) state)
    (calls : finished = true → Step world allowed before
      (.stageFinished profileId result) fun answer => next answer) :
    Triple world allowed before
      (report (hostWorkflow started finished continuation text progress)
        profileId result) next := by
  cases finished with
  | false => exact fun _ => silent rfl
  | true => exact triple_ask (calls rfl)

end Calls

end ArnCore.Agent.WorkflowOutline
