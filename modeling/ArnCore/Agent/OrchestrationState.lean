import ArnCore.Agent.Environment
import ArnCore.Agent.StageArtifacts

/-!
# The state of a workflow and what is seen of it

An observer of a workflow keeps the stages whose runtimes were requested, the
results that have to be recorded, and whether anything has stopped the run.
The invariants relate what was seen to the result under construction, at the
head of the loop over the stages and inside one stage; every way to leave the
workflow leads from them to a result of the right shape.
-/

namespace ArnCore.Agent.OrchestrationState

open ArnCore.Interaction
open ArnCore.Agent.Environment
open ArnCore.Agent.StageArtifacts

/-! ## What an observer of a workflow sees -/

structure Seen where
  created : List String := []
  recorded : List AgentResult := []
  kept : Nat := 0
  proceeded : Nat := 0
  stopped : Bool := false

namespace Seen

/-- A check of the cancellation flag; a clear one keeps what is recorded. -/
def checked (seen : Seen) (stop : Bool) : Seen :=
  if stop then { seen with stopped := true }
  else { seen with kept := seen.recorded.length }

/-- A call of the factory; it stops the run unless it returns a runtime. -/
def requested (seen : Seen) (profileId : String)
    (outcome : Except Exception Bool) : Seen :=
  match outcome with
  | .ok true => { seen with created := seen.created ++ [profileId] }
  | _ =>
      { seen with
        created := seen.created ++ [profileId]
        stopped := true }

/-- A start callback that throws takes the place of the runtime's result. -/
def started (seen : Seen) (outcome : Except Exception Unit) : Seen :=
  match outcome with
  | .ok _ => seen
  | .error _ =>
      { seen with
        recorded := seen.recorded ++ [AgentOrchestrator.stageThrew] }

/-- An execution of a runtime. -/
def executed (seen : Seen) (outcome : Except Exception AgentResult) : Seen :=
  match outcome with
  | .ok result => { seen with recorded := seen.recorded ++ [result] }
  | .error _ =>
      { seen with
        recorded := seen.recorded ++ [AgentOrchestrator.stageThrew] }

/-- A finish callback stops the run when it throws. -/
def finished (seen : Seen) (outcome : Except Exception Unit) : Seen :=
  match outcome with
  | .ok _ => seen
  | .error _ => { seen with stopped := true }

/-- A continuation callback stops the run unless it proceeds. -/
def decided (seen : Seen)
    (outcome : Except Exception ContinuationDecision) : Seen :=
  match outcome with
  | .ok .proceed => { seen with proceeded := seen.proceeded + 1 }
  | _ => { seen with stopped := true }

end Seen

def observe (seen : Seen) : AgentEvent → Seen
  | ⟨.load .cancelRequested, stop⟩ => seen.checked stop
  | ⟨.createRuntime profile, outcome⟩ => seen.requested profile.id outcome
  | ⟨.stageStarted _, outcome⟩ => seen.started outcome
  | ⟨.executeRuntime _, outcome⟩ => seen.executed outcome
  | ⟨.stageFinished _ _, outcome⟩ => seen.finished outcome
  | ⟨.beforeNextStage _ _ _, outcome⟩ => seen.decided outcome
  | _ => seen

/-- Everything seen of a history. -/
def observed (history : List AgentEvent) : Seen :=
  history.foldl observe {}

/-! ## What a workflow may do -/

/-- Every stage requested so far was passed and nothing stopped the run. -/
structure Ready (continuation : Bool) (seen : Seen) : Prop where
  recorded : seen.recorded.length = seen.created.length
  completed : ∀ result ∈ seen.recorded, result.status = .completed
  running : seen.stopped = false
  proceeded : continuation = true → seen.proceeded = seen.created.length

/-- What a workflow may do after what was seen. -/
def Permitted (registry : AgentRegistry) (task : OrchestrationTask)
    (continuation : Bool) (seen : Seen) : AgentOp → Prop
  | .createRuntime profile =>
      ∃ stage,
        kStages[seen.created.length]? = some stage ∧
          seen.created = stageIds.take seen.created.length ∧
          registry.find stage.profileId = some profile ∧
          Ready continuation seen
  | .executeRuntime context =>
      ∃ stage profile,
        kStages[seen.recorded.length]? = some stage ∧
          registry.find stage.profileId = some profile ∧
          context = scopedContext task stage profile seen.recorded
  | .beforeNextStage profileId result artifact =>
      ∃ earlier stage,
        seen.recorded = earlier ++ [result] ∧
          kStages[earlier.length]? = some stage ∧
          profileId = stage.profileId ∧
          artifact =
            summaryArtifact stage.outputType stage.profileId result ∧
          artifact ∈ scopedArtifacts task.initialArtifacts seen.recorded
  | _ => True

/-- The statuses that come with an error. -/
def OrchestrationStatus.IsError (status : OrchestrationStatus) : Prop :=
  status = .failed ∨ status = .needsInput ∨ status = .needsConfirmation

/--
The result of a workflow, compared with what was seen of the run. The records
up to the last clear check contribute to its artifacts: these are all records
but possibly the last one, and all four of a completed run.
-/
structure Shape (seen : Seen) (result : OrchestrationResult) : Prop where
  executions :
    result.executions =
      (kStages.zip seen.recorded).map fun entry =>
        { profileId := entry.1.profileId, result := entry.2 }
  stages :
    result.executions.map AgentExecutionRecord.profileId <+: stageIds
  completed :
    result.status = .completed ↔
      seen.recorded.length = 4 ∧
        (∀ record ∈ seen.recorded, record.status = .completed) ∧
        seen.stopped = false
  summary :
    result.status = .completed →
      ∃ reviewer, seen.recorded[3]? = some reviewer ∧
        result.summary = reviewer.summary
  errors :
    result.error.isSome = true ↔ OrchestrationStatus.IsError result.status
  stoppedAt :
    ∀ error, result.error = some error →
      (seen.created = [] ∧ error.profileId = "") ∨
        seen.created.getLast? = some error.profileId
  earlier : ∀ record ∈ seen.recorded.dropLast, record.status = .completed
  kept : seen.recorded.length ≤ seen.kept + 1
  whole : result.status = .completed → seen.kept = seen.recorded.length
  artifacts :
    result.artifacts = contributions (seen.recorded.take seen.kept)

/-! ## The state between two stages -/

section Run

variable {registry : AgentRegistry} {task : OrchestrationTask}
  {continuation : Bool} {seen : Seen} {workflow : OrchestrationResult}
  {passed : List AgentResult}

/-- What the workflow and the observer agree on while stages are passed. -/
structure Recorded (results : List AgentResult) (seen : Seen)
    (workflow : OrchestrationResult) : Prop where
  recorded : seen.recorded = results
  executions :
    workflow.executions =
      (kStages.zip results).map fun entry =>
        { profileId := entry.1.profileId, result := entry.2 }
  stages : workflow.executions.map AgentExecutionRecord.profileId =
    stageIds.take results.length
  late : results.length ≤ seen.kept + 1
  artifacts :
    workflow.artifacts = contributions (results.take seen.kept)
  error : workflow.error = none

/-- The state at the head of the loop over the stages. -/
structure AtHead (continuation : Bool) (passed : List AgentResult)
    (seen : Seen) (workflow : OrchestrationResult) : Prop
    extends Recorded passed seen workflow where
  created : seen.created = stageIds.take passed.length
  length : passed.length ≤ 4
  completed : ∀ result ∈ passed, result.status = .completed
  running : seen.stopped = false
  proceeded :
    passed.length < 4 → continuation = true →
      seen.proceeded = passed.length
  kept : seen.kept = passed.length

/-- Only the recorded results and the kept ones are compared. -/
theorem Recorded.congr
    {results : List AgentResult} {after : Seen}
    (recorded : Recorded results seen workflow)
    (same : after.recorded = seen.recorded)
    (kept : after.kept = seen.kept) :
    Recorded results after workflow where
  recorded := same.trans recorded.recorded
  executions := recorded.executions
  stages := recorded.stages
  late := by
    rw [kept]
    exact recorded.late
  artifacts := by
    rw [kept]
    exact recorded.artifacts
  error := recorded.error

theorem Recorded.snoc
    {stage : StageDefinition} {result : AgentResult}
    {results : List AgentResult} {after : Seen}
    (recorded : Recorded results seen workflow)
    (next : kStages[results.length]? = some stage)
    (settled : seen.kept = results.length)
    (grown : after.recorded = seen.recorded ++ [result])
    (kept : after.kept = seen.kept) :
    Recorded (results ++ [result]) after
      (workflow.recorded stage.profileId result) where
  recorded := by rw [grown, recorded.recorded]
  executions := by
    rw [zip_snoc next, List.map_append, ← recorded.executions]
    rfl
  stages := by
    show (workflow.executions ++ [_]).map _ = _
    rw [List.map_append, recorded.stages, List.length_append]
    have id : stageIds[results.length]? = some stage.profileId := by
      rw [stageIds, List.getElem?_map, next]
      rfl
    rw [List.length_singleton, List.take_add_one, id]
    rfl
  late := by
    rw [kept, settled, List.length_append, List.length_singleton]
  artifacts := by
    rw [kept, List.take_append_of_le_length (Nat.le_of_eq settled)]
    exact recorded.artifacts
  error := recorded.error

/-- Leaving the workflow before it is completed. -/
theorem Recorded.left
    {results : List AgentResult}
    (recorded : Recorded results seen workflow)
    (left : OrchestrationResult)
    (executions : left.executions = workflow.executions)
    (artifacts : left.artifacts = workflow.artifacts)
    (earlier : ∀ record ∈ results.dropLast, record.status = .completed)
    (incomplete : seen.stopped = true ∨
      ∃ record ∈ results, record.status ≠ .completed)
    (notCompleted : left.status ≠ .completed)
    (errors :
      left.error.isSome = true ↔ OrchestrationStatus.IsError left.status)
    (stoppedAt : ∀ error, left.error = some error →
      seen.created.getLast? = some error.profileId) :
    Shape seen left where
  executions := by
    rw [executions, recorded.executions, recorded.recorded]
  stages := by
    rw [executions, recorded.stages]
    exact List.take_prefix _ _
  completed := by
    constructor
    · intro completed
      exact absurd completed notCompleted
    · rintro ⟨_, allCompleted, running⟩
      rcases incomplete with stopped | ⟨record, member, other⟩
      · rw [stopped] at running
        cases running
      · rw [← recorded.recorded] at member
        exact absurd (allCompleted record member) other
  summary := fun completed => absurd completed notCompleted
  errors := errors
  stoppedAt := fun error present => Or.inr (stoppedAt error present)
  earlier := by
    rw [recorded.recorded]
    exact earlier
  kept := by
    rw [recorded.recorded]
    exact recorded.late
  whole := fun completed => absurd completed notCompleted
  artifacts := by
    rw [artifacts, recorded.artifacts, recorded.recorded]

/-- Leaving the workflow without an error. -/
theorem Recorded.left_without_error
    {results : List AgentResult}
    (recorded : Recorded results seen workflow)
    (left : OrchestrationResult)
    (executions : left.executions = workflow.executions)
    (artifacts : left.artifacts = workflow.artifacts)
    (error : left.error = workflow.error)
    (earlier : ∀ record ∈ results.dropLast, record.status = .completed)
    (incomplete : seen.stopped = true ∨
      ∃ record ∈ results, record.status ≠ .completed)
    (status : left.status = .cancelled ∨
      left.status = .continuationDeclined) :
    Shape seen left := by
  have noError : left.error = none := error.trans recorded.error
  apply recorded.left left executions artifacts earlier incomplete
  · rcases status with cancelled | declined
    · rw [cancelled]
      exact nofun
    · rw [declined]
      exact nofun
  · rw [noError]
    rcases status with cancelled | declined
    · simp [OrchestrationStatus.IsError, cancelled]
    · simp [OrchestrationStatus.IsError, declined]
  · intro failure present
    rw [noError] at present
    cases present

/-- Leaving the workflow with an error of the environment. -/
theorem Recorded.failedAt
    {results : List AgentResult} {code summary profileId : String}
    (recorded : Recorded results seen workflow)
    (earlier : ∀ record ∈ results.dropLast, record.status = .completed)
    (stopped : seen.stopped = true)
    (last : seen.created.getLast? = some profileId) :
    Shape seen (workflow.failedAt code summary profileId) := by
  apply recorded.left (workflow.failedAt code summary profileId) rfl rfl
    earlier (Or.inl stopped)
  · simp [OrchestrationResult.failedAt]
  · simp [OrchestrationResult.failedAt, OrchestrationStatus.IsError]
  · rintro failure ⟨⟩
    exact last

/-- Leaving the workflow with the result of an incomplete stage. -/
theorem Recorded.incompleteAt
    {results : List AgentResult} {result : AgentResult} {profileId : String}
    (recorded : Recorded (results ++ [result]) seen workflow)
    (earlier : ∀ record ∈ results, record.status = .completed)
    (incomplete : result.status ≠ .completed)
    (notCancelled : result.status ≠ .cancelled)
    (last : seen.created.getLast? = some profileId) :
    Shape seen (workflow.incompleteAt result profileId) := by
  apply recorded.left (workflow.incompleteAt result profileId) rfl rfl
  · simpa using earlier
  · exact Or.inr ⟨result, by simp, incomplete⟩
  · cases status : result.status <;>
      simp_all [OrchestrationResult.incompleteAt, orchestrationStatus]
  · cases status : result.status <;>
      simp_all [OrchestrationResult.incompleteAt, orchestrationStatus,
        OrchestrationStatus.IsError]
  · rintro failure ⟨⟩
    exact last

/-- Leaving the workflow after its last stage. -/
theorem AtHead.completed_shape
    (atHead : AtHead continuation passed seen workflow)
    (all : passed.length = 4) :
    Shape seen workflow.completed where
  executions := by
    rw [atHead.recorded]
    exact atHead.executions
  stages := by
    show workflow.executions.map _ <+: _
    rw [atHead.stages]
    exact List.take_prefix _ _
  completed := by
    refine ⟨fun _ => ⟨?_, ?_, atHead.running⟩, fun _ => rfl⟩
    · rw [atHead.recorded, all]
    · rw [atHead.recorded]
      exact atHead.completed
  summary := by
    intro _
    rw [atHead.recorded]
    rcases passed with
      _ | ⟨explorer, _ | ⟨planner, _ | ⟨coder, _ | ⟨reviewer, _ | _⟩⟩⟩⟩
    all_goals simp at all
    refine ⟨reviewer, rfl, ?_⟩
    show ((workflow.executions.getLast?).map _).getD "" = _
    rw [atHead.executions]
    rfl
  errors := by
    show workflow.error.isSome = true ↔ _
    rw [atHead.error]
    simp [OrchestrationResult.completed, OrchestrationStatus.IsError]
  stoppedAt := by
    intro error present
    have noError : workflow.completed.error = none := atHead.error
    rw [noError] at present
    cases present
  earlier := by
    rw [atHead.recorded]
    exact fun record member =>
      atHead.completed record ((List.dropLast_sublist _).subset member)
  kept := by
    rw [atHead.recorded]
    exact atHead.late
  whole := by
    intro _
    rw [atHead.recorded, atHead.kept]
  artifacts := by
    rw [atHead.recorded]
    exact atHead.artifacts

/-- The state inside a stage: its runtime exists, its result may be recorded. -/
structure InStage (continuation : Bool) (passed : List AgentResult)
    (stage : StageDefinition) (results : List AgentResult)
    (seen : Seen) (workflow : OrchestrationResult) : Prop
    extends Recorded results seen workflow where
  next : kStages[passed.length]? = some stage
  created : seen.created = stageIds.take (passed.length + 1)
  completed : ∀ result ∈ passed, result.status = .completed
  running : seen.stopped = false
  proceeded : continuation = true → seen.proceeded = passed.length
  kept : seen.kept = passed.length

variable {stage : StageDefinition} {results : List AgentResult}
  {result : AgentResult}

theorem stageId_of_stage
    {index : Nat} (next : kStages[index]? = some stage) :
    stageIds[index]? = some stage.profileId := by
  rw [stageIds, List.getElem?_map, next]
  rfl

theorem InStage.last
    (inStage : InStage continuation passed stage results seen workflow) :
    seen.created.getLast? = some stage.profileId := by
  rw [inStage.created, List.take_add_one, stageId_of_stage inStage.next]
  exact List.getLast?_concat

theorem InStage.length
    (inStage : InStage continuation passed stage results seen workflow) :
    passed.length + 1 ≤ 4 := by
  rcases List.getElem?_eq_some_iff.mp inStage.next with ⟨inside, _⟩
  exact inside

/-- A clear check at the head of the loop changes nothing. -/
theorem AtHead.checked_clear
    (atHead : AtHead continuation passed seen workflow) :
    seen.checked false = seen := by
  have same : seen.recorded.length = seen.kept := by
    rw [atHead.recorded, atHead.kept]
  show { seen with kept := seen.recorded.length } = seen
  rw [same]

section Head

variable {profile : AgentProfile}
  (atHead : AtHead continuation passed seen workflow)
  (next : kStages[passed.length]? = some stage)
  (found : registry.find stage.profileId = some profile)

include atHead next found

/-- The runtime of the next stage may be requested. -/
theorem AtHead.permits :
    Permitted registry task continuation seen (.createRuntime profile) := by
  have within : passed.length < 4 := by
    rcases List.getElem?_eq_some_iff.mp next with ⟨inside, _⟩
    exact inside
  have createdLength : seen.created.length = passed.length := by
    rw [atHead.created, List.length_take]
    exact Nat.min_eq_left atHead.length
  refine ⟨stage, ?_, ?_, found, ?_, ?_, atHead.running, ?_⟩
  · rw [createdLength]
    exact next
  · rw [createdLength]
    exact atHead.created
  · rw [atHead.recorded, createdLength]
  · rw [atHead.recorded]
    exact atHead.completed
  · intro asked
    rw [atHead.proceeded within asked, createdLength]

/-- A stage is entered with the runtime that was requested for it. -/
theorem AtHead.enters :
    InStage continuation passed stage passed
      (seen.requested profile.id (.ok true)) workflow where
  toRecorded := atHead.toRecorded.congr rfl rfl
  next := next
  created := by
    show seen.created ++ [profile.id] = _
    rw [atHead.created, List.take_add_one, stageId_of_stage next,
      AgentRegistry.find_id found]
    rfl
  completed := atHead.completed
  running := atHead.running
  proceeded := by
    rcases List.getElem?_eq_some_iff.mp next with ⟨inside, _⟩
    exact atHead.proceeded inside
  kept := atHead.kept

end Head

/-- A clear check keeps the recorded result; an incomplete one adds nothing. -/
theorem InStage.checked_incomplete
    (inStage :
      InStage continuation passed stage (passed ++ [result]) seen workflow)
    (incomplete : result.status ≠ .completed) :
    Recorded (passed ++ [result]) (seen.checked false) workflow where
  recorded := inStage.recorded
  executions := inStage.executions
  stages := inStage.stages
  late := by
    show _ ≤ seen.recorded.length + 1
    rw [inStage.recorded]
    exact Nat.le_succ _
  artifacts := by
    have before := inStage.artifacts
    rw [inStage.kept, List.take_left] at before
    show _ = contributions ((passed ++ [result]).take seen.recorded.length)
    rw [inStage.recorded, List.take_length, before,
      contributions_snoc inStage.next, if_neg incomplete, List.append_nil]
  error := inStage.error

/-- A clear check after a completed stage lets it contribute. -/
theorem InStage.checked_completed
    (inStage :
      InStage continuation passed stage (passed ++ [result]) seen workflow)
    (completed : result.status = .completed) :
    Recorded (passed ++ [result]) (seen.checked false)
      (workflow.contributed (contribution stage result)) where
  recorded := inStage.recorded
  executions := inStage.executions
  stages := inStage.stages
  late := by
    show _ ≤ seen.recorded.length + 1
    rw [inStage.recorded]
    exact Nat.le_succ _
  artifacts := by
    have before := inStage.artifacts
    rw [inStage.kept, List.take_left] at before
    show workflow.artifacts ++ contribution stage result =
      contributions ((passed ++ [result]).take seen.recorded.length)
    rw [inStage.recorded, List.take_length, before,
      contributions_snoc inStage.next, if_pos completed]
  error := inStage.error

/-- A stage that contributed leads to the head of the loop. -/
theorem InStage.passes
    {after : Seen} {contributed : OrchestrationResult}
    (inStage :
      InStage continuation passed stage (passed ++ [result]) seen workflow)
    (completed : result.status = .completed)
    (recorded : Recorded (passed ++ [result]) after contributed)
    (created : after.created = seen.created)
    (running : after.stopped = false)
    (kept : after.kept = seen.recorded.length)
    (proceeded : passed.length + 1 < 4 → continuation = true →
      after.proceeded = passed.length + 1) :
    AtHead continuation (passed ++ [result]) after contributed where
  toRecorded := recorded
  created := by
    rw [created, inStage.created, List.length_append, List.length_singleton]
  length := by
    rw [List.length_append, List.length_singleton]
    exact inStage.length
  completed := by
    intro record member
    rcases List.mem_append.mp member with earlier | last
    · exact inStage.completed record earlier
    · rw [List.mem_singleton.mp last]
      exact completed
  running := running
  proceeded := by
    rw [List.length_append, List.length_singleton]
    exact proceeded
  kept := by rw [kept, inStage.recorded]

/-- Recording one result inside a stage. -/
theorem InStage.record
    {after : Seen}
    (inStage : InStage continuation passed stage passed seen workflow)
    (grown : after.recorded = seen.recorded ++ [result])
    (created : after.created = seen.created)
    (running : after.stopped = seen.stopped)
    (proceeded : after.proceeded = seen.proceeded)
    (kept : after.kept = seen.kept) :
    InStage continuation passed stage (passed ++ [result]) after
      (workflow.recorded stage.profileId result) where
  toRecorded := inStage.toRecorded.snoc inStage.next
    inStage.kept grown kept
  next := inStage.next
  created := created.trans inStage.created
  completed := inStage.completed
  running := running.trans inStage.running
  proceeded := fun asked => proceeded.trans (inStage.proceeded asked)
  kept := kept.trans inStage.kept

/-- A clear check inside a stage whose result is not recorded yet. -/
theorem InStage.checked_entered
    (inStage : InStage continuation passed stage passed seen workflow) :
    seen.checked false = seen := by
  have same : seen.recorded.length = seen.kept := by
    rw [inStage.recorded, inStage.kept]
  show { seen with kept := seen.recorded.length } = seen
  rw [same]

/-- The context of a stage is the scoped one. -/
theorem InStage.context
    {profile : AgentProfile}
    (inStage : InStage continuation passed stage passed seen workflow) :
    stageContext task stage profile workflow.artifacts =
      scopedContext task stage profile passed := by
  have produced := inStage.artifacts
  rw [inStage.kept, List.take_length] at produced
  rw [produced]
  unfold scopedContext
  rw [← artifactsForStage_contributions inStage.next inStage.completed]
  rfl

end Run

end ArnCore.Agent.OrchestrationState
