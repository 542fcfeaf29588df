import Mathlib.Data.List.Induction
import ArnCore.Agent.OrchestrationState
import ArnCore.Agent.WorkflowOutline

/-!
# Shape and information flow of a workflow

A workflow runs against any factory, any runtimes, any callbacks and any moments
of cancellation.  Its result has the shape of what was observed of the run, and
the context of every stage is given in closed form by the results before it, so
that runs which agree on those results cannot be told apart by the stage.
-/

namespace ArnCore.Agent.OrchestrationFlow

open ArnCore.Interaction
open ArnCore.Provider
open ArnCore.Agent.Environment
open ArnCore.Agent.EnvironmentSteps
open ArnCore.Agent.OrchestrationState
open ArnCore.Agent.StageArtifacts
open ArnCore.Agent.WorkflowOutline

/-- An orchestrator whose factory and runtimes are unknown. -/
def anyOrchestrator (registry : AgentRegistry) (hasFactory : Bool) :
    AgentOrchestrator agents where
  registry := registry
  runtimeFactory := if hasFactory then some anyFactory else none
  executing := flag .orchestratorExecuting
  cancelRequested := flag .cancelRequested
  activeMutex := mutex .orchestrator
  activeRuntime := pointer .activeRuntime
  runtimeLifetime := lifetime .runtime

/-- When it has a factory, nothing is known about it. -/
theorem factory_of_present
    {registry : AgentRegistry} {hasFactory : Bool}
    {factory : AgentRuntimeFactory agents}
    (present : (anyOrchestrator registry hasFactory).runtimeFactory =
      some factory) :
    factory = anyFactory := by
  cases hasFactory with
  | false => cases present
  | true =>
      cases present
      rfl

section Run

variable {registry : AgentRegistry} {task : OrchestrationTask}
  {continuation : Bool} {seen : Seen} {workflow : OrchestrationResult}
  {passed : List AgentResult} {result : AgentResult}

/-! ## Where a workflow stands -/

/-- The stages that are still to be run, as preflight found them. -/
structure Remaining (registry : AgentRegistry) (passed : List AgentResult)
    (stages : List (StageDefinition × AgentProfile)) : Prop where
  order : stages.map Prod.fst = kStages.drop passed.length
  found : ∀ entry ∈ stages, registry.find entry.1.profileId = some entry.2

section Remaining

variable {entry : StageDefinition × AgentProfile}
  {rest : List (StageDefinition × AgentProfile)}
  (remaining : Remaining registry passed (entry :: rest))

include remaining

theorem Remaining.next : kStages[passed.length]? = some entry.1 := by
  rw [← List.head?_drop, ← remaining.order]
  rfl

theorem Remaining.profile : registry.find entry.1.profileId = some entry.2 :=
  remaining.found entry List.mem_cons_self

theorem Remaining.later (result : AgentResult) :
    Remaining registry (passed ++ [result]) rest where
  order := by
    rw [List.length_append, List.length_singleton, ← List.tail_drop,
      ← remaining.order]
    rfl
  found := fun other member =>
    remaining.found other (List.mem_cons_of_mem _ member)

theorem Remaining.isLast : rest.isEmpty = true ↔ passed.length + 1 = 4 := by
  have others := (remaining.later {}).order
  have count : rest.length = 4 - (passed.length + 1) := by
    rw [← List.length_map Prod.fst, others, List.length_drop,
      List.length_append]
    rfl
  rw [List.isEmpty_iff_length_eq_zero]
  have within := (List.getElem?_eq_some_iff.mp remaining.next).1
  have bound : passed.length < 4 := within
  omega

end Remaining

/-- At the head of the loop some stages are passed, the others remain. -/
def Heads (registry : AgentRegistry) (continuation : Bool)
    (stages : List (StageDefinition × AgentProfile))
    (workflow : OrchestrationResult) (seen : Seen) : Prop :=
  ∃ passed, AtHead continuation passed seen workflow ∧
    Remaining registry passed stages

/-- The runtime of the stage was asked for; nothing is recorded of it. -/
def Inside (registry : AgentRegistry) (continuation : Bool) (visit : Visit)
    (seen : Seen) : Prop :=
  ∃ passed, InStage continuation passed visit.stage passed seen visit.workflow ∧
    Remaining registry passed ((visit.stage, visit.profile) :: visit.rest)

/-- The result of the stage is recorded. -/
def Ran (registry : AgentRegistry) (continuation : Bool) (visit : Visit)
    (result : AgentResult) (seen : Seen) : Prop :=
  ∃ passed,
    InStage continuation passed visit.stage (passed ++ [result]) seen
        (visit.recorded result) ∧
      Remaining registry passed ((visit.stage, visit.profile) :: visit.rest)

/-- The stage completed and is not the last one. -/
def Continues (registry : AgentRegistry) (continuation : Bool) (visit : Visit)
    (result : AgentResult) (seen : Seen) : Prop :=
  ∃ before, Ran registry continuation visit result before ∧
    result.status = .completed ∧ visit.rest.isEmpty = false ∧
      seen = before.checked false

/-- The host was asked and has decided. -/
def Decided (registry : AgentRegistry) (continuation : Bool) (visit : Visit)
    (result : AgentResult) (decision : ContinuationDecision) (seen : Seen) :
    Prop :=
  ∃ before, Continues registry continuation visit result before ∧
    seen = before.decided (.ok decision)

/-- What was seen when a workflow is at a point. -/
def AtPoint (registry : AgentRegistry) (continuation : Bool) :
    Point → Seen → Prop
  | .entering => (· = {})
  | .claimed => (· = {})
  | .preflight => (· = {})
  | .head stages workflow => Heads registry continuation stages workflow
  | .chosen visit =>
      Heads registry continuation ((visit.stage, visit.profile) :: visit.rest)
        visit.workflow
  | .made visit => Inside registry continuation visit
  | .built visit => Inside registry continuation visit
  | .attached visit => Inside registry continuation visit
  | .announced visit => Inside registry continuation visit
  | .withdrawing visit => fun seen =>
      Shape seen (visit.workflow.cancelledWith "Workflow cancelled.")
  | .running visit => Inside registry continuation visit
  | .executed visit result => Ran registry continuation visit result
  | .recorded visit result => Ran registry continuation visit result
  | .reported visit result => Ran registry continuation visit result
  | .continuing visit result => Continues registry continuation visit result
  | .decided visit result decision =>
      Decided registry continuation visit result decision
  | .settled (.next workflow) rest =>
      Heads registry continuation rest workflow
  | .settled (.left workflow) _ => fun seen => Shape seen workflow
  | .left workflow => fun seen => Shape seen workflow
  | .returned workflow => fun seen => Shape seen workflow

/-! ## What the calls of a workflow lead to -/

theorem earlier_completed
    {stage : StageDefinition}
    (inStage :
      InStage continuation passed stage (passed ++ [result]) seen workflow) :
    ∀ record ∈ (passed ++ [result]).dropLast, record.status = .completed := by
  rw [List.dropLast_concat]
  exact inStage.completed

section Head

variable {stages : List (StageDefinition × AgentProfile)} {visit : Visit}

/-- The flag is found set at the head of the loop. -/
theorem Heads.stopped
    (heads : Heads registry continuation stages workflow seen) :
    Shape (seen.checked true)
      (workflow.cancelledWith "Workflow cancelled.") := by
  obtain ⟨passed, atHead, _⟩ := heads
  have recorded : Recorded passed (seen.checked true) workflow :=
    atHead.toRecorded.congr rfl rfl
  apply recorded.left_without_error
  exacts [rfl, rfl, rfl,
    fun record member =>
      atHead.completed record ((List.dropLast_sublist _).subset member),
    Or.inl rfl, Or.inl rfl]

theorem Heads.checked
    (heads : Heads registry continuation stages workflow seen) :
    Heads registry continuation stages workflow (seen.checked false) := by
  obtain ⟨passed, atHead, remaining⟩ := heads
  rw [atHead.checked_clear]
  exact ⟨passed, atHead, remaining⟩

theorem Heads.completed
    (heads : Heads registry continuation [] workflow seen) :
    Shape seen workflow.completed := by
  obtain ⟨passed, atHead, remaining⟩ := heads
  have exhausted := List.drop_eq_nil_iff.mp remaining.order.symm
  exact atHead.completed_shape (Nat.le_antisymm atHead.length exhausted)

variable
  (heads : Heads registry continuation
    ((visit.stage, visit.profile) :: visit.rest) visit.workflow seen)

include heads

theorem Heads.permits :
    Permitted registry task continuation seen
      (.createRuntime visit.profile) := by
  obtain ⟨passed, atHead, remaining⟩ := heads
  exact atHead.permits remaining.next remaining.profile

theorem Heads.enters :
    Inside registry continuation visit
      (seen.requested visit.profile.id (.ok true)) := by
  obtain ⟨passed, atHead, remaining⟩ := heads
  exact ⟨passed, atHead.enters remaining.next remaining.profile, remaining⟩

/-- The factory threw or returned no runtime. -/
theorem Heads.unmade
    {after : Seen} {summary : String}
    (created : after.created = seen.created ++ [visit.profile.id])
    (recorded : after.recorded = seen.recorded)
    (kept : after.kept = seen.kept) (stopped : after.stopped = true) :
    Shape after (visit.workflow.failedAt "runtime_factory_failed" summary
      visit.stage.profileId) := by
  obtain ⟨passed, atHead, remaining⟩ := heads
  have left : Recorded passed after visit.workflow :=
    atHead.toRecorded.congr recorded kept
  apply left.failedAt _ stopped
  · rw [created, List.getLast?_concat,
      AgentRegistry.find_id remaining.profile]
  · exact fun record member =>
      atHead.completed record ((List.dropLast_sublist _).subset member)

end Head

section Inside

variable {visit : Visit} (inside : Inside registry continuation visit seen)

include inside

/-- The flag is found set behind the announcement. -/
theorem Inside.interrupted :
    Shape (seen.checked true)
      (visit.workflow.cancelledWith "Workflow cancelled.") := by
  obtain ⟨passed, inStage, _⟩ := inside
  have recorded : Recorded passed (seen.checked true) visit.workflow :=
    inStage.toRecorded.congr rfl rfl
  apply recorded.left_without_error
  exacts [rfl, rfl, rfl,
    fun record member =>
      inStage.completed record ((List.dropLast_sublist _).subset member),
    Or.inl rfl, Or.inl rfl]

theorem Inside.checked :
    Inside registry continuation visit (seen.checked false) := by
  obtain ⟨passed, inStage, remaining⟩ := inside
  rw [inStage.checked_entered]
  exact ⟨passed, inStage, remaining⟩

/-- The runtime is given the scoped context. -/
theorem Inside.permits :
    Permitted registry task continuation seen
      (.executeRuntime (visit.context task)) := by
  obtain ⟨passed, inStage, remaining⟩ := inside
  refine ⟨visit.stage, visit.profile, ?_, remaining.profile, ?_⟩
  · rw [inStage.recorded]
    exact inStage.next
  · rw [inStage.recorded]
    exact inStage.context

/-- What the runtime returns, or what stands for its exception. -/
theorem Inside.record (result : AgentResult) :
    Ran registry continuation visit result (seen.executed (.ok result)) := by
  obtain ⟨passed, inStage, remaining⟩ := inside
  exact ⟨passed, inStage.record rfl rfl rfl rfl rfl, remaining⟩

end Inside

section Ran

variable {visit : Visit} (ran : Ran registry continuation visit result seen)

include ran

/-- The finish callback threw. -/
theorem Ran.reportThrew
    (failure : Exception) :
    Shape (seen.finished (.error failure))
      ((visit.recorded result).failedAt "orchestration_callback_failed"
        "Orchestration stage callback failed." visit.stage.profileId) := by
  obtain ⟨passed, inStage, _⟩ := ran
  have stopped : Recorded (passed ++ [result])
      (seen.finished (.error failure)) (visit.recorded result) :=
    inStage.toRecorded.congr rfl rfl
  exact stopped.failedAt (earlier_completed inStage) rfl inStage.last

/-- The flag is found set behind the report. -/
theorem Ran.stopped
    (summary : String) :
    Shape (seen.checked true)
      ((visit.recorded result).cancelledWith summary) := by
  obtain ⟨passed, inStage, _⟩ := ran
  have stopped : Recorded (passed ++ [result]) (seen.checked true)
      (visit.recorded result) :=
    inStage.toRecorded.congr rfl rfl
  apply stopped.left_without_error
  exacts [rfl, rfl, rfl, earlier_completed inStage, Or.inl rfl, Or.inl rfl]

/-- The runtime returned a cancelled result. -/
theorem Ran.cancelled
    (cancelled : result.status = .cancelled) (summary : String) :
    Shape (seen.checked false)
      ((visit.recorded result).cancelledWith summary) := by
  obtain ⟨passed, inStage, _⟩ := ran
  have incomplete : result.status ≠ .completed := by
    rw [cancelled]
    exact nofun
  apply (inStage.checked_incomplete incomplete).left_without_error
  exacts [rfl, rfl, rfl, earlier_completed inStage,
    Or.inr ⟨result, by simp, incomplete⟩, Or.inl rfl]

theorem Ran.incomplete
    (incomplete : result.status ≠ .completed)
    (notCancelled : result.status ≠ .cancelled) :
    Shape (seen.checked false)
      ((visit.recorded result).incompleteAt result visit.stage.profileId) := by
  obtain ⟨passed, inStage, _⟩ := ran
  exact (inStage.checked_incomplete incomplete).incompleteAt inStage.completed
    incomplete notCancelled inStage.last

/-- The stage is passed when nobody has to be asked. -/
theorem Ran.passes
    (completed : result.status = .completed)
    (unasked : visit.rest.isEmpty = false → continuation = false) :
    Heads registry continuation visit.rest (visit.contributed result)
      (seen.checked false) := by
  obtain ⟨passed, inStage, remaining⟩ := ran
  refine ⟨passed ++ [result], inStage.passes completed
    (inStage.checked_completed completed) rfl inStage.running rfl ?_,
    remaining.later result⟩
  intro more asked
  have final : visit.rest.isEmpty = false := by
    rw [← Bool.not_eq_true, remaining.isLast]
    exact Nat.ne_of_lt more
  rw [unasked final] at asked
  cases asked

/-- Every end of a check behind the report. -/
theorem Ran.judged (stop : Bool) :
    AtPoint registry continuation (.judged visit result stop)
      (seen.checked stop) := by
  unfold Point.judged
  cases stop with
  | true =>
      rw [Bool.true_or, if_pos rfl]
      exact ran.stopped _
  | false =>
      rw [Bool.false_or]
      split_ifs with cancelled silent incomplete last
      · exact ran.cancelled (of_decide_eq_true cancelled) _
      · exact ran.cancelled (of_decide_eq_true cancelled) _
      · exact ran.incomplete incomplete fun same =>
          cancelled (decide_eq_true same)
      · refine ran.passes (Decidable.not_not.mp incomplete) fun more => ?_
        rw [last] at more
        cases more
      · exact ⟨seen, ran, Decidable.not_not.mp incomplete,
          Bool.eq_false_of_not_eq_true last, rfl⟩

end Ran

section Continues

variable {visit : Visit}
  (continues : Continues registry continuation visit result seen)

include continues

theorem Continues.passes
    (unasked : continuation = false) :
    Heads registry continuation visit.rest (visit.contributed result)
      seen := by
  obtain ⟨before, ran, completed, _, rfl⟩ := continues
  exact ran.passes completed fun _ => unasked

/-- What the workflow has recorded of a completed stage. -/
theorem Continues.recorded
    (after : Seen) (same : after.recorded = seen.recorded)
    (kept : after.kept = seen.kept) (created : after.created = seen.created) :
    ∃ passed, Recorded (passed ++ [result]) after (visit.contributed result) ∧
      (∀ record ∈ (passed ++ [result]).dropLast, record.status = .completed) ∧
        after.created.getLast? = some visit.stage.profileId := by
  obtain ⟨before, ⟨passed, inStage, remaining⟩, completed, _, rfl⟩ := continues
  refine ⟨passed, (inStage.checked_completed completed).congr same kept,
    earlier_completed inStage, ?_⟩
  rw [created]
  exact inStage.last

/-- The host is asked with the summary of the stage. -/
theorem Continues.permits :
    Permitted registry task continuation seen
      (.beforeNextStage visit.stage.profileId result
        (stageArtifact visit.stage result)) := by
  obtain ⟨before, ⟨passed, inStage, remaining⟩, completed, others, rfl⟩ :=
    continues
  have more : passed.length + 1 < 4 := by
    refine Nat.lt_of_le_of_ne inStage.length fun all => ?_
    rw [← remaining.isLast, others] at all
    cases all
  refine ⟨passed, visit.stage, inStage.recorded, inStage.next, rfl, rfl, ?_⟩
  show _ ∈ scopedArtifacts _ before.recorded
  rw [inStage.recorded]
  exact summaryArtifact_mem_scopedArtifacts inStage.next more

/-- The continuation callback threw. -/
theorem Continues.threw
    (failure : Exception) :
    Shape (seen.decided (.error failure))
      ((visit.contributed result).failedAt "orchestration_callback_failed"
        "Orchestration continuation callback failed."
        visit.stage.profileId) := by
  obtain ⟨passed, recorded, earlier, last⟩ :=
    continues.recorded (seen.decided (.error failure)) rfl rfl rfl
  exact recorded.failedAt earlier rfl last

end Continues

section Decided

variable {visit : Visit} {decision : ContinuationDecision}
  (decided : Decided registry continuation visit result decision seen)

include decided

/-- What the workflow has recorded when the host has decided. -/
theorem Decided.recorded (stop : Bool) :
    ∃ passed,
      Recorded (passed ++ [result]) (seen.checked stop)
          (visit.contributed result) ∧
        ∀ record ∈ (passed ++ [result]).dropLast,
          record.status = .completed := by
  obtain ⟨_, ⟨before, ⟨passed, inStage, _⟩, completed, _, rfl⟩, rfl⟩ := decided
  refine ⟨passed, ?_, earlier_completed inStage⟩
  apply (inStage.checked_completed completed).congr <;>
    cases decision <;> cases stop <;> rfl

/-- The workflow is left by the decision or by the flag. -/
theorem Decided.leaves
    {stop : Bool} {left : OrchestrationResult}
    (executions : left.executions = (visit.contributed result).executions)
    (artifacts : left.artifacts = (visit.contributed result).artifacts)
    (error : left.error = (visit.contributed result).error)
    (stopped : (seen.checked stop).stopped = true)
    (status : left.status = .cancelled ∨
      left.status = .continuationDeclined) :
    Shape (seen.checked stop) left := by
  obtain ⟨passed, recorded, earlier⟩ := decided.recorded stop
  exact recorded.left_without_error left executions artifacts error earlier
    (Or.inl stopped) status

/-- The host proceeds and the flag is not set. -/
theorem Decided.passes
    (proceeds : decision = .proceed) :
    Heads registry continuation visit.rest (visit.contributed result)
      (seen.checked false) := by
  subst proceeds
  obtain ⟨_, ⟨before, ⟨passed, inStage, remaining⟩, completed, _, rfl⟩, rfl⟩ :=
    decided
  have recorded : Recorded (passed ++ [result])
      (((before.checked false).decided (.ok .proceed)).checked false)
      (visit.contributed result) :=
    (inStage.checked_completed completed).congr rfl rfl
  refine ⟨passed ++ [result], inStage.passes completed recorded rfl
    inStage.running rfl ?_, remaining.later result⟩
  intro _ asked
  show before.proceeded + 1 = passed.length + 1
  rw [inStage.proceeded asked]

/-- A decision not to proceed stops the run. -/
theorem Decided.stopped
    (stops : decision ≠ .proceed) :
    (seen.checked false).stopped = true := by
  obtain ⟨before, _, rfl⟩ := decided
  cases decision with
  | proceed => exact absurd rfl stops
  | decline => rfl
  | cancel => rfl

/-- Every end of a check behind a decision. -/
theorem Decided.ratified (stop : Bool) :
    AtPoint registry continuation (.ratified visit result decision stop)
      (seen.checked stop) := by
  unfold Point.ratified
  cases stop with
  | true =>
      rw [Bool.true_or, if_pos rfl]
      exact decided.leaves rfl rfl rfl rfl (Or.inl rfl)
  | false =>
      cases same : decision with
      | proceed => exact decided.passes same
      | decline =>
          refine decided.leaves rfl rfl rfl (decided.stopped ?_) (Or.inr rfl)
          rw [same]
          exact nofun
      | cancel =>
          refine decided.leaves rfl rfl rfl (decided.stopped ?_) (Or.inl rfl)
          rw [same]
          exact nofun

end Decided

end Run

section Preflight

variable {registry : AgentRegistry} {continuation : Bool}

/-! ## Preflight -/

/-- What preflight finds are the profiles of the stages. -/
theorem findProfiles_spec
    {stages : List StageDefinition}
    {entries : List (StageDefinition × AgentProfile)}
    (found : AgentOrchestrator.findProfiles registry stages = .ok entries) :
    entries.map Prod.fst = stages ∧
      ∀ entry ∈ entries,
        registry.find entry.1.profileId = some entry.2 := by
  induction stages generalizing entries with
  | nil =>
      cases found
      exact ⟨rfl, nofun⟩
  | cons stage rest induction =>
      unfold AgentOrchestrator.findProfiles at found
      cases registered : registry.find stage.profileId with
      | none =>
          rw [registered] at found
          cases found
      | some profile =>
          cases others : AgentOrchestrator.findProfiles registry rest with
          | error missing =>
              simp only [registered, others] at found
              cases found
          | ok later =>
              simp only [registered, others, Except.ok.injEq] at found
              subst found
              rcases induction others with ⟨sameStages, each⟩
              refine ⟨by simp [sameStages], ?_⟩
              intro entry member
              rcases List.mem_cons.mp member with rfl | inRest
              · exact registered
              · exact each entry inRest

/-- A workflow that fails in preflight requests nothing. -/
theorem preflightFailure_shape (code message : String) :
    Shape {} (preflightFailure code message) where
  executions := rfl
  stages := List.nil_prefix
  completed := by simp [preflightFailure]
  summary := nofun
  errors := by
    simp [preflightFailure, OrchestrationStatus.IsError]
  stoppedAt := by
    rintro error ⟨⟩
    exact Or.inl ⟨rfl, rfl⟩
  earlier := nofun
  kept := Nat.zero_le _
  whole := nofun
  artifacts := rfl

theorem atHead_start : AtHead continuation [] {} {} where
  recorded := rfl
  executions := rfl
  stages := rfl
  late := Nat.zero_le _
  artifacts := rfl
  error := rfl
  created := rfl
  length := Nat.zero_le _
  completed := nofun
  running := rfl
  proceeded := fun _ _ => rfl
  kept := rfl

end Preflight

/-! ## The workflow follows its outline -/

section Outline

variable {registry : AgentRegistry} {task : OrchestrationTask}
  {hasFactory started finished continuation text progress : Bool}

/-- A call that the observer does not notice. -/
theorem unnoticed_step
    {before : Seen → Prop} {op : AgentOp}
    (permitted : ∀ seen, Permitted registry task continuation seen op)
    (silent : ∀ seen answer, observe seen ⟨op, answer⟩ = seen) :
    Step (monitored observe) (Permitted registry task continuation) before op
      fun _ => before :=
  step_monitored (fun seen _ => permitted seen) fun seen answer start => by
    rw [silent]
    exact start

/-- Publishing or clearing a pointer under its mutex is not noticed. -/
theorem unnoticed_guarded
    {before : Seen → Prop} {op : AgentOp}
    (permitted : ∀ seen, Permitted registry task continuation seen op)
    (silent : ∀ seen answer, observe seen ⟨op, answer⟩ = seen) :
    CallTriple (monitored observe) (Permitted registry task continuation) before
      ((mutex .orchestrator).guarded (Action.ofHost (always op)))
      (Returning fun _ => before) :=
  triple_guarded (unnoticed_step (fun _ => trivial) fun _ _ => rfl)
    (unnoticed_step permitted silent)
    (unnoticed_step (fun _ => trivial) fun _ _ => rfl)

/-- Every call of a workflow is permitted and leads to the next point. -/
theorem outline
    (confirm : HostConfirm agents) :
    Outline (monitored observe) (Permitted registry task continuation)
      (anyOrchestrator registry hasFactory) (fun _ => anyAgentRuntime) task
      (hostWorkflow started finished continuation text progress) confirm
      (AtPoint registry continuation) where
  claims := triple_always (step_monitored (fun _ _ => trivial) (by
    rintro _ (_ | _) rfl
    · rfl
    · exact preflightFailure_shape _ _))
  resets := triple_always (unnoticed_step (fun _ => trivial) fun _ _ => rfl)
  refuses code message _ := by
    rintro rfl
    exact preflightFailure_shape code message
  starts stages _ known := by
    rintro rfl
    exact ⟨[], atHead_start, (findProfiles_spec known).1,
      (findProfiles_spec known).2⟩
  checks visit := triple_always (step_monitored (fun _ _ => trivial) (by
    rintro seen (_ | _) heads
    · exact heads.checked
    · exact heads.stopped))
  makes factory visit present := by
    cases factory_of_present present
    refine triple_create (step_monitored (fun _ heads => heads.permits) ?_)
    rintro seen (failure | _ | _) heads
    · exact heads.unmade rfl rfl rfl rfl
    · exact heads.unmade rfl rfl rfl rfl
    · exact ⟨rfl, heads.enters⟩
  builds visit := triple_always
    (unnoticed_step (fun _ => trivial) fun _ _ => rfl)
  attaches visit := unnoticed_guarded (fun _ => trivial) fun _ _ => rfl
  announces visit :=
    triple_announce (fun _ _ inside => inside) fun _ =>
      step_monitored (fun _ _ => trivial) (by
        rintro seen (failure | ⟨⟩) inside
        · exact inside.record AgentOrchestrator.stageThrew
        · exact inside)
  permits visit := triple_always (step_monitored (fun _ _ => trivial) (by
    rintro seen (_ | _) inside
    · exact inside.checked
    · exact inside.interrupted))
  withdraws visit := unnoticed_guarded (fun _ => trivial) fun _ _ => rfl
  executes visit :=
    triple_ask (step_monitored (fun _ inside => inside.permits) (by
      rintro seen (failure | result) inside
      · exact inside.record AgentOrchestrator.stageThrew
      · exact inside.record result))
  detaches visit result := unnoticed_guarded (fun _ => trivial) fun _ _ => rfl
  reports visit result :=
    triple_report (fun _ _ ran => ran) fun _ =>
      step_monitored (fun _ _ => trivial) (by
        rintro seen (failure | ⟨⟩) ran
        · exact ran.reportThrew failure
        · exact ran)
  judges visit result := triple_always (step_monitored (fun _ _ => trivial)
    fun _ stop ran => ran.judged stop)
  unasked absent visit result seen continues := by
    cases continuation with
    | false => exact continues.passes rfl
    | true => cases absent
  asks callback visit result present := by
    cases continuation with
    | false => cases present
    | true =>
        cases present
        refine triple_ask
          (step_monitored (fun _ continues => continues.permits) ?_)
        rintro seen (failure | decision) continues
        · exact continues.threw failure
        · exact ⟨seen, continues, rfl⟩
  ratifies visit result decision :=
    triple_always (step_monitored (fun _ _ => trivial)
      fun _ stop decided => decided.ratified stop)
  destroys progress rest :=
    triple_always (step_monitored (fun _ _ => trivial) (by
      intro seen answer settled
      cases progress <;> exact settled))
  completes workflow seen heads := heads.completed
  releases workflow := triple_always
    (unnoticed_step (fun _ => trivial) fun _ _ => rfl)

end Outline

/-! ## Histories of workflows -/

/-- A history of a workflow, whatever the host attaches and answers. -/
def WorkflowHistory (registry : AgentRegistry) (hasFactory : Bool)
    (task : OrchestrationTask) (continuation : Bool)
    (history : List AgentEvent)
    (rest : Program agents (Except Exception OrchestrationResult × Unit)) :
    Prop :=
  ∃ started finished text progress attached,
    Program.Runs
      (((anyOrchestrator registry hasFactory).execute task
        (hostWorkflow started finished continuation text progress)
        (hostHandler attached)).run.run ())
      history rest

theorem WorkflowHistory.permitted
    {registry : AgentRegistry} {hasFactory : Bool} {task : OrchestrationTask}
    {continuation : Bool} {history : List AgentEvent}
    {rest : Program agents (Except Exception OrchestrationResult × Unit)}
    (run : WorkflowHistory registry hasFactory task continuation history
      rest) :
    ∀ before event after, history = before ++ event :: after →
      Permitted registry task continuation (observed before) event.op := by
  rcases run with ⟨started, finished, text, progress, attached, run⟩
  exact (Program.Holds.runs
    ((outline (hostHandler attached)).execute () {} rfl) run).1

theorem WorkflowHistory.returned
    {registry : AgentRegistry} {hasFactory : Bool} {task : OrchestrationTask}
    {continuation : Bool} {history : List AgentEvent}
    {outcome : Except Exception OrchestrationResult} {locals : Unit}
    (run : WorkflowHistory registry hasFactory task continuation history
      (.done (outcome, locals))) :
    ∃ result, outcome = .ok result ∧ Shape (observed history) result := by
  rcases run with ⟨started, finished, text, progress, attached, run⟩
  have returned := Program.Holds.returns
    ((outline (hostHandler attached)).execute () {} rfl) run
  cases outcome with
  | error failure => exact returned.elim
  | ok result => exact ⟨result, rfl, returned⟩

theorem observed_snoc (history : List AgentEvent) (event : AgentEvent) :
    observed (history ++ [event]) = observe (observed history) event :=
  List.foldl_concat observe {} event history

/-- Only a call of the factory adds to the requested stages. -/
theorem created_observe (seen : Seen) (event : AgentEvent) :
    (observe seen event).created = seen.created ∨
      ∃ profile answer, event = ⟨.createRuntime profile, answer⟩ ∧
        (observe seen event).created = seen.created ++ [profile.id] := by
  rcases event with ⟨op, answer⟩
  cases op with
  | load name =>
      cases name with
      | cancelRequested => cases answer <;> exact Or.inl rfl
      | _ => exact Or.inl rfl
  | createRuntime profile =>
      refine Or.inr ⟨profile, answer, rfl, ?_⟩
      rcases answer with failure | _ | _ <;> rfl
  | stageStarted profileId => cases answer <;> exact Or.inl rfl
  | executeRuntime context => cases answer <;> exact Or.inl rfl
  | stageFinished profileId result => cases answer <;> exact Or.inl rfl
  | beforeNextStage profileId result artifact =>
      rcases answer with failure | _ | _ | _ <;> exact Or.inl rfl
  | _ => exact Or.inl rfl

/-- The stages are requested in order, each at most once. -/
theorem WorkflowHistory.created_prefix
    {registry : AgentRegistry} {hasFactory : Bool} {task : OrchestrationTask}
    {continuation : Bool} {history : List AgentEvent}
    {rest : Program agents (Except Exception OrchestrationResult × Unit)}
    (run : WorkflowHistory registry hasFactory task continuation history
      rest) :
    (observed history).created <+: stageIds := by
  have permitted := run.permitted
  clear run
  induction history using List.reverseRecOn with
  | nil => exact List.nil_prefix
  | append_singleton history event induction =>
      have earlier := induction (by
        intro before other after split
        exact permitted before other (after ++ [event]) (by simp [split]))
      rw [observed_snoc]
      rcases created_observe (observed history) event with
        same | ⟨profile, answer, rfl, added⟩
      · rw [same]
        exact earlier
      · rcases permitted history _ [] rfl with
          ⟨stage, next, passed, found, _⟩
        have extended : (observed history).created ++ [profile.id] =
            stageIds.take ((observed history).created.length + 1) := by
          rw [List.take_add_one, ← passed, stageId_of_stage next,
            AgentRegistry.find_id found]
          rfl
        rw [added, extended]
        exact List.take_prefix _ _

/-! ## The shape of a run -/

/--
The stages are requested in order and each at most once, the next one only
after the one before was recorded as completed and nothing stopped the run; and
the result of a finished run has the shape of what was seen: in particular
every record but possibly the last is completed and contributes its artifacts,
in order.
-/
theorem workflow_result_has_shape
    (registry : AgentRegistry) (hasFactory : Bool) (task : OrchestrationTask)
    (continuation : Bool) (history : List AgentEvent)
    (rest : Program agents (Except Exception OrchestrationResult × Unit))
    (run : WorkflowHistory registry hasFactory task continuation history
      rest) :
    (observed history).created <+: stageIds ∧
      (∀ before profile answer after,
        history = before ++ ⟨.createRuntime profile, answer⟩ :: after →
          stageIds[(observed before).created.length]? = some profile.id ∧
            Ready continuation (observed before)) ∧
      ∀ outcome locals, rest = .done (outcome, locals) →
        ∃ result, outcome = .ok result ∧ Shape (observed history) result := by
  refine ⟨run.created_prefix, ?_, ?_⟩
  · intro before profile answer after split
    rcases run.permitted before _ after split with
      ⟨stage, next, _, found, ready⟩
    refine ⟨?_, ready⟩
    rw [stageId_of_stage next, AgentRegistry.find_id found]
  · rintro outcome locals rfl
    exact run.returned

/-- The registry of the four standard ids. -/
def fourProfiles : AgentRegistry :=
  stageIds.foldl
    (fun registry id => (registry.registerProfile { id := id }).2) .empty

/-- A workflow whose stages all complete and whose host always proceeds. -/
def quietRun : List AgentEvent ×
    (Except Exception OrchestrationResult × Unit) :=
  Program.scripted (fun _ op => quiet op)
    (((anyOrchestrator fourProfiles true).execute
      { id := "t", objective := "Fix it", workingDirectory := "/w" }
      (hostWorkflow true true true false false)
      (hostHandler false)).run.run ())
    []

/-- The shape of a workflow that runs through all four stages. -/
theorem workflow_result_has_shape_quiet :
    (observed quietRun.1).created <+: stageIds ∧
      (∀ before profile answer after,
        quietRun.1 = before ++ ⟨.createRuntime profile, answer⟩ :: after →
          stageIds[(observed before).created.length]? = some profile.id ∧
            Ready true (observed before)) ∧
      ∀ outcome locals,
        (.done quietRun.2 : Program agents _) = .done (outcome, locals) →
          ∃ result, outcome = .ok result ∧
            Shape (observed quietRun.1) result :=
  workflow_result_has_shape fourProfiles true
    { id := "t", objective := "Fix it", workingDirectory := "/w" } true
    quietRun.1 (.done quietRun.2)
    ⟨true, true, false, false, false, Program.runs_scripted_pair _ _⟩

example :
    (observed quietRun.1).created = stageIds ∧
      quietRun.2.1.toOption.map OrchestrationResult.status =
        some .completed ∧
      quietRun.2.1.toOption.map OrchestrationResult.artifacts =
        some
          [⟨.explorationReport, explorerId, ""⟩,
            ⟨.implementationPlan, plannerId, ""⟩,
            ⟨.changeSummary, coderId, ""⟩,
            ⟨.reviewReport, reviewerId, ""⟩] := by
  decide +kernel

/-! ## The information that crosses stages -/

/-- Every context and every artifact handed on is the scoped one. -/
def Scoped (registry : AgentRegistry) (task : OrchestrationTask)
    (history : List AgentEvent) : Prop :=
  (∀ before context answer after,
    history = before ++ ⟨.executeRuntime context, answer⟩ :: after →
      ∃ stage profile,
        kStages[(observed before).recorded.length]? = some stage ∧
          registry.find stage.profileId = some profile ∧
          context =
            scopedContext task stage profile (observed before).recorded) ∧
    ∀ before profileId result artifact answer after,
      history =
          before ++ ⟨.beforeNextStage profileId result artifact, answer⟩ ::
            after →
        ∃ earlier stage,
          (observed before).recorded = earlier ++ [result] ∧
            kStages[earlier.length]? = some stage ∧
            profileId = stage.profileId ∧
            artifact =
              summaryArtifact stage.outputType stage.profileId result ∧
            artifact ∈ scopedArtifacts task.initialArtifacts
              (observed before).recorded

/-- Tasks that agree but for their initial artifacts. -/
def SameRequest (left right : OrchestrationTask) : Prop :=
  { left with initialArtifacts := [] } = { right with initialArtifacts := [] }

theorem scopedContext_congr
    {left right : OrchestrationTask} {stage : StageDefinition}
    {profile : AgentProfile} {ofLeft ofRight : List AgentResult}
    (same : SameRequest left right)
    (artifacts :
      scopedArtifacts left.initialArtifacts ofLeft =
        scopedArtifacts right.initialArtifacts ofRight) :
    scopedContext left stage profile ofLeft =
      scopedContext right stage profile ofRight := by
  unfold SameRequest at same
  simp only [OrchestrationTask.mk.injEq] at same
  rcases same with ⟨sameId, sameObjective, sameDirectory, _,
    sameConstraints, _⟩
  unfold scopedContext stageContext userRequest
  rw [artifacts, sameId, sameObjective, sameDirectory, sameConstraints]

/-- Two runs that reach the same stage give it the same context. -/
theorem Scoped.context_congr
    {registry : AgentRegistry} {left right : OrchestrationTask}
    {history other before beforeOther after afterOther : List AgentEvent}
    {context contextOther : AgentContext}
    {answer answerOther : Except Exception AgentResult}
    (ofLeft : Scoped registry left history)
    (ofRight : Scoped registry right other)
    (split :
      history = before ++ ⟨.executeRuntime context, answer⟩ :: after)
    (splitOther :
      other =
        beforeOther ++
          ⟨.executeRuntime contextOther, answerOther⟩ :: afterOther)
    (same : SameRequest left right)
    (stages : (observed before).recorded.length =
      (observed beforeOther).recorded.length)
    (artifacts :
      scopedArtifacts left.initialArtifacts (observed before).recorded =
        scopedArtifacts right.initialArtifacts
          (observed beforeOther).recorded) :
    context = contextOther := by
  rcases ofLeft.1 before context answer after split with
    ⟨stage, profile, next, found, rfl⟩
  rcases ofRight.1 beforeOther contextOther answerOther afterOther
    splitOther with ⟨stageOther, profileOther, nextOther, foundOther, rfl⟩
  have sameStage : stage = stageOther := by
    rw [stages, nextOther] at next
    exact (Option.some.inj next).symm
  subst sameStage
  have sameProfile : profile = profileOther := by
    rw [found] at foundOther
    exact Option.some.inj foundOther
  subst sameProfile
  exact scopedContext_congr same artifacts

/--
Information crosses the stages only through scoped artifacts.  In every run the
contexts and the artifacts handed on are the scoped ones.  In any two runs the
coder sees the same context when explorer and planner had the same summaries,
and the reviewer when planner and coder had the same summaries and all test
results are the same.
-/
theorem information_crosses_stages_by_scoped_artifacts
    (registry : AgentRegistry) (hasFactory : Bool) :
    (∀ task continuation history rest,
      WorkflowHistory registry hasFactory task continuation history rest →
        Scoped registry task history) ∧
      ∀ left right continuation continuationOther history other rest restOther,
        WorkflowHistory registry hasFactory left continuation history rest →
        WorkflowHistory registry hasFactory right continuationOther other
          restOther →
        SameRequest left right →
        ∀ before context answer after beforeOther contextOther answerOther
          afterOther,
          history = before ++ ⟨.executeRuntime context, answer⟩ :: after →
          other =
            beforeOther ++
              ⟨.executeRuntime contextOther, answerOther⟩ :: afterOther →
          (∀ explorer planner explorerOther plannerOther,
            (observed before).recorded = [explorer, planner] →
            (observed beforeOther).recorded = [explorerOther, plannerOther] →
            explorer.summary = explorerOther.summary →
            planner.summary = plannerOther.summary →
              context = contextOther) ∧
          ∀ explorer planner coder explorerOther plannerOther coderOther,
            (observed before).recorded = [explorer, planner, coder] →
            (observed beforeOther).recorded =
              [explorerOther, plannerOther, coderOther] →
            planner.summary = plannerOther.summary →
            coder.summary = coderOther.summary →
            testResults explorer.artifacts =
              testResults explorerOther.artifacts →
            testResults planner.artifacts =
              testResults plannerOther.artifacts →
            testResults coder.artifacts = testResults coderOther.artifacts →
            testResults left.initialArtifacts =
              testResults right.initialArtifacts →
              context = contextOther := by
  have contexts : ∀ task continuation history rest,
      WorkflowHistory registry hasFactory task continuation history rest →
        Scoped registry task history := by
    intro task continuation history rest run
    constructor
    · intro before context answer after split
      exact run.permitted before _ after split
    · intro before profileId result artifact answer after split
      exact run.permitted before _ after split
  refine ⟨contexts, ?_⟩
  intro left right continuation continuationOther history other rest restOther
    run runOther same before context answer after beforeOther contextOther
    answerOther afterOther split splitOther
  have congruent := Scoped.context_congr (contexts _ _ _ _ run)
    (contexts _ _ _ _ runOther) split splitOther same
  constructor
  · intro explorer planner explorerOther plannerOther results resultsOther
      sameExplorer samePlanner
    apply congruent
    · rw [results, resultsOther]
      rfl
    · rw [results, resultsOther]
      simp only [scopedArtifacts, summaryArtifact, sameExplorer, samePlanner]
  · intro explorer planner coder explorerOther plannerOther coderOther
      results resultsOther samePlanner sameCoder explorerTests plannerTests
      coderTests initialTests
    apply congruent
    · rw [results, resultsOther]
      rfl
    · rw [results, resultsOther]
      simp only [scopedArtifacts, summaryArtifact, samePlanner, sameCoder,
        explorerTests, plannerTests, coderTests, initialTests]

/-- Whether an event is the execution of the runtime of a stage. -/
def executes (profileId : String) : AgentEvent → Bool
  | ⟨.executeRuntime context, _⟩ => context.profile.id = profileId
  | _ => false

/-- Where a history comes to the runtime of a stage. -/
def reaches (profileId : String) (history : List AgentEvent) : Nat :=
  history.findIdx (executes profileId)

/-- The context that a stage is given. -/
def contextOf (profileId : String) (history : List AgentEvent) :
    Option AgentContext :=
  match history[reaches profileId history]? with
  | some ⟨.executeRuntime context, _⟩ => some context
  | _ => none

theorem split_of_contextOf
    {profileId : String} {history : List AgentEvent} {context : AgentContext}
    (given : contextOf profileId history = some context) :
    ∃ answer,
      history =
        history.take (reaches profileId history) ++
          ⟨.executeRuntime context, answer⟩ ::
            history.drop (reaches profileId history + 1) := by
  unfold contextOf at given
  split at given
  next reached answer found =>
    cases given
    rcases List.getElem?_eq_some_iff.mp found with ⟨within, same⟩
    refine ⟨answer, ?_⟩
    rw [← same, List.getElem_cons_drop, List.take_append_drop]
  next => cases given

/-- Two histories whose contexts of a stage agree wherever it is run. -/
theorem same_contextOf
    {profileId : String} {history other : List AgentEvent}
    (given : (contextOf profileId history).isSome)
    (givenOther : (contextOf profileId other).isSome)
    (agree : ∀ context answer contextOther answerOther,
      history =
          history.take (reaches profileId history) ++
            ⟨.executeRuntime context, answer⟩ ::
              history.drop (reaches profileId history + 1) →
        other =
            other.take (reaches profileId other) ++
              ⟨.executeRuntime contextOther, answerOther⟩ ::
                other.drop (reaches profileId other + 1) →
          context = contextOther) :
    ∃ context,
      contextOf profileId history = some context ∧
        contextOf profileId other = some context := by
  rcases Option.isSome_iff_exists.mp given with ⟨context, found⟩
  rcases Option.isSome_iff_exists.mp givenOther with ⟨second, foundOther⟩
  rcases split_of_contextOf found with ⟨answer, split⟩
  rcases split_of_contextOf foundOther with ⟨answerOther, splitOther⟩
  have same : context = second := agree _ _ _ _ split splitOther
  exact ⟨context, found, by rw [same, foundOther]⟩

/-- A stage that reports in one sentence, and a host that proceeds. -/
def reporting (explorer : List ContextArtifact) :
    (op : AgentOp) → agents.Answer op
  | .executeRuntime context =>
      .ok
        { status := .completed
          summary := "report of " ++ context.profile.id
          artifacts :=
            if context.profile.id = explorerId then explorer else [] }
  | op => quiet op

/-- The same task with other initial artifacts. -/
def fixTask (initial : List ContextArtifact) : OrchestrationTask where
  id := "t"
  objective := "Fix it"
  workingDirectory := "/w"
  initialArtifacts := initial

/-- A workflow whose explorer attaches artifacts of its own. -/
def reportedRun (initial explorer : List ContextArtifact) :
    List AgentEvent × (Except Exception OrchestrationResult × Unit) :=
  Program.scripted (fun _ op => reporting explorer op)
    (((anyOrchestrator fourProfiles true).execute (fixTask initial)
      (hostWorkflow false false true false false)
      (hostHandler false)).run.run ())
    []

/-- A note of the host and a test that the explorer ran. -/
def note : ContextArtifact where
  producer := "host"
  content := "Read this first"

def exploredTest : ContextArtifact where
  type := .testResult
  producer := explorerId
  content := "2 passed"

/-- What the stages of the two runs below report. -/
def reportOf (profileId : String) (attached : List ContextArtifact) :
    AgentResult where
  status := .completed
  summary := "report of " ++ profileId
  artifacts := attached

/--
One of two runs has a note among its initial artifacts, the other one among the
artifacts of the explorer: their planners are told apart, their coders and
reviewers are not.
-/
theorem information_crosses_stages_by_scoped_artifacts_reported :
    (contextOf plannerId (reportedRun [note] [exploredTest]).1).map
          AgentContext.artifacts ≠
        (contextOf plannerId (reportedRun [] [note, exploredTest]).1).map
          AgentContext.artifacts ∧
      (∃ context,
        contextOf coderId (reportedRun [note] [exploredTest]).1 =
            some context ∧
          contextOf coderId (reportedRun [] [note, exploredTest]).1 =
            some context) ∧
      ∃ context,
        contextOf reviewerId (reportedRun [note] [exploredTest]).1 =
            some context ∧
          contextOf reviewerId (reportedRun [] [note, exploredTest]).1 =
            some context := by
  have two := (information_crosses_stages_by_scoped_artifacts fourProfiles
    true).2 (fixTask [note]) (fixTask []) true true _ _ _ _
    ⟨false, false, false, false, false,
      Program.runs_scripted_pair (fun _ op => reporting [exploredTest] op) _⟩
    ⟨false, false, false, false, false,
      Program.runs_scripted_pair
        (fun _ op => reporting [note, exploredTest] op) _⟩
    rfl
  refine ⟨by decide +kernel,
    same_contextOf (by decide +kernel) (by decide +kernel) ?_,
    same_contextOf (by decide +kernel) (by decide +kernel) ?_⟩
  · intro context answer other answerOther split splitOther
    exact (two _ _ _ _ _ _ _ _ split splitOther).1
      (reportOf explorerId [exploredTest]) (reportOf plannerId [])
      (reportOf explorerId [note, exploredTest]) (reportOf plannerId [])
      (by decide +kernel) (by decide +kernel) rfl rfl
  · intro context answer other answerOther split splitOther
    exact (two _ _ _ _ _ _ _ _ split splitOther).2
      (reportOf explorerId [exploredTest]) (reportOf plannerId [])
      (reportOf coderId []) (reportOf explorerId [note, exploredTest])
      (reportOf plannerId []) (reportOf coderId [])
      (by decide +kernel) (by decide +kernel) rfl rfl rfl rfl rfl rfl

end ArnCore.Agent.OrchestrationFlow
