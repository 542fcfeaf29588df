import ArnCore.Agent.OrchestrationFlow

/-!
# Stage callbacks of a workflow

A stage that is announced to the host is reported back to it as finished before
the next one is announced, and what is reported is what is recorded.  The one
exception is a stage whose cancellation is found before its runtime is called:
it is neither recorded nor reported, and nothing is called any more.
-/

namespace ArnCore.Agent.StageBrackets

open ArnCore.Interaction
open ArnCore.Agent.Environment
open ArnCore.Agent.EnvironmentSteps
open ArnCore.Agent.OrchestrationFlow
open ArnCore.Agent.StageArtifacts
open ArnCore.Agent.WorkflowOutline
open ArnCore.Provider

/-! ## The calls of the stage callbacks -/

inductive StageCall where
  | started (profileId : String)
  | finished (profileId : String) (result : AgentResult)

def stageCall? : AgentEvent → Option StageCall
  | ⟨.stageStarted profileId, _⟩ => some (.started profileId)
  | ⟨.stageFinished profileId result, _⟩ => some (.finished profileId result)
  | _ => none

/-- The calls of the stage callbacks, in order. -/
def stageCalls (history : List AgentEvent) : List StageCall :=
  history.filterMap stageCall?

/-- Every recorded stage between its two calls. -/
def brackets (executions : List AgentExecutionRecord) : List StageCall :=
  executions.flatMap fun record =>
    [.started record.profileId, .finished record.profileId record.result]

/-- An operation of the workflow that reaches the host. -/
def reachesHost : AgentOp → Bool
  | .createRuntime _ => true
  | .executeRuntime _ => true
  | .stageStarted _ => true
  | .stageFinished _ _ => true
  | .beforeNextStage _ _ _ => true
  | _ => false

/--
The flag was found set directly behind the announcement of a stage; before, the
stages were bracketed, and afterwards the host is not reached any more.
-/
def Interrupted (history : List AgentEvent)
    (executions : List AgentExecutionRecord) : Prop :=
  ∃ before profileId after,
    history = before ++ [⟨.stageStarted profileId, .ok ()⟩,
      ⟨.load .cancelRequested, true⟩] ++ after ∧
      stageCalls before = brackets executions ∧
        ∀ event ∈ after, reachesHost event.op = false

/--
Wherever the flag is found set directly behind an announcement, the stages were
bracketed before, the workflow is cancelled and the host is not reached again.
-/
def InterruptedWhereStopped (history : List AgentEvent)
    (result : OrchestrationResult) : Prop :=
  ∀ before profileId after,
    history = before ++ [⟨.stageStarted profileId, .ok ()⟩,
      ⟨.load .cancelRequested, true⟩] ++ after →
      stageCalls before = brackets result.executions ∧
        result.status = .cancelled ∧
          ∀ event ∈ after, reachesHost event.op = false

/-- The calls of a finished workflow, compared with its result. -/
def Bracketed (history : List AgentEvent) (result : OrchestrationResult) :
    Prop :=
  stageCalls history = brackets result.executions ∨
    (Interrupted history result.executions ∧ result.status = .cancelled)

theorem stageCalls_concat (history : List AgentEvent) (event : AgentEvent) :
    stageCalls (history ++ [event]) =
      stageCalls history ++ (stageCall? event).toList := by
  rw [stageCalls, List.filterMap_append]
  cases found : stageCall? event with
  | none => simp [found, stageCalls]
  | some call => simp [found, stageCalls]

/-- What does not reach the host is no call of a stage callback. -/
theorem stageCalls_concat_of_silent
    {history : List AgentEvent} {event : AgentEvent}
    (silent : reachesHost event.op = false) :
    stageCalls (history ++ [event]) = stageCalls history := by
  rcases event with ⟨op, answer⟩
  have none : stageCall? ⟨op, answer⟩ = none := by
    cases op <;> first | rfl | cases silent
  rw [stageCalls_concat, none, Option.toList_none, List.append_nil]

theorem brackets_concat
    (executions : List AgentExecutionRecord) (record : AgentExecutionRecord) :
    brackets (executions ++ [record]) =
      brackets executions ++
        [.started record.profileId,
          .finished record.profileId record.result] := by
  simp [brackets]

theorem Interrupted.concat
    {history : List AgentEvent} {executions : List AgentExecutionRecord}
    {event : AgentEvent} (interrupted : Interrupted history executions)
    (silent : reachesHost event.op = false) :
    Interrupted (history ++ [event]) executions := by
  obtain ⟨before, profileId, after, rfl, calls, quiet⟩ := interrupted
  refine ⟨before, profileId, after ++ [event], by simp, calls, ?_⟩
  rw [List.forall_mem_append, List.forall_mem_singleton]
  exact ⟨quiet, silent⟩

theorem Bracketed.concat
    {history : List AgentEvent} {result : OrchestrationResult}
    {event : AgentEvent} (bracketed : Bracketed history result)
    (silent : reachesHost event.op = false) :
    Bracketed (history ++ [event]) result := by
  rcases bracketed with calls | ⟨interrupted, cancelled⟩
  · refine Or.inl ?_
    rw [stageCalls_concat_of_silent silent]
    exact calls
  · exact Or.inr ⟨interrupted.concat silent, cancelled⟩

/-! ## The condition of a workflow -/

/-- What the last events of a workflow say about its stage. -/
inductive Standing where
  | steady
  | announced
  | stopped
deriving DecidableEq

/-- A stage is stopped when the event behind its announcement finds the flag. -/
def Standing.next : Standing → AgentEvent → Standing
  | .stopped, _ => .stopped
  | .announced, ⟨.load .cancelRequested, true⟩ => .stopped
  | _, ⟨.stageStarted _, .ok _⟩ => .announced
  | _, _ => .steady

def standing (history : List AgentEvent) : Standing :=
  history.foldl Standing.next .steady

theorem standing_concat (history : List AgentEvent) (event : AgentEvent) :
    standing (history ++ [event]) = (standing history).next event := by
  rw [standing, List.foldl_concat, standing]

/-- Once stopped, a workflow stays stopped. -/
theorem stopped_of_stop
    (before after : List AgentEvent) (profileId : String) :
    standing (before ++ [⟨.stageStarted profileId, .ok ()⟩,
      ⟨.load .cancelRequested, true⟩] ++ after) = .stopped := by
  induction after using List.reverseRecOn with
  | nil =>
      rw [List.append_nil, standing, List.foldl_append]
      cases before.foldl Standing.next .steady <;> rfl
  | append_singleton after event induction =>
      rw [← List.append_assoc, standing_concat, induction]
      rfl

/-- The call of a stage callback keeps the calls bracketed. -/
def KeepsBrackets (history : List AgentEvent) : AgentOp → Prop
  | .stageStarted _ => ∃ executions, stageCalls history = brackets executions
  | .stageFinished profileId _ =>
      ∃ executions,
        stageCalls history = brackets executions ++ [.started profileId]
  | _ => True

/-- What a workflow may call after its history. -/
def MayCall (history : List AgentEvent) (op : AgentOp) : Prop :=
  (reachesHost op = true → standing history ≠ .stopped) ∧
    KeepsBrackets history op

theorem mayCall_of_silent
    (history : List AgentEvent) {op : AgentOp}
    (silent : reachesHost op = false) :
    MayCall history op := by
  refine ⟨fun reaches => ?_, ?_⟩
  · rw [silent] at reaches
    cases reaches
  · cases op with
    | stageStarted profileId => cases silent
    | stageFinished profileId result => cases silent
    | _ => trivial

/-- Every recorded stage was bracketed. -/
structure Passed (executions : List AgentExecutionRecord)
    (history : List AgentEvent) : Prop where
  calls : stageCalls history = brackets executions
  steady : standing history = .steady

/-- The stages are bracketed, but for one that was announced. -/
structure Announced (executions : List AgentExecutionRecord)
    (profileId : String) (history : List AgentEvent) : Prop where
  calls : stageCalls history = brackets executions ++ [.started profileId]
  steady : standing history = .steady

/-- The last event is the announcement of a stage. -/
def Announcing (executions : List AgentExecutionRecord) (profileId : String)
    (history : List AgentEvent) : Prop :=
  ∃ before, history = before ++ [⟨.stageStarted profileId, .ok ()⟩] ∧
    Passed executions before

section Events

variable {history : List AgentEvent} {event : AgentEvent}
  {executions : List AgentExecutionRecord} {profileId : String}

/-- Only an announcement is followed by something else than the steady state. -/
theorem steady_concat
    (steady : standing history = .steady)
    (other : ∀ profileId, event.op ≠ .stageStarted profileId) :
    standing (history ++ [event]) = .steady := by
  rw [standing_concat, steady]
  rcases event with ⟨op, answer⟩
  cases op with
  | stageStarted profileId => exact absurd rfl (other profileId)
  | _ => rfl

theorem Passed.concat
    (passed : Passed executions history)
    (uncalled : stageCall? event = none) :
    Passed executions (history ++ [event]) where
  calls := by
    rw [stageCalls_concat, uncalled, passed.calls, Option.toList_none,
      List.append_nil]
  steady := steady_concat passed.steady fun profileId same => by
    rcases event with ⟨op, answer⟩
    cases same
    cases uncalled

theorem Announced.concat
    (announced : Announced executions profileId history)
    (uncalled : stageCall? event = none) :
    Announced executions profileId (history ++ [event]) where
  calls := by
    rw [stageCalls_concat, uncalled, announced.calls, Option.toList_none,
      List.append_nil]
  steady := steady_concat announced.steady fun profileId same => by
    rcases event with ⟨op, answer⟩
    cases same
    cases uncalled

/-- A report closes the brackets of its stage. -/
theorem Announced.reported
    {workflow : OrchestrationResult} {result : AgentResult}
    {answer : Except Exception Unit}
    (announced : Announced workflow.executions profileId history) :
    Passed (workflow.recorded profileId result).executions
      (history ++ [⟨.stageFinished profileId result, answer⟩]) where
  calls := by
    rw [stageCalls_concat, announced.calls, OrchestrationResult.recorded,
      brackets_concat, List.append_assoc]
    rfl
  steady := steady_concat announced.steady nofun

/-- A stage whose announcement threw is run no further. -/
theorem Passed.announcing
    (passed : Passed executions history) (failure : Exception) :
    Announced executions profileId
      (history ++ [⟨.stageStarted profileId, .error failure⟩]) where
  calls := by
    rw [stageCalls_concat, passed.calls]
    rfl
  steady := by
    rw [standing_concat, passed.steady]
    rfl

/-- The flag was found lowered behind the announcement. -/
theorem Announcing.permitted
    (announcing : Announcing executions profileId history) :
    Announced executions profileId
      (history ++ [⟨.load .cancelRequested, false⟩]) := by
  obtain ⟨before, rfl, passed⟩ := announcing
  constructor
  · rw [stageCalls_concat, stageCalls_concat, passed.calls]
    exact List.append_nil _
  · rw [standing_concat, standing_concat, passed.steady]
    rfl

/-- The flag was found set behind the announcement. -/
theorem Announcing.interrupted
    (announcing : Announcing executions profileId history) :
    Interrupted (history ++ [⟨.load .cancelRequested, true⟩]) executions := by
  obtain ⟨before, rfl, passed⟩ := announcing
  exact ⟨before, profileId, [], by simp, passed.calls, by simp⟩

end Events

/-! ## The workflow keeps the brackets -/

/-- The brackets of a workflow that stands at a point. -/
def AtPoint : Point → List AgentEvent → Prop
  | .entering => Passed []
  | .claimed => Passed []
  | .preflight => Passed []
  | .head _ workflow => Passed workflow.executions
  | .chosen visit => Passed visit.workflow.executions
  | .made visit => Passed visit.workflow.executions
  | .built visit => Passed visit.workflow.executions
  | .attached visit => Passed visit.workflow.executions
  | .announced visit =>
      Announcing visit.workflow.executions visit.stage.profileId
  | .withdrawing visit =>
      fun history => Interrupted history visit.workflow.executions
  | .running visit =>
      Announced visit.workflow.executions visit.stage.profileId
  | .executed visit _ =>
      Announced visit.workflow.executions visit.stage.profileId
  | .recorded visit _ =>
      Announced visit.workflow.executions visit.stage.profileId
  | .reported visit result => Passed (visit.recorded result).executions
  | .continuing visit result => Passed (visit.recorded result).executions
  | .decided visit result _ => Passed (visit.recorded result).executions
  | .settled (.next workflow) _ => Passed workflow.executions
  | .settled (.left workflow) _ => fun history => Bracketed history workflow
  | .left workflow => fun history => Bracketed history workflow
  | .returned result => fun history => Bracketed history result

section Run

variable {registry : AgentRegistry} {hasFactory : Bool}
  {continuation text progress : Bool}
  {before after : List AgentEvent → Prop}

/-- A call that does not reach the host. -/
theorem silent_step
    {op : AgentOp} {next : agents.Answer op → List AgentEvent → Prop}
    (silent : reachesHost op = false)
    (leads : ∀ history answer, before history →
      next answer (history ++ [⟨op, answer⟩])) :
    Step (recording agents) MayCall before op next := by
  intro history start
  refine ⟨mayCall_of_silent history silent, ?_⟩
  rintro answer reached rfl
  exact leads history answer start

/-- A call that reaches the host while no stage is stopped. -/
theorem host_step
    {op : AgentOp} {next : agents.Answer op → List AgentEvent → Prop}
    (steady : ∀ history, before history → standing history = .steady)
    (permitted : ∀ history, before history → KeepsBrackets history op)
    (leads : ∀ history answer, before history →
      next answer (history ++ [⟨op, answer⟩])) :
    Step (recording agents) MayCall before op next := by
  intro history start
  refine ⟨⟨fun _ stopped => ?_, permitted history start⟩, ?_⟩
  · rw [steady history start] at stopped
    cases stopped
  · rintro answer reached rfl
    exact leads history answer start

/-- Publishing or clearing a pointer under its mutex. -/
theorem guarded_triple
    {op : AgentOp}
    (keeps : ∀ history event, before history → stageCall? event = none →
      reachesHost event.op = false → before (history ++ [event]))
    (uncalled : ∀ answer, stageCall? ⟨op, answer⟩ = none)
    (silent : reachesHost op = false) :
    CallTriple (recording agents) MayCall before
      ((mutex .orchestrator).guarded (Action.ofHost (always op)))
      (Returning fun _ => before) :=
  triple_guarded
    (silent_step rfl fun history _ start => keeps history _ start rfl rfl)
    (silent_step silent fun history answer start =>
      keeps history _ start (uncalled answer) silent)
    (silent_step rfl fun history _ start => keeps history _ start rfl rfl)

/-- The events of a workflow whose stages are steady and not called. -/
theorem passed_step
    {executions : List AgentExecutionRecord} {op : AgentOp}
    (silent : reachesHost op = false)
    (uncalled : ∀ answer, stageCall? ⟨op, answer⟩ = none) :
    Step (recording agents) MayCall (Passed executions) op
      fun _ => Passed executions :=
  silent_step silent fun _ answer passed => passed.concat (uncalled answer)

/-- Every call of a workflow with both callbacks keeps the brackets. -/
theorem outline
    (task : OrchestrationTask) (confirm : HostConfirm agents) :
    Outline (recording agents) MayCall (anyOrchestrator registry hasFactory)
      (fun _ => anyAgentRuntime) task
      (hostWorkflow true true continuation text progress) confirm AtPoint where
  claims := triple_always (silent_step rfl (by
    rintro history (_ | _) passed
    · exact passed.concat rfl
    · exact Or.inl (passed.concat rfl).calls))
  resets := triple_always (passed_step rfl fun _ => rfl)
  refuses code message history passed := Or.inl passed.calls
  starts stages history known passed := passed
  checks visit := triple_always (silent_step rfl (by
    rintro history (_ | _) passed
    · exact passed.concat rfl
    · exact Or.inl (passed.concat rfl).calls))
  makes factory visit present := by
    cases factory_of_present present
    refine triple_create (host_step (fun _ passed => passed.steady)
      (fun _ _ => trivial) ?_)
    rintro history (failure | _ | _) passed
    · exact Or.inl (passed.concat rfl).calls
    · exact Or.inl (passed.concat rfl).calls
    · exact ⟨rfl, passed.concat rfl⟩
  builds visit := triple_always (passed_step rfl fun _ => rfl)
  attaches visit :=
    guarded_triple (fun _ _ passed uncalled _ => passed.concat uncalled)
      (fun _ => rfl) rfl
  announces visit :=
    triple_announce nofun fun _ => host_step (fun _ passed => passed.steady)
      (fun _ passed => ⟨_, passed.calls⟩) (by
        rintro history (failure | ⟨⟩) passed
        · exact passed.announcing failure
        · exact ⟨history, rfl, passed⟩)
  permits visit := triple_always (silent_step rfl (by
    rintro history (_ | _) announcing
    · exact announcing.permitted
    · exact announcing.interrupted))
  withdraws visit :=
    (guarded_triple (fun _ _ kept _ silent => kept.concat silent)
      (fun _ => rfl) rfl).imp (by
        rintro (failure | ⟨⟩) history interrupted
        · exact interrupted
        · exact Or.inr ⟨interrupted, rfl⟩)
  executes visit :=
    triple_ask (host_step (fun _ announced => announced.steady)
      (fun _ _ => trivial) (by
        rintro history (failure | result) announced
        · exact announced.concat rfl
        · exact announced.concat rfl))
  detaches visit result :=
    guarded_triple (fun _ _ announced uncalled _ => announced.concat uncalled)
      (fun _ => rfl) rfl
  reports visit result :=
    triple_report nofun fun _ => host_step
      (fun _ announced => announced.steady)
      (fun _ announced => ⟨_, announced.calls⟩) (by
        rintro history (failure | ⟨⟩) announced
        · exact Or.inl announced.reported.calls
        · exact announced.reported)
  judges visit result := triple_always (silent_step rfl (by
    intro history stop passed
    have checked := passed.concat
      (show stageCall? ⟨.load .cancelRequested, stop⟩ = none from rfl)
    unfold Point.judged
    split_ifs with cancelled silent incomplete last
    · exact Or.inl checked.calls
    · exact Or.inl checked.calls
    · exact Or.inl checked.calls
    · exact checked
    · exact checked))
  unasked absent visit result history passed := passed
  asks callback visit result present := by
    cases continuation with
    | false => cases present
    | true =>
        cases present
        refine triple_ask (host_step (fun _ passed => passed.steady)
          (fun _ _ => trivial) ?_)
        rintro history answer passed
        have asked := passed.concat
          (show stageCall? ⟨.beforeNextStage visit.stage.profileId result
            (stageArtifact visit.stage result), answer⟩ = none from rfl)
        cases answer with
        | error failure => exact Or.inl asked.calls
        | ok decision => exact asked
  ratifies visit result decision := triple_always (silent_step rfl (by
    intro history stop passed
    have checked := passed.concat
      (show stageCall? ⟨.load .cancelRequested, stop⟩ = none from rfl)
    unfold Point.ratified
    split_ifs
    · exact Or.inl checked.calls
    · exact Or.inl checked.calls
    · exact checked))
  destroys progress rest := triple_always (silent_step rfl (by
    intro history answer settled
    cases progress with
    | left workflow => exact Bracketed.concat settled rfl
    | next workflow => exact Passed.concat settled rfl))
  completes workflow history passed := Or.inl passed.calls
  releases workflow := triple_always (silent_step rfl
    fun history answer bracketed => bracketed.concat rfl)

end Run

/-! ## Histories with both callbacks -/

/-- A history of a workflow whose host has set both stage callbacks. -/
def AnnouncedHistory (registry : AgentRegistry) (hasFactory : Bool)
    (task : OrchestrationTask) (history : List AgentEvent)
    (rest : Program agents (Except Exception OrchestrationResult × Unit)) :
    Prop :=
  ∃ continuation text progress attached,
    Program.Runs
      (((anyOrchestrator registry hasFactory).execute task
        (hostWorkflow true true continuation text progress)
        (hostHandler attached)).run.run ())
      history rest

/-- Brackets, with at most one stage that is announced and not reported. -/
def Alternates (calls : List StageCall) : Prop :=
  ∃ executions, ∃ announced : Option String,
    calls = brackets executions ++ (announced.map StageCall.started).toList

/-- Calls that were allowed one after the other alternate. -/
theorem alternates_of_keepsBrackets
    {history : List AgentEvent}
    (allowed : ∀ before event after, history = before ++ event :: after →
      KeepsBrackets before event.op) :
    Alternates (stageCalls history) := by
  induction history using List.reverseRecOn with
  | nil => exact ⟨[], none, rfl⟩
  | append_singleton history event induction =>
      have last := allowed history event [] rfl
      have earlier := induction fun before other after split =>
        allowed before other (after ++ [event]) (by simp [split])
      rw [stageCalls_concat]
      rcases event with ⟨op, answer⟩
      cases op with
      | stageStarted profileId =>
          obtain ⟨executions, calls⟩ := last
          rw [calls]
          exact ⟨executions, some profileId, rfl⟩
      | stageFinished profileId result =>
          obtain ⟨executions, calls⟩ := last
          refine ⟨executions ++ [⟨profileId, result⟩], none, ?_⟩
          rw [calls, brackets_concat]
          simp [stageCall?]
      | _ =>
          rw [show stageCall? _ = none from rfl, Option.toList_none,
            List.append_nil]
          exact earlier

/-- A stage whose brackets are closed does not end with an announcement. -/
theorem brackets_ne_started
    (executions : List AgentExecutionRecord) (calls : List StageCall)
    (profileId : String) :
    brackets executions ≠ calls ++ [.started profileId] := by
  rcases List.eq_nil_or_concat executions with rfl | ⟨earlier, record, rfl⟩
  · intro same
    exact List.append_ne_nil_of_right_ne_nil calls (List.cons_ne_nil _ [])
      same.symm
  · rw [List.concat_eq_append, brackets_concat]
    intro same
    have last := congrArg List.getLast? same
    simp at last

/-- What reaches the host is a call, or it calls no stage callback. -/
theorem stageCalls_of_silent
    {history : List AgentEvent}
    (silent : ∀ event ∈ history, reachesHost event.op = false) :
    stageCalls history = [] := by
  induction history using List.reverseRecOn with
  | nil => rfl
  | append_singleton history event induction =>
      rw [stageCalls_concat_of_silent
        (silent event (List.mem_append_right _ (List.mem_singleton_self _)))]
      exact induction fun other member =>
        silent other (List.mem_append_left _ member)

/-- The calls of a history in which a stage was stopped. -/
theorem stageCalls_of_stop
    (before : List AgentEvent) (profileId : String) {after : List AgentEvent}
    (silent : ∀ event ∈ after, reachesHost event.op = false) :
    stageCalls (before ++ [⟨.stageStarted profileId, .ok ()⟩,
        ⟨.load .cancelRequested, true⟩] ++ after) =
      stageCalls before ++ [.started profileId] := by
  rw [stageCalls, List.filterMap_append, List.filterMap_append]
  show stageCalls before ++ [.started profileId] ++ stageCalls after = _
  rw [stageCalls_of_silent silent, List.append_nil]

/-- Where a stage is stopped, the host is not reached any more. -/
theorem silent_of_stop
    {before after : List AgentEvent} {profileId : String}
    (allowed : ∀ earlier event later,
      before ++ [⟨.stageStarted profileId, .ok ()⟩,
          ⟨.load .cancelRequested, true⟩] ++ after =
        earlier ++ event :: later →
      MayCall earlier event.op) :
    ∀ event ∈ after, reachesHost event.op = false := by
  intro event member
  obtain ⟨earlier, later, rfl⟩ := List.append_of_mem member
  by_contra reaches
  have permitted := allowed (before ++ [⟨.stageStarted profileId, .ok ()⟩,
    ⟨.load .cancelRequested, true⟩] ++ earlier) event later (by simp)
  exact permitted.1 (Bool.eq_true_of_not_eq_false reaches)
    (stopped_of_stop before earlier profileId)

/-- A finished history that stops anywhere is interrupted there. -/
theorem Bracketed.interruptedWhereStopped
    {history : List AgentEvent} {result : OrchestrationResult}
    (bracketed : Bracketed history result)
    (allowed : ∀ before event after, history = before ++ event :: after →
      MayCall before event.op) :
    InterruptedWhereStopped history result := by
  rintro before profileId after rfl
  have silent := silent_of_stop allowed
  have calls := stageCalls_of_stop before profileId silent
  rcases bracketed with closed |
    ⟨⟨earlier, other, later, same, bracketed, quiet⟩, cancelled⟩
  · exact absurd (closed.symm.trans calls) (brackets_ne_started _ _ _)
  · rw [same, stageCalls_of_stop earlier other quiet] at calls
    have before_calls := (List.append_inj' calls rfl).1
    exact ⟨before_calls.symm.trans bracketed, cancelled, silent⟩

theorem AnnouncedHistory.calls
    {registry : AgentRegistry} {hasFactory : Bool} {task : OrchestrationTask}
    {history : List AgentEvent}
    {rest : Program agents (Except Exception OrchestrationResult × Unit)}
    (run : AnnouncedHistory registry hasFactory task history rest) :
    (∀ before event after, history = before ++ event :: after →
      MayCall before event.op) ∧
      ∀ outcome locals, rest = .done (outcome, locals) →
        ∃ result, outcome = .ok result ∧ Bracketed history result := by
  obtain ⟨continuation, text, progress, attached, run⟩ := run
  obtain ⟨allowed, holds⟩ := Program.Holds.records
    ((outline task (hostHandler attached)).execute () [] ⟨rfl, rfl⟩) run
  refine ⟨allowed, ?_⟩
  rintro (failure | result) locals rfl
  · exact holds.elim
  · exact ⟨result, rfl, holds⟩

/--
The stage callbacks are bracketed in every run.  The result has one record for
each report, in order, unless the flag was found set directly behind an
announcement: that stage is neither reported nor recorded, the workflow is
cancelled, and nothing reaches the host any more.
-/
theorem stages_are_bracketed
    (registry : AgentRegistry) (hasFactory : Bool) (task : OrchestrationTask)
    (history : List AgentEvent)
    (rest : Program agents (Except Exception OrchestrationResult × Unit))
    (run : AnnouncedHistory registry hasFactory task history rest) :
    Alternates (stageCalls history) ∧
      ∀ outcome locals, rest = .done (outcome, locals) →
        ∃ result, outcome = .ok result ∧ Bracketed history result ∧
          InterruptedWhereStopped history result := by
  obtain ⟨allowed, returned⟩ := run.calls
  refine ⟨alternates_of_keepsBrackets fun before event after split =>
    (allowed before event after split).2, ?_⟩
  intro outcome locals ends
  obtain ⟨result, rfl, bracketed⟩ := returned outcome locals ends
  exact ⟨result, rfl, bracketed, bracketed.interruptedWhereStopped allowed⟩

/-- The flag is set by the first callback. -/
def cancelsWhenAnnounced (history : List AgentEvent) :
    (op : AgentOp) → agents.Answer op
  | .load .cancelRequested => !(stageCalls history).isEmpty
  | .createRuntime _ => .ok true
  | op => quiet op

/-- A workflow that is cancelled while its first stage is announced. -/
def cancelledRun : List AgentEvent ×
    (Except Exception OrchestrationResult × Unit) :=
  Program.scripted cancelsWhenAnnounced
    (((anyOrchestrator fourProfiles true).execute
      { id := "t", objective := "Fix it", workingDirectory := "/w" }
      (hostWorkflow true true false false false)
      (hostHandler false)).run.run ())
    []

theorem announced_cancelledRun :
    AnnouncedHistory fourProfiles true
      { id := "t", objective := "Fix it", workingDirectory := "/w" }
      cancelledRun.1 (.done cancelledRun.2) :=
  ⟨false, false, false, false, Program.runs_scripted_pair _ _⟩

/-- A stage that is announced and never reported. -/
theorem announced_stage_not_finished :
    ¬ ∀ (registry : AgentRegistry) (hasFactory : Bool)
        (task : OrchestrationTask) (history : List AgentEvent)
        (result : OrchestrationResult) (locals : Unit),
      AnnouncedHistory registry hasFactory task history
          (.done (.ok result, locals)) →
        stageCalls history = brackets result.executions := by
  intro bracketed
  have announced := announced_cancelledRun
  have one : (stageCalls cancelledRun.1).length = 1 := by decide +kernel
  have nothing : cancelledRun.2.1.toOption.map
      (fun result => result.executions.length) = some 0 := by decide +kernel
  rcases ends : cancelledRun.2 with ⟨failure | result, locals⟩
  · rw [ends] at nothing
    cases nothing
  · rw [ends] at announced nothing
    have empty := List.eq_nil_of_length_eq_zero (Option.some.inj nothing)
    rw [bracketed _ _ _ _ _ _ announced, empty] at one
    cases one

/-- The brackets of a workflow that is cancelled at its first announcement. -/
theorem stages_are_bracketed_cancelled :
    Alternates (stageCalls cancelledRun.1) ∧
      ∀ outcome locals,
        (.done cancelledRun.2 : Program agents _) = .done (outcome, locals) →
          ∃ result, outcome = .ok result ∧ Bracketed cancelledRun.1 result ∧
            InterruptedWhereStopped cancelledRun.1 result :=
  stages_are_bracketed fourProfiles true
    { id := "t", objective := "Fix it", workingDirectory := "/w" }
    cancelledRun.1 (.done cancelledRun.2) announced_cancelledRun

end ArnCore.Agent.StageBrackets
