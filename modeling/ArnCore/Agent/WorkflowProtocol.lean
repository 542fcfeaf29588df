import ArnCore.Agent.GuardedWork
import ArnCore.Agent.OrchestrationFlow
import ArnCore.Agent.RuntimeStages

/-!
# The protocol of a workflow over runtimes

A workflow whose stages are runtimes, and a cancellation that goes through the
orchestrator to the runtime it finds.  The runtimes of the stages live one
after the other and every execution leaves the members of its runtime as a new
runtime has them, so they share the names of their members.

The two programs are compared here with what their events show: how far the
workflow has come, and what the cancellation has found.
-/

namespace ArnCore.Agent.WorkflowProtocol

open ArnCore.Interaction
open ArnCore.Provider
open ArnCore.Agent.AgentOrchestrator
open ArnCore.Agent.Environment
open ArnCore.Agent.EnvironmentSteps
open ArnCore.Agent.ExposedTools
open ArnCore.Agent.GuardedWork
open ArnCore.Agent.OrchestrationFlow
open ArnCore.Agent.WorkflowOutline

/-! ## A workflow and its cancellation -/

/-- What a runtime is made of. -/
structure RuntimeParts where
  hasProvider : Bool
  apiKey : String
  model : String
  bindings : List NativeBinding

/-- `AgentRuntime` behind its interface. -/
def RuntimeParts.runtime (parts : RuntimeParts) (json : JsonText) :
    IAgentRuntime agents where
  execute context callbacks confirm :=
    (anyRuntime parts.hasProvider parts.apiKey parts.model
      parts.bindings).execute json context callbacks confirm
  cancelActiveRequest :=
    Action.withLocals {}
      (anyRuntime parts.hasProvider parts.apiKey parts.model
        parts.bindings).cancelActiveRequest

/-- What an orchestrator over runtimes is made of. -/
structure OrchestratorParts where
  registry : AgentRegistry
  hasFactory : Bool
  json : JsonText
  runtimes : AgentProfile → RuntimeParts

/-- A factory of runtimes, which may throw or return none. -/
def OrchestratorParts.factory (parts : OrchestratorParts) :
    AgentRuntimeFactory agents :=
  fun profile => do
    let created ← Action.ofHost (ask (AgentOp.createRuntime profile))
    if created then
      pure (some ((parts.runtimes profile).runtime parts.json))
    else
      pure none

def OrchestratorParts.orchestrator (parts : OrchestratorParts) :
    AgentOrchestrator agents :=
  { anyOrchestrator parts.registry parts.hasFactory with
    runtimeFactory := if parts.hasFactory then some parts.factory else none }

inductive WorkflowCall where
  | execute (task : OrchestrationTask)
      (started finished continuation text progress attached : Bool)
  /-- The pointer, if it is set, refers to a runtime made of these parts. -/
  | cancel (active : RuntimeParts)

inductive WorkflowReturn where
  | executed (outcome : Except Exception OrchestrationResult)
  | cancelled (outcome : Except Exception Unit)

/-- The program of a call of the orchestrator. -/
def body (parts : OrchestratorParts) :
    WorkflowCall → Program agents WorkflowReturn
  | .execute task started finished continuation text progress attached => do
      let (outcome, _) ←
        (parts.orchestrator.execute task
          (hostWorkflow started finished continuation text progress)
          (hostHandler attached)).run.run ()
      pure (.executed outcome)
  | .cancel active => do
      let (outcome, _) ←
        (parts.orchestrator.cancelActiveExecution
          (active.runtime parts.json)).run.run ()
      pure (.cancelled outcome)

/-! ## How far a workflow has come -/

/--
The course of `execute`.  While its runtime is past its own gate, the course
includes the scope and the stage of that execution and its last check.
-/
inductive Course where
  | entering
  | refused
  | claimed
  | preflight
  | chosen
  | created
  | published
  | starting
  | running (scope : RuntimeProtocol.Scope) (stage : RuntimeStages.Stage)
      (read : Option Bool)
  | ran
  | cleared
  | settled
  | stopped
  | excused

namespace Course

/-- What follows a check of the flag of the workflow. -/
def checked (next : Course) (stop : Bool) : Course :=
  bif stop then .stopped else next

/-- What follows a call of the factory. -/
def made : Except Exception Bool → Course
  | .ok true => .created
  | _ => .excused

/-- What follows a callback that may throw. -/
def unlessThrown {Value : Type} (next : Course) :
    Except Exception Value → Course
  | .ok _ => next
  | .error _ => .excused

def after : Course → AgentEvent → Course
  | .entering, ⟨.exchange .orchestratorExecuting _, busy⟩ =>
      bif busy then .refused else .claimed
  | .claimed, ⟨.store .cancelRequested _, _⟩ => .preflight
  | .preflight, ⟨.load .cancelRequested, stop⟩ => checked .chosen stop
  | .chosen, ⟨.createRuntime _, outcome⟩ => made outcome
  | .created, ⟨.publish .activeRuntime, _⟩ => .published
  | .published, ⟨.load .cancelRequested, stop⟩ => checked .starting stop
  | .published, ⟨.clear .activeRuntime, _⟩ => .cleared
  | .starting, ⟨.exchange .runtimeExecuting _, busy⟩ =>
      bif busy then .ran else .running {} .untouched none
  | .running _ _ _, ⟨.store .runtimeExecuting _, _⟩ => .ran
  | .running scope stage read, event =>
      .running (scope.after event.op) (stage.after event)
        (lastCheck read event)
  | .ran, ⟨.clear .activeRuntime, _⟩ => .cleared
  | .cleared, ⟨.stageFinished _ _, outcome⟩ => unlessThrown .cleared outcome
  | .cleared, ⟨.load .cancelRequested, stop⟩ => checked .settled stop
  | .settled, ⟨.beforeNextStage _ _ _, outcome⟩ =>
      unlessThrown .settled outcome
  | .settled, ⟨.load .cancelRequested, stop⟩ => checked .settled stop
  | .settled, ⟨.createRuntime _, outcome⟩ => made outcome
  | course, _ => course

/-- What the workflow may do. -/
def Allows : Course → AgentOp → Prop
  | .entering, .exchange .orchestratorExecuting true => True
  | .claimed, .store .cancelRequested false => True
  | .preflight, .load .cancelRequested => True
  | .preflight, .store .orchestratorExecuting false => True
  | .chosen, .createRuntime _ => True
  | .created, .construct .runtime => True
  | .created, .lock .orchestrator => True
  | .created, .publish .activeRuntime => True
  | .published, .unlock .orchestrator => True
  | .published, .stageStarted _ => True
  | .published, .load .cancelRequested => True
  | .published, .lock .orchestrator => True
  | .published, .clear .activeRuntime => True
  | .starting, .exchange .runtimeExecuting true => True
  | .running scope stage read, op =>
      scope.Allows op ∧ stage.Allows op ∧ Guarded read op
  | .ran, .lock .orchestrator => True
  | .ran, .clear .activeRuntime => True
  | .cleared, .unlock .orchestrator => True
  | .cleared, .stageFinished _ _ => True
  | .cleared, .load .cancelRequested => True
  | .settled, .beforeNextStage _ _ _ => True
  | .settled, .load .cancelRequested => True
  | .settled, .destroy .runtime => True
  | .settled, .createRuntime _ => True
  | .settled, .store .orchestratorExecuting false => True
  | .stopped, .lock .orchestrator => True
  | .stopped, .clear .activeRuntime => True
  | .stopped, .unlock .orchestrator => True
  | .stopped, .destroy .runtime => True
  | .stopped, .store .orchestratorExecuting false => True
  | .excused, .destroy .runtime => True
  | .excused, .store .orchestratorExecuting false => True
  | _, _ => False

/-- Where a workflow returns. -/
def Returns (course : Course) (outcome : Except Exception OrchestrationResult) :
    Prop :=
  ∃ result, outcome = .ok result ∧
    match course with
    | .refused => True
    | .preflight => ∃ code message, result = preflightFailure code message
    | .stopped => result.status = .cancelled
    | .excused => result.status = .failed
    | .settled => True
    | _ => False

end Course

/-! ## What a cancellation has found -/

inductive Search where
  | storing
  | stored
  | missedRuntime
  | foundRuntime
  | missedSession
  | foundSession
  | cancelled
deriving DecidableEq

namespace Search

def after : Search → AgentEvent → Search
  | .storing, ⟨.store .cancelRequested _, _⟩ => .stored
  | .stored, ⟨.present .activeRuntime, found⟩ =>
      bif found then .foundRuntime else .missedRuntime
  | .foundRuntime, ⟨.present .activeSession, found⟩ =>
      bif found then .foundSession else .missedSession
  | .foundSession, ⟨.store .cancelled _, _⟩ => .cancelled
  | search, _ => search

/-- What a cancellation does to the provider, and where it leaves a mutex. -/
def Quiet : AgentOp → Prop
  | .lock _ => True
  | .unlock _ => True
  | .present .activeProvider => True
  | .cancelProvider => True
  | _ => False

/-- The cancellation has no more to find. -/
def Over (search : Search) : Prop :=
  search = .missedRuntime ∨ search = .missedSession ∨ search = .cancelled

def Allows : Search → AgentOp → Prop
  | .storing, op => op = .store .cancelRequested true
  | .stored, op => op = .lock .orchestrator ∨ op = .present .activeRuntime
  | .foundRuntime, op => op = .lock .runtime ∨ op = .present .activeSession
  | .foundSession, op => op = .store .cancelled true
  | _, op => Quiet op

end Search

/-! ## One stage -/

section Stage

variable {parts : OrchestratorParts}
  {started finished continuation text progress attached : Bool}

theorem after_running
    {scope : RuntimeProtocol.Scope} {stage : RuntimeStages.Stage}
    {read : Option Bool} {op : AgentOp} {answer : agents.Answer op}
    (stays : ∀ value, op ≠ .store .runtimeExecuting value) :
    (Course.running scope stage read).after ⟨op, answer⟩ =
      .running (scope.after op) (stage.after ⟨op, answer⟩)
        (lastCheck read ⟨op, answer⟩) := by
  cases op with
  | store flag value =>
      cases flag with
      | runtimeExecuting => exact absurd rfl (stays value)
      | _ => rfl
  | _ => rfl

/-- The course of a workflow says all that is known of the running runtime. -/
def Shows (seen : RuntimeProtocol.Phase × RuntimeStages.Stage × Option Bool)
    (course : Course) : Prop :=
  match seen.1 with
  | .entering => course = .starting ∧ seen.2 = (.untouched, none)
  | .gated scope => course = .running scope seen.2.1 seen.2.2
  | .refused => course = .ran
  | .released => course = .ran
  | _ => False

/-- The runtime of a stage always returns a result. -/
theorem runtime_follows
    (runtime : RuntimeParts) (json : JsonText) (context : AgentContext) :
    CallTriple (monitored Course.after) Course.Allows (· = .starting)
      ((runtime.runtime json).execute context (hostCallbacks text progress)
        (hostHandler attached))
      (Returning fun _ course => course = .ran) := by
  rintro ⟨⟩ _ rfl
  have protocol : Action.Holds (monitored RuntimeProtocol.observe)
      RuntimeProtocol.Allowed
      (fun outcome _ after => RuntimeProtocol.Post after (.executed outcome))
      ((runtime.runtime json).execute context (hostCallbacks text progress)
        (hostHandler attached)) () .entering :=
    RuntimeProtocol.execute_holds runtime.hasProvider json context
  have watched := protocol.together
    ((RuntimeStages.execute_holds runtime.hasProvider json context).together
      (execute_guarded () none))
  have start : Shows (.entering, .untouched, none) .starting := ⟨rfl, rfl⟩
  apply (watched.simulates ?_ ?_ start).imp
  · rintro outcome ⟨⟩ after ⟨⟨phase, stage, read⟩, shows, returned, -⟩
    cases phase with
    | refused =>
        cases returned
        exact shows
    | released =>
        cases outcome with
        | ok result => exact shows
        | error failure => exact returned.elim
    | _ => exact returned.elim
  · rintro ⟨phase, stage, read⟩ course op shows ⟨permitted, staged, guarded⟩
    cases phase with
    | entering =>
        obtain ⟨rfl, -⟩ := shows
        cases permitted
        trivial
    | gated scope =>
        obtain rfl : course = .running scope stage read := shows
        exact ⟨permitted, staged, guarded⟩
    | refused => exact permitted.elim
    | released => exact permitted.elim
    | _ => exact shows.elim
  · rintro ⟨phase, stage, read⟩ course op answer shows ⟨permitted, -⟩
    cases phase with
    | entering =>
        obtain ⟨rfl, same⟩ := shows
        cases same
        cases permitted
        cases answer <;> rfl
    | gated scope =>
        obtain rfl : course = .running scope stage read := shows
        by_cases stays : ∀ value, op ≠ .store .runtimeExecuting value
        · rw [after_running stays]
          show Shows (RuntimeProtocol.observe (.gated scope) ⟨op, answer⟩, _) _
          rw [RuntimeProtocol.observe_gated stays]
          rfl
        · obtain ⟨value, same⟩ := not_forall.mp stays
          obtain rfl := not_not.mp same
          rfl
    | refused => exact permitted.elim
    | released => exact permitted.elim
    | _ => exact shows.elim

/-! ## The course at the points of a workflow -/

/-- Where the course stands when the workflow is left with a result. -/
def Left (workflow : OrchestrationResult) (course : Course) : Prop :=
  (course = .stopped ∧ workflow.status = .cancelled) ∨
    (course = .excused ∧ workflow.status = .failed) ∨ course = .settled

/-- Where the course stands when the workflow is at a point. -/
def AtPoint : Point → Course → Prop
  | .entering => (· = .entering)
  | .claimed => (· = .claimed)
  | .preflight => (· = .preflight)
  | .head stages _ => fun course =>
      course = .settled ∨ (course = .preflight ∧ stages ≠ [])
  | .chosen _ => fun course => course = .chosen ∨ course = .settled
  | .made _ => (· = .created)
  | .built _ => (· = .created)
  | .attached _ => (· = .published)
  | .announced _ => (· = .published)
  | .withdrawing _ => (· = .stopped)
  | .running _ => (· = .starting)
  | .executed _ _ => fun course => course = .published ∨ course = .ran
  | .recorded _ _ => (· = .cleared)
  | .reported _ _ => (· = .cleared)
  | .continuing _ _ => (· = .settled)
  | .decided _ _ _ => (· = .settled)
  | .settled (.next _) _ => (· = .settled)
  | .settled (.left workflow) _ => Left workflow
  | .left workflow => fun course =>
      Left workflow course ∨
        (course = .preflight ∧
          ∃ code message, workflow = preflightFailure code message)
  | .returned workflow => fun course => course.Returns (.ok workflow)

/-- The runtime is withdrawn after its execution, or without one. -/
theorem clear_triple
    {course : Course} (ended : course = .published ∨ course = .ran) :
    CallTriple (monitored Course.after) Course.Allows (· = course)
      ((mutex .orchestrator).guarded
        (Action.ofHost (always (.clear .activeRuntime))))
      (Returning fun _ reached => reached = .cleared) := by
  rcases ended with rfl | rfl
  · exact triple_guarded_at .published .cleared trivial rfl trivial
      (fun _ => rfl) trivial rfl
  · exact triple_guarded_at .ran .cleared trivial rfl trivial
      (fun _ => rfl) trivial rfl

/-- A stage that is left keeps its course while the workflow is left. -/
theorem Left.kept
    {workflow : OrchestrationResult} {course : Course} {op : AgentOp}
    (left : Left workflow course)
    (closes : op = .destroy .runtime ∨
      op = .store .orchestratorExecuting false) :
    course.Allows op ∧ ∀ answer, course.after ⟨op, answer⟩ = course := by
  rcases left with ⟨rfl, -⟩ | ⟨rfl, -⟩ | rfl <;>
    rcases closes with rfl | rfl <;>
    exact ⟨trivial, fun _ => rfl⟩

theorem Left.returns
    {workflow : OrchestrationResult} {course : Course}
    (left : Left workflow course) :
    course.Returns (.ok workflow) := by
  refine ⟨workflow, rfl, ?_⟩
  rcases left with ⟨rfl, cancelled⟩ | ⟨rfl, failed⟩ | rfl
  · exact cancelled
  · exact failed
  · trivial

theorem OrchestratorParts.factory_of_present
    (parts : OrchestratorParts) {factory : AgentRuntimeFactory agents}
    (present : parts.orchestrator.runtimeFactory = some factory) :
    factory = parts.factory := by
  rcases parts with ⟨registry, _ | _, json, runtimes⟩
  · cases present
  · cases present
    rfl

/-- Every call of a workflow over runtimes follows the course. -/
theorem outline
    (task : OrchestrationTask) :
    Outline (monitored Course.after) Course.Allows parts.orchestrator
      (fun profile => (parts.runtimes profile).runtime parts.json) task
      (hostWorkflow started finished continuation text progress)
      (hostHandler attached) AtPoint where
  claims := triple_always (step_at trivial (by
    rintro (_ | _)
    · rfl
    · exact ⟨_, rfl, trivial⟩))
  resets := triple_always (step_at trivial fun _ => rfl)
  refuses code message course preflight :=
    Or.inr ⟨preflight, code, message, rfl⟩
  starts stages course known preflight := by
    refine Or.inr ⟨preflight, ?_⟩
    rintro rfl
    cases (findProfiles_spec known).1
  checks visit := by
    refine triple_always (step_monitored ?_ ?_)
    · rintro _ (rfl | ⟨rfl, -⟩) <;> trivial
    · rintro _ (_ | _) (rfl | ⟨rfl, -⟩)
      · exact Or.inr rfl
      · exact Or.inl rfl
      · exact Or.inl (Or.inl ⟨rfl, rfl⟩)
      · exact Or.inl (Or.inl ⟨rfl, rfl⟩)
  makes factory visit present := by
    cases parts.factory_of_present present
    refine triple_create (step_monitored ?_ ?_)
    · rintro _ (rfl | rfl) <;> trivial
    · rintro _ (failure | _ | _) (rfl | rfl)
      · exact Or.inl (Or.inr (Or.inl ⟨rfl, rfl⟩))
      · exact Or.inl (Or.inr (Or.inl ⟨rfl, rfl⟩))
      · exact Or.inl (Or.inr (Or.inl ⟨rfl, rfl⟩))
      · exact Or.inl (Or.inr (Or.inl ⟨rfl, rfl⟩))
      · exact ⟨rfl, rfl⟩
      · exact ⟨rfl, rfl⟩
  builds visit := triple_always (step_at trivial fun _ => rfl)
  attaches visit :=
    triple_guarded_at .created .published trivial rfl trivial (fun _ => rfl)
      trivial rfl
  announces visit :=
    triple_announce (fun _ _ attached => attached) fun _ =>
      step_at trivial (by
        rintro (failure | ⟨⟩)
        · exact Or.inl rfl
        · rfl)
  permits visit := triple_always (step_at trivial (by rintro (_ | _) <;> rfl))
  withdraws visit :=
    triple_guarded_at .stopped .stopped trivial rfl trivial (fun _ => rfl)
      trivial (Or.inl ⟨rfl, rfl⟩)
  executes visit :=
    (runtime_follows _ _ _).imp (by
      rintro (failure | result) course ran
      · exact ran.elim
      · exact Or.inr ran)
  detaches visit result _ course ended := clear_triple ended () course rfl
  reports visit result :=
    triple_report (fun _ _ recorded => recorded) fun _ =>
      step_at trivial (by
        rintro (failure | ⟨⟩)
        · exact Or.inr (Or.inl ⟨rfl, rfl⟩)
        · rfl)
  judges visit result := triple_always (step_at trivial fun stop => by
    unfold Point.judged
    cases stop with
    | true =>
        rw [Bool.true_or, if_pos rfl]
        exact Or.inl ⟨rfl, rfl⟩
    | false =>
        split_ifs
        · exact Or.inr (Or.inr rfl)
        · exact Or.inr (Or.inr rfl)
        · exact Or.inr (Or.inr rfl)
        · rfl
        · rfl)
  unasked absent visit result course continuing := continuing
  asks callback visit result present := by
    cases continuation with
    | false => cases present
    | true =>
        cases present
        refine triple_ask (step_at trivial ?_)
        rintro (failure | decision)
        · exact Or.inr (Or.inl ⟨rfl, rfl⟩)
        · rfl
  ratifies visit result decision := by
    refine triple_always (step_at trivial fun stop => ?_)
    unfold Point.ratified
    cases stop with
    | true =>
        rw [Bool.true_or, if_pos rfl]
        exact Or.inl ⟨rfl, rfl⟩
    | false =>
        split_ifs
        · exact Or.inr (Or.inr rfl)
        · exact Or.inr (Or.inr rfl)
        · rfl
  destroys progress rest := by
    refine triple_always (step_monitored ?_ ?_)
    · intro course settled
      cases progress with
      | left workflow => exact (Left.kept settled (Or.inl rfl)).1
      | next workflow =>
          cases settled
          trivial
    · intro course answer settled
      cases progress with
      | left workflow =>
          rw [(Left.kept settled (Or.inl rfl)).2 answer]
          exact Or.inl settled
      | next workflow =>
          cases settled
          exact Or.inl rfl
  completes workflow course atHead := by
    rcases atHead with rfl | ⟨-, nonempty⟩
    · exact Or.inl (Or.inr (Or.inr rfl))
    · exact absurd rfl nonempty
  releases workflow := by
    refine triple_always (step_monitored ?_ ?_)
    · rintro course (left | ⟨rfl, -⟩)
      · exact (left.kept (Or.inr rfl)).1
      · trivial
    · rintro course answer (left | ⟨rfl, refused⟩)
      · rw [(left.kept (Or.inr rfl)).2 answer]
        exact left.returns
      · exact ⟨workflow, rfl, refused⟩

theorem execute_verified (task : OrchestrationTask) :
    (body parts (.execute task started finished continuation text progress
      attached)).Holds (monitored Course.after) Course.Allows
        (fun course value =>
          ∃ outcome, value = .executed outcome ∧ course.Returns outcome)
        .entering := by
  apply Program.Holds.bind_of
    ((outline task).execute () _ rfl)
  rintro after ⟨failure | result, locals⟩ returned
  · exact returned.elim
  · exact ⟨.ok result, rfl, returned⟩

end Stage

/-! ## The cancellation -/

section Search

variable {Value : Type} {search : Search} {parts : OrchestratorParts}

/-- Where the search is over, the provider and the mutexes are left. -/
abbrev Rests {Locals : Type} (search : Search)
    (action : Action agents Locals Value) : Prop :=
  Action.Keeps Search.after Search.Allows search action

/-- The session only cancels its provider. -/
theorem session_cancel_rests
    {hasProvider : Bool} {apiKey model : String}
    {bindings : List NativeBinding} :
    Rests .cancelled
      (((anyRuntime hasProvider apiKey model bindings).session {} none
        none).cancelActiveRequest) := by
  apply Action.Keeps.bind
  · exact keeps_always (.present .activeProvider) trivial fun _ => rfl
  · intro found
    have guarded : ∀ {action : Action agents PermissionOutcome Unit},
        Rests .cancelled action →
          Rests .cancelled ((mutex .session).guarded action) :=
      fun rests => keeps_guarded .session Search.cancelled Search.cancelled
        trivial rfl rests trivial rfl
    cases hasProvider with
    | false =>
        split_ifs
        · exact .pure ()
        · exact guarded (.pure ())
    | true =>
        have cancels : Rests .cancelled
            (Action.ofHost (ask AgentOp.cancelProvider) :
              Action agents PermissionOutcome Unit) := by
          intro locals
          refine ⟨trivial, ?_⟩
          rintro (failure | ⟨⟩) after rfl <;> rfl
        split_ifs
        · exact cancels
        · exact guarded cancels

/-- The runtime that was found has a session, whose flag is set, or none. -/
theorem cancelActiveRequest_follows (active : RuntimeParts) (json : JsonText) :
    Action.Holds (monitored Search.after) Search.Allows
      (fun _ _ after => after = .missedSession ∨ after = .cancelled)
      (active.runtime json).cancelActiveRequest () .foundRuntime := by
  apply Action.holds_withLocals.mpr
  apply Action.holds_bind.mpr
  apply (holds_op (.lock .runtime)).mpr
  refine ⟨Or.inl rfl, ?_⟩
  rintro ⟨⟩ locked rfl
  apply Action.holds_scopeGuard.mpr
  apply Action.holds_bind.mpr
  apply (holds_op (.present .activeSession)).mpr
  refine ⟨Or.inr rfl, ?_⟩
  rintro (_ | _) inspected rfl
  · apply Action.holds_pure.mpr
    apply (holds_op (.unlock .runtime)).mpr
    refine ⟨trivial, ?_⟩
    rintro ⟨⟩ unlocked rfl
    exact Or.inl rfl
  · apply Action.holds_bind.mpr
    apply (holds_op (.store .cancelled true)).mpr
    refine ⟨rfl, ?_⟩
    rintro ⟨⟩ flagged rfl
    apply (session_cancel_rests _).imp
    rintro outcome locals after rfl
    apply (holds_op (.unlock .runtime)).mpr
    refine ⟨trivial, ?_⟩
    rintro ⟨⟩ unlocked rfl
    exact Or.inr rfl

/-- A cancellation returns when its search is over. -/
theorem cancel_follows (active : RuntimeParts) :
    Action.Holds (monitored Search.after) Search.Allows
      (fun _ _ after => after.Over)
      (parts.orchestrator.cancelActiveExecution (active.runtime parts.json)) ()
      .storing := by
  apply Action.holds_bind.mpr
  apply (holds_op (.store .cancelRequested true)).mpr
  refine ⟨rfl, ?_⟩
  rintro ⟨⟩ requested rfl
  apply Action.holds_bind.mpr
  apply (holds_op (.lock .orchestrator)).mpr
  refine ⟨Or.inl rfl, ?_⟩
  rintro ⟨⟩ locked rfl
  apply Action.holds_scopeGuard.mpr
  apply Action.holds_bind.mpr
  apply (holds_op (.present .activeRuntime)).mpr
  refine ⟨Or.inr rfl, ?_⟩
  rintro (_ | _) inspected rfl
  · apply Action.holds_pure.mpr
    apply (holds_op (.unlock .orchestrator)).mpr
    refine ⟨trivial, ?_⟩
    rintro ⟨⟩ unlocked rfl
    exact Or.inl rfl
  · apply (cancelActiveRequest_follows active parts.json).imp
    rintro outcome ⟨⟩ after (rfl | rfl)
    · apply (holds_op (.unlock .orchestrator)).mpr
      refine ⟨trivial, ?_⟩
      rintro ⟨⟩ unlocked rfl
      exact Or.inr (Or.inl rfl)
    · apply (holds_op (.unlock .orchestrator)).mpr
      refine ⟨trivial, ?_⟩
      rintro ⟨⟩ unlocked rfl
      exact Or.inr (Or.inr rfl)

theorem cancel_verified (active : RuntimeParts) :
    (body parts (.cancel active)).Holds (monitored Search.after) Search.Allows
      (fun search _ => search.Over) .storing := by
  apply Program.Holds.bind_of (cancel_follows active)
  exact fun after outcome finished => finished

end Search

end ArnCore.Agent.WorkflowProtocol
