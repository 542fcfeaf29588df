import ArnCore.Agent.OrchestrationFlow

/-!
# The protocol of the orchestrator

What a call of `execute`, `execute_agent` or `cancel_active_execution` does to
the gate, the mutex, the pointer and the runtime of a stage, for any factory,
any runtimes and any callbacks.  The programs are compared with the protocol
here, once, call by call.
-/

namespace ArnCore.Agent.OrchestratorProtocol

open ArnCore.Interaction
open ArnCore.Provider
open ArnCore.Agent.Environment
open ArnCore.Agent.EnvironmentSteps
open ArnCore.Agent.OrchestrationFlow
open ArnCore.Agent.AgentOrchestrator
open ArnCore.Agent.WorkflowOutline

/-! ## The calls of an orchestrator -/

inductive OrchestratorCall where
  | execute (task : OrchestrationTask)
      (started finished continuation text progress attached : Bool)
  | executeAgent (profileId : String) (task : AgentTask)
      (text progress attached : Bool)
  | cancel

inductive OrchestratorReturn where
  | executed (outcome : Except Exception OrchestrationResult)
  | agentExecuted (outcome : Except Exception AgentResult)
  | cancelled (outcome : Except Exception Unit)

/-- The program of a call of the orchestrator. -/
def body (registry : AgentRegistry) (hasFactory : Bool) :
    OrchestratorCall → Program agents OrchestratorReturn
  | .execute task started finished continuation text progress attached => do
      let (outcome, _) ←
        ((anyOrchestrator registry hasFactory).execute task
          (hostWorkflow started finished continuation text progress)
          (hostHandler attached)).run.run ()
      pure (.executed outcome)
  | .executeAgent profileId task text progress attached => do
      let (outcome, _) ←
        ((anyOrchestrator registry hasFactory).executeAgent profileId task
          (hostCallbacks text progress) (hostHandler attached)).run.run ()
      pure (.agentExecuted outcome)
  | .cancel => do
      let (outcome, _) ←
        ((anyOrchestrator registry hasFactory).cancelActiveExecution
          anyAgentRuntime).run.run ()
      pure (.cancelled outcome)

/-- What a call returns when it is refused; a cancellation never is. -/
def refusal : OrchestratorCall → Option OrchestratorReturn
  | .execute _ _ _ _ _ _ _ =>
      some (.executed (.ok (preflightFailure "orchestrator_busy"
        "An orchestration workflow is already running.")))
  | .executeAgent _ _ _ _ _ =>
      some (.agentExecuted (.ok (agentFailure "orchestrator_busy"
        "An agent execution is already running.")))
  | .cancel => none

/-! ## The protocol of one call -/

/-- What an execution past the gate owns and has published. -/
structure Scope where
  runtime : Bool := false
  holding : Bool := false
  active : Bool := false
deriving DecidableEq

/-- What an operation changes in the scope. -/
def Scope.after (scope : Scope) : AgentOp → Scope
  | .construct .runtime => { scope with runtime := true }
  | .destroy .runtime => { scope with runtime := false }
  | .lock .orchestrator => { scope with holding := true }
  | .unlock .orchestrator => { scope with holding := false }
  | .publish .activeRuntime => { scope with active := true }
  | .clear .activeRuntime => { scope with active := false }
  | _ => scope

/-- What an execution past the gate may do. -/
def Scope.Allows (scope : Scope) : AgentOp → Prop
  | .store .cancelRequested false => scope = {}
  | .store .orchestratorExecuting false => scope = {}
  | .load .cancelRequested => scope.holding = false
  | .createRuntime _ => scope = {}
  | .construct .runtime => scope = {}
  | .destroy .runtime => scope = { runtime := true }
  | .lock .orchestrator => scope.holding = false
  | .unlock .orchestrator => scope.holding = true
  | .publish .activeRuntime =>
      scope.holding = true ∧ scope.runtime = true
  | .clear .activeRuntime => scope.holding = true
  | .stageStarted _ => scope = { runtime := true, active := true }
  | .executeRuntime _ => scope = { runtime := true, active := true }
  | .stageFinished _ _ => scope = { runtime := true }
  | .beforeNextStage _ _ _ => scope = { runtime := true }
  | _ => False

/-- Where a call of the orchestrator stands. -/
inductive Phase where
  | entering (refusal : OrchestratorReturn)
  | refused (refusal : OrchestratorReturn)
  | gated (scope : Scope)
  | released
  | storing
  | waiting
  | inspecting (found : Option Bool)
  | left

def Allowed : Phase → AgentOp → Prop
  | .entering _, op => op = .exchange .orchestratorExecuting true
  | .gated scope, op => scope.Allows op
  | .storing, op => op = .store .cancelRequested true
  | .waiting, op => op = .lock .orchestrator
  | .inspecting none, op => op = .present .activeRuntime
  | .inspecting (some found), op =>
      op = .unlock .orchestrator ∨ (found = true ∧ op = .cancelRuntime)
  | _, _ => False

def observe : Phase → AgentEvent → Phase
  | .entering refusal, ⟨.exchange .orchestratorExecuting _, true⟩ =>
      .refused refusal
  | .entering _, ⟨.exchange .orchestratorExecuting _, false⟩ => .gated {}
  | .gated _, ⟨.store .orchestratorExecuting _, _⟩ => .released
  | .gated scope, ⟨op, _⟩ => .gated (scope.after op)
  | .storing, ⟨.store .cancelRequested _, _⟩ => .waiting
  | .waiting, ⟨.lock .orchestrator, _⟩ => .inspecting none
  | .inspecting none, ⟨.present .activeRuntime, found⟩ =>
      .inspecting (some found)
  | .inspecting _, ⟨.unlock .orchestrator, _⟩ => .left
  | phase, _ => phase

/-- Where a call stands when it returns. -/
def Post : Phase → OrchestratorReturn → Prop
  | .refused refusal, value => value = refusal
  | .released, .executed _ => True
  | .released, .agentExecuted _ => True
  | .left, .cancelled _ => True
  | _, _ => False

def start (call : OrchestratorCall) : Phase :=
  match refusal call with
  | some refusal => .entering refusal
  | none => .storing

/-! ## The programs follow the protocol -/

/-- The scope between two critical sections. -/
def stageScope (published : Bool) : Scope where
  runtime := true
  active := published

/-- The phase of a workflow that has passed the gate. -/
def pointPhase : Point → Phase
  | .built _ => .gated (stageScope false)
  | .attached _ => .gated (stageScope true)
  | .announced _ => .gated (stageScope true)
  | .withdrawing _ => .gated (stageScope true)
  | .running _ => .gated (stageScope true)
  | .executed _ _ => .gated (stageScope true)
  | .recorded _ _ => .gated (stageScope false)
  | .reported _ _ => .gated (stageScope false)
  | .continuing _ _ => .gated (stageScope false)
  | .decided _ _ _ => .gated (stageScope false)
  | .settled _ _ => .gated (stageScope false)
  | _ => .gated {}

/-- Where the protocol stands when a workflow is at a point. -/
def AtPoint (refusal : OrchestratorReturn) (point : Point) (phase : Phase) :
    Prop :=
  match point with
  | .entering => phase = .entering refusal
  | .returned result => Post phase (.executed (.ok result))
  | point => phase = pointPhase point

/-- The phase of an execution of one agent that has passed the gate. -/
def agentPhase : AgentPoint → Phase
  | .built _ => .gated (stageScope false)
  | .attached _ => .gated (stageScope true)
  | .running _ => .gated (stageScope true)
  | .executed _ => .gated (stageScope true)
  | .detached _ => .gated (stageScope false)
  | .settled _ => .gated (stageScope false)
  | _ => .gated {}

/-- Where the protocol stands when an execution of one agent is at a point. -/
def AtAgentPoint (refusal : OrchestratorReturn) (point : AgentPoint)
    (phase : Phase) : Prop :=
  match point with
  | .entering => phase = .entering refusal
  | .returned result => Post phase (.agentExecuted (.ok result))
  | point => phase = agentPhase point

section Protocol

variable {registry : AgentRegistry} {hasFactory : Bool}
  {started finished continuation text progress : Bool}

/-- The pointer is written under the mutex. -/
theorem publish_triple :
    CallTriple (monitored observe) Allowed (· = .gated (stageScope false))
      ((mutex .orchestrator).guarded
        (Action.ofHost (always (.publish .activeRuntime))))
      (Returning fun _ phase => phase = .gated (stageScope true)) :=
  triple_guarded_at (.gated { runtime := true, holding := true })
    (.gated { runtime := true, holding := true, active := true })
    (show _ = false from rfl) rfl ⟨rfl, rfl⟩ (fun _ => rfl)
    (show _ = true from rfl) rfl

theorem clear_triple :
    CallTriple (monitored observe) Allowed (· = .gated (stageScope true))
      ((mutex .orchestrator).guarded
        (Action.ofHost (always (.clear .activeRuntime))))
      (Returning fun _ phase => phase = .gated (stageScope false)) :=
  triple_guarded_at
    (.gated { runtime := true, holding := true, active := true })
    (.gated { runtime := true, holding := true })
    (show _ = false from rfl) rfl (show _ = true from rfl) (fun _ => rfl)
    (show _ = true from rfl) rfl

/-- Every call of a workflow is one that the protocol allows there. -/
theorem workflow_outline
    (task : OrchestrationTask) (confirm : HostConfirm agents) :
    Outline (monitored observe) Allowed (anyOrchestrator registry hasFactory)
      (fun _ => anyAgentRuntime) task
      (hostWorkflow started finished continuation text progress) confirm
      (AtPoint (.executed (.ok (preflightFailure "orchestrator_busy"
        "An orchestration workflow is already running.")))) where
  claims := triple_always (step_at rfl (by rintro (_ | _) <;> rfl))
  resets := triple_always (step_at rfl fun _ => rfl)
  refuses code message phase preflight := preflight
  starts stages phase known preflight := preflight
  checks visit :=
    triple_always (step_at rfl (by rintro (_ | _) <;> rfl))
  makes factory visit present := by
    cases factory_of_present present
    apply triple_create
    refine step_at rfl ?_
    rintro (failure | _ | _)
    · rfl
    · rfl
    · exact ⟨rfl, rfl⟩
  builds visit := triple_always (step_at rfl fun _ => rfl)
  attaches visit := publish_triple
  announces visit :=
    triple_announce (fun _ phase attached => attached) fun _ =>
      step_at rfl (by rintro (failure | ⟨⟩) <;> rfl)
  permits visit :=
    triple_always (step_at rfl (by rintro (_ | _) <;> rfl))
  withdraws visit := clear_triple
  executes visit :=
    triple_ask (step_at rfl (by rintro (failure | result) <;> rfl))
  detaches visit result := clear_triple
  reports visit result :=
    triple_report (fun _ phase recorded => recorded) fun _ =>
      step_at rfl (by rintro (failure | ⟨⟩) <;> rfl)
  judges visit result :=
    triple_always (step_at rfl fun stop =>
      Point.judged_of_each
        (motive := fun point => AtPoint _ point (.gated (stageScope false)))
        (fun _ => rfl) rfl rfl stop)
  unasked absent visit result phase continuing := continuing
  asks callback visit result present := by
    cases continuation with
    | false => cases present
    | true =>
        cases present
        refine triple_ask (step_at rfl ?_)
        rintro (failure | decision) <;> rfl
  ratifies visit result decision :=
    triple_always (step_at rfl fun stop =>
      Point.ratified_of_each
        (motive := fun point => AtPoint _ point (.gated (stageScope false)))
        (fun _ => rfl) rfl decision stop)
  destroys progress rest := by
    refine triple_always (step_at rfl fun _ => ?_)
    cases progress <;> rfl
  completes workflow phase atEnd := atEnd
  releases workflow := triple_always (step_at rfl fun _ => trivial)

/-- The same holds of an execution of one agent. -/
theorem agent_outline
    (profileId : String) (task : AgentTask) (confirm : HostConfirm agents) :
    AgentOutline (monitored observe) Allowed
      (anyOrchestrator registry hasFactory) (fun _ => anyAgentRuntime)
      profileId task (hostCallbacks text progress) confirm
      (AtAgentPoint (.agentExecuted (.ok (agentFailure "orchestrator_busy"
        "An agent execution is already running.")))) where
  claims := triple_always (step_at rfl (by rintro (_ | _) <;> rfl))
  resets := triple_always (step_at rfl fun _ => rfl)
  refuses code message phase preflight := preflight
  starts profile phase known preflight := preflight
  makes factory profile present := by
    cases factory_of_present present
    apply triple_create
    refine step_at rfl ?_
    rintro (failure | _ | _)
    · rfl
    · rfl
    · exact ⟨rfl, rfl⟩
  builds profile := triple_always (step_at rfl fun _ => rfl)
  attaches profile := publish_triple
  permits profile :=
    triple_always (step_at rfl (by rintro (_ | _) <;> rfl))
  executes profile :=
    triple_ask (step_at rfl (by rintro (failure | result) <;> rfl))
  detaches result := clear_triple
  judges result := by
    refine triple_always (step_at rfl fun stop => ?_)
    unfold AgentPoint.judged
    split_ifs <;> rfl
  destroys result := triple_always (step_at rfl fun _ => rfl)
  releases result := triple_always (step_at rfl fun _ => trivial)

end Protocol

/-! ## Whole calls -/

section Calls

variable {registry : AgentRegistry} {hasFactory : Bool}
  {started finished continuation text progress attached : Bool}

theorem cancelRuntime_keeps :
    Action.Keeps observe Allowed (.inspecting (some true))
      anyAgentRuntime.cancelActiveRequest := by
  intro locals
  refine ⟨Or.inr ⟨rfl, rfl⟩, ?_⟩
  rintro (failure | ⟨⟩) after rfl <;> rfl

theorem cancelActiveExecution_holds {locals : Unit} :
    Action.Holds (monitored observe) Allowed
      (fun outcome _ after => Post after (.cancelled outcome))
      ((anyOrchestrator registry hasFactory).cancelActiveExecution
        anyAgentRuntime) locals .storing := by
  apply Action.holds_bind.mpr
  apply (holds_op (.store .cancelRequested true)).mpr
  refine ⟨rfl, ?_⟩
  rintro ⟨⟩ stored rfl
  apply Action.holds_bind.mpr
  apply (holds_op (.lock .orchestrator)).mpr
  refine ⟨rfl, ?_⟩
  rintro ⟨⟩ locked rfl
  apply Action.holds_scopeGuard.mpr
  apply Action.holds_bind.mpr
  apply (holds_op (.present .activeRuntime)).mpr
  refine ⟨rfl, ?_⟩
  rintro (_ | _) inspected rfl
  · apply Action.holds_pure.mpr
    apply (holds_op (.unlock .orchestrator)).mpr
    refine ⟨Or.inl rfl, ?_⟩
    rintro ⟨⟩ unlocked rfl
    trivial
  · apply (cancelRuntime_keeps locals).imp
    rintro outcome after reached rfl
    apply (holds_op (.unlock .orchestrator)).mpr
    refine ⟨Or.inl rfl, ?_⟩
    rintro ⟨⟩ unlocked rfl
    trivial

end Calls

/-- Every call of an orchestrator follows the protocol. -/
theorem body_verified
    (registry : AgentRegistry) (hasFactory : Bool) (call : OrchestratorCall) :
    (body registry hasFactory call).Holds (monitored observe) Allowed Post
      (start call) := by
  cases call with
  | execute task started finished continuation text progress attached =>
      apply Program.Holds.bind_of
        ((workflow_outline task (hostHandler attached)).execute () _ rfl)
      rintro after ⟨failure | result, locals⟩ returned
      · exact returned.elim
      · exact returned
  | executeAgent profileId task text progress attached =>
      apply Program.Holds.bind_of
        ((agent_outline profileId task (hostHandler attached)).executeAgent ()
          _ rfl)
      rintro after ⟨failure | result, locals⟩ returned
      · exact returned.elim
      · exact returned
  | cancel =>
      apply Program.Holds.bind_of cancelActiveExecution_holds
      exact fun after outcome ends => ends

/-! ## Facts about the phases -/

/-- The call holds the mutex of the orchestrator. -/
def Phase.holdsMutex : Phase → Bool
  | .gated scope => scope.holding
  | .inspecting _ => true
  | _ => false

/-- The call is past the gate. -/
def Phase.IsGated (phase : Phase) : Prop :=
  ∃ scope, phase = .gated scope

/-- A published runtime exists. -/
def Scope.Valid (scope : Scope) : Prop :=
  scope.active = true → scope.runtime = true

theorem Scope.Valid.after
    {scope : Scope} {op : AgentOp}
    (valid : scope.Valid) (allowed : scope.Allows op) :
    (scope.after op).Valid := by
  rcases scope with ⟨runtime, holding, active⟩
  cases op with
  | publish name => cases name <;> simp_all [Valid, Scope.after, Allows]
  | clear name => cases name <;> simp_all [Valid, Scope.after, Allows]
  | construct name => cases name <;> simp_all [Valid, Scope.after, Allows]
  | destroy name => cases name <;> simp_all [Valid, Scope.after, Allows]
  | lock name => cases name <;> simp_all [Valid, Scope.after, Allows]
  | unlock name => cases name <;> simp_all [Valid, Scope.after, Allows]
  | _ => exact valid

theorem observe_gated
    {scope : Scope} {op : AgentOp} {answer : agents.Answer op}
    (stays : ∀ value, op ≠ .store .orchestratorExecuting value) :
    observe (.gated scope) ⟨op, answer⟩ = .gated (scope.after op) := by
  cases op with
  | store flag value =>
      cases flag with
      | orchestratorExecuting => exact absurd rfl (stays value)
      | _ => rfl
  | _ => rfl

/-- The events after which a call is past the gate. -/
theorem observe_gated_iff
    (phase : Phase) (op : AgentOp) (answer : agents.Answer op)
    (allowed : Allowed phase op) :
    (observe phase ⟨op, answer⟩).IsGated ↔
      (⟨op, answer⟩ : AgentEvent) =
          ⟨.exchange .orchestratorExecuting true, false⟩ ∨
        (phase.IsGated ∧
          (⟨op, answer⟩ : AgentEvent) ≠
            ⟨.store .orchestratorExecuting false, ()⟩) := by
  have other : op ≠ .exchange .orchestratorExecuting true →
      (⟨op, answer⟩ : AgentEvent) ≠
        ⟨.exchange .orchestratorExecuting true, false⟩ :=
    fun different same => different (congrArg Event.op same)
  cases phase with
  | gated scope =>
      by_cases stays : ∀ value, op ≠ .store .orchestratorExecuting value
      · rw [observe_gated stays]
        refine iff_of_true ⟨_, rfl⟩ (Or.inr ⟨⟨_, rfl⟩, ?_⟩)
        intro same
        exact stays false (congrArg Event.op same)
      · obtain ⟨value, same⟩ := not_forall.mp stays
        rw [ne_eq, not_not] at same
        subst same
        cases value with
        | true => exact allowed.elim
        | false =>
            refine iff_of_false nofun ?_
            rintro (same | ⟨_, different⟩)
            · exact other nofun same
            · exact different rfl
  | entering refusal =>
      cases allowed
      cases answer with
      | false => exact iff_of_true ⟨{}, rfl⟩ (Or.inl rfl)
      | true =>
          refine iff_of_false nofun ?_
          rintro (same | ⟨⟨_, ⟨⟩⟩, _⟩)
          injection same with _ value
          cases value
  | storing =>
      cases allowed
      refine iff_of_false nofun ?_
      rintro (same | ⟨⟨_, ⟨⟩⟩, _⟩)
      exact other nofun same
  | waiting =>
      cases allowed
      refine iff_of_false nofun ?_
      rintro (same | ⟨⟨_, ⟨⟩⟩, _⟩)
      exact other nofun same
  | inspecting found =>
      cases found with
      | none =>
          cases allowed
          refine iff_of_false nofun ?_
          rintro (same | ⟨⟨_, ⟨⟩⟩, _⟩)
          exact other nofun same
      | some found =>
          rcases allowed with rfl | ⟨_, rfl⟩
          · refine iff_of_false nofun ?_
            rintro (same | ⟨⟨_, ⟨⟩⟩, _⟩)
            exact other nofun same
          · refine iff_of_false nofun ?_
            rintro (same | ⟨⟨_, ⟨⟩⟩, _⟩)
            exact other nofun same
  | refused refusal => exact allowed.elim
  | released => exact allowed.elim
  | left => exact allowed.elim

/-- Only a call that stands before the gate exchanges its flag. -/
theorem entering_of_exchange
    {phase : Phase}
    (allowed : Allowed phase (.exchange .orchestratorExecuting true)) :
    ∃ value, phase = .entering value := by
  cases phase with
  | entering value => exact ⟨value, rfl⟩
  | gated scope => exact allowed.elim
  | storing => cases allowed
  | waiting => cases allowed
  | inspecting found =>
      cases found with
      | none => cases allowed
      | some found => rcases allowed with same | ⟨_, same⟩ <;> cases same
  | refused value => exact allowed.elim
  | released => exact allowed.elim
  | left => exact allowed.elim

/-- No event leads back to the gate. -/
theorem entering_of_observe
    {phase : Phase} {event : AgentEvent} {value : OrchestratorReturn}
    (atPhase : observe phase event = .entering value) :
    phase = .entering value := by
  unfold observe at atPhase
  split at atPhase
  case h_9 => exact atPhase
  all_goals cases atPhase

/-- A call that is about to pass the gate knows what a refusal returns. -/
theorem refusal_of_entering
    {call : OrchestratorCall} {history : List AgentEvent}
    {value : OrchestratorReturn}
    (atPhase : history.foldl observe (start call) = .entering value) :
    refusal call = some value := by
  induction history using List.reverseRecOn with
  | nil =>
      cases call with
      | cancel => cases atPhase
      | execute task started finished continuation text progress attached =>
          cases atPhase
          rfl
      | executeAgent profileId task text progress attached =>
          cases atPhase
          rfl
  | append_singleton history event induction =>
      rw [List.foldl_append] at atPhase
      exact induction (entering_of_observe atPhase)

end ArnCore.Agent.OrchestratorProtocol
