import ArnCore.Agent.LockDiscipline

/-!
# Conditions over the stages of a call

Between two stages a call of the orchestrator touches no provider and no tool.
A condition is therefore verified for whole calls, workflows and single agents
alike, once it is verified for the execution of one stage.  The condition says
which profiles the call still awaits, and which one its runtime serves.
-/

namespace ArnCore.Agent.ConductedStages

open ArnCore.Interaction
open ArnCore.Provider
open ArnCore.Agent.AgentOrchestrator
open ArnCore.Agent.Environment
open ArnCore.Agent.EnvironmentSteps
open ArnCore.Agent.ExecutionSafety
open ArnCore.Agent.LockDiscipline
open ArnCore.Agent.OrchestratorProtocol
open ArnCore.Agent.WorkflowOutline
open ArnCore.Agent.WorkflowProtocol

/-- What the orchestrator and a cancellation do themselves. -/
def Coordinates : AgentOp → Prop
  | .load _ => True
  | .store _ _ => True
  | .exchange _ _ => True
  | .lock _ => True
  | .unlock _ => True
  | .publish _ => True
  | .clear _ => True
  | .present _ => True
  | .construct _ => True
  | .destroy _ => True
  | .stageStarted _ => True
  | .stageFinished _ _ => True
  | .beforeNextStage _ _ _ => True
  | .cancelProvider => True
  | _ => False

theorem coordinates_of_cancelling
    {op : AgentOp} (cancelling : Cancelling op) :
    Coordinates op := by
  cases op with
  | modelCapabilities model => exact cancelling.elim
  | startTurn request => exact cancelling.elim
  | continueTurn request => exact cancelling.elim
  | trimHistory bound => exact cancelling.elim
  | resetProvider => exact cancelling.elim
  | send request => exact cancelling.elim
  | jitter => exact cancelling.elim
  | pollsBefore delay => exact cancelling.elim
  | stopClient => exact cancelling.elim
  | deliverEvent data => exact cancelling.elim
  | onText delta => exact cancelling.elim
  | onProgress message => exact cancelling.elim
  | confirm request => exact cancelling.elim
  | executeTool name arguments => exact cancelling.elim
  | enterTool name arguments => exact cancelling.elim
  | createRuntime profile => exact cancelling.elim
  | executeRuntime context => exact cancelling.elim
  | cancelRuntime => exact cancelling.elim
  | _ => trivial

/-! ## The stages of a call -/

/-- The profiles a call makes runtimes for, in order. -/
def awaited (parts : OrchestratorParts) : HostCall → List AgentProfile
  | .execute _ _ _ _ _ _ _ =>
      match findProfiles parts.registry kStages with
      | .ok stages => stages.map Prod.snd
      | .error _ => []
  | .executeAgent profileId _ _ _ _ => (parts.registry.find profileId).toList
  | .cancel _ => []

/-- The constraints of the task a call was given. -/
def constraintsOf : HostCall → TaskConstraints
  | .execute task _ _ _ _ _ _ => task.constraints
  | .executeAgent _ task _ _ _ => task.constraints
  | .cancel _ => {}

/-! ## What lies between the stages -/

section Coordinating

variable {State : Type} {world : World agents State}
  {parts : OrchestratorParts}

/-- An action in which the orchestrator does everything itself. -/
abbrev Coordinated {Locals Value : Type} (world : World agents State)
    (action : Action agents Locals Value) : Prop :=
  Action.Safe world (fun _ => Coordinates) action

theorem always_coordinated
    {Locals : Type} (op : AgentOp) (own : Coordinates op) :
    Coordinated world
      (Action.ofHost (always op) : Action agents Locals (agents.Answer op)) :=
  always_safe op fun _ => own

theorem cancel_coordinated (active : RuntimeParts) :
    Coordinated world
      (parts.orchestrator.cancelActiveExecution
        (active.runtime parts.json)) := by
  apply Action.Safe.bind
    (always_coordinated (.store .cancelRequested true) trivial)
  intro stored
  apply Mutex.guarded_safe (always_coordinated (.lock .orchestrator) trivial)
    ?_ (always_coordinated (.unlock .orchestrator) trivial)
  apply Action.Safe.bind
    (always_coordinated (.present .activeRuntime) trivial)
  intro present
  split
  · exact .withLocals
      (cancel_safe fun _ _ cancelling => coordinates_of_cancelling cancelling)
  · exact .pure ()

end Coordinating

/-! ## What has to be verified -/

variable {State : Type}

/--
A condition on a call whose task has these constraints: `awaits` where the
profiles of the list are still to come, `serves` where a runtime was made for a
profile and the others are still to come.
-/
structure Conducts (parts : OrchestratorParts) (constraints : TaskConstraints)
    (observe : State → AgentEvent → State) (allowed : State → AgentOp → Prop)
    (awaits : List AgentProfile → State → Prop)
    (serves : AgentProfile → List AgentProfile → State → Prop) : Prop where
  permits : ∀ state op, Coordinates op → awaits [] state → allowed state op
  keeps : ∀ rest state event, Coordinates event.op → awaits rest state →
    awaits rest (observe state event)
  attends : ∀ profile rest state event, Coordinates event.op →
    serves profile rest state → serves profile rest (observe state event)
  skips : ∀ profile rest state, awaits (profile :: rest) state →
    awaits rest state
  leaves : ∀ profile rest state, serves profile rest state → awaits rest state
  creates : ∀ profile rest state answer, awaits (profile :: rest) state →
    allowed state (.createRuntime profile) ∧
      serves profile rest (observe state ⟨.createRuntime profile, answer⟩)
  executes : ∀ rest (context : AgentContext) text progress attached,
    context.task.constraints = constraints →
      Action.Leads observe allowed (serves context.profile rest) (awaits rest)
        (((parts.runtimes context.profile).runtime parts.json).execute context
          (hostCallbacks text progress) (hostHandler attached))

namespace Conducts

variable {parts : OrchestratorParts} {constraints : TaskConstraints}
  {observe : State → AgentEvent → State} {allowed : State → AgentOp → Prop}
  {awaits : List AgentProfile → State → Prop}
  {serves : AgentProfile → List AgentProfile → State → Prop}
  (conducts : Conducts parts constraints observe allowed awaits serves)
  {started finished continuation text progress attached : Bool}

include conducts

/-- Whatever is still to come may be left out. -/
theorem ends {rest : List AgentProfile} {state : State}
    (waits : awaits rest state) :
    awaits [] state := by
  induction rest with
  | nil => exact waits
  | cons profile rest induction =>
      exact induction (conducts.skips profile rest state waits)

theorem waiting
    {Value : Type} {rest : List AgentProfile}
    {action : Action agents Unit Value}
    (safe : Action.Safe (monitored observe) (fun _ => Coordinates) action) :
    Action.Leads observe allowed (awaits rest) (awaits rest) action :=
  .of_safe safe
    (fun state op own waits =>
      conducts.permits state op own (conducts.ends waits))
    (conducts.keeps rest)

/-! ## What the calls of the orchestrator lead to -/

/-- An operation of the orchestrator while nothing is served. -/
theorem waits_step
    {rest : List AgentProfile} {op : AgentOp} (own : Coordinates op) :
    Step (monitored observe) allowed (awaits rest) op fun _ => awaits rest :=
  step_monitored
    (fun state waits => conducts.permits state op own (conducts.ends waits))
    fun state answer waits => conducts.keeps rest state ⟨op, answer⟩ own waits

/-- An operation of the orchestrator while a runtime serves. -/
theorem serves_step
    {profile : AgentProfile} {rest : List AgentProfile} {op : AgentOp}
    (own : Coordinates op) :
    Step (monitored observe) allowed (serves profile rest) op
      fun _ => serves profile rest :=
  step_monitored
    (fun state serving => conducts.permits state op own
      (conducts.ends (conducts.leaves profile rest state serving)))
    fun state answer serving =>
      conducts.attends profile rest state ⟨op, answer⟩ own serving

/-- The same, and what follows from it. -/
theorem waits_lead
    {rest : List AgentProfile} {op : AgentOp}
    {after : agents.Answer op → State → Prop} (own : Coordinates op)
    (leads : ∀ answer state, awaits rest state → after answer state) :
    Step (monitored observe) allowed (awaits rest) op after := by
  intro state waits
  obtain ⟨permitted, kept⟩ := conducts.waits_step own state waits
  exact ⟨permitted, fun answer reached performed =>
    leads answer reached (kept answer reached performed)⟩

theorem serves_lead
    {profile : AgentProfile} {rest : List AgentProfile} {op : AgentOp}
    {after : agents.Answer op → State → Prop} (own : Coordinates op)
    (leads : ∀ answer state, serves profile rest state → after answer state) :
    Step (monitored observe) allowed (serves profile rest) op after := by
  intro state serving
  obtain ⟨permitted, kept⟩ := conducts.serves_step own state serving
  exact ⟨permitted, fun answer reached performed =>
    leads answer reached (kept answer reached performed)⟩

theorem waits_assign
    {rest : List AgentProfile} {op : AgentOp} (own : Coordinates op) :
    CallTriple (monitored observe) allowed (awaits rest)
      ((mutex .orchestrator).guarded (Action.ofHost (always op)))
      (Returning fun _ => awaits rest) :=
  triple_guarded (conducts.waits_step trivial) (conducts.waits_step own)
    (conducts.waits_step trivial)

theorem serves_assign
    {profile : AgentProfile} {rest : List AgentProfile} {op : AgentOp}
    {after : State → Prop} (own : Coordinates op)
    (leads : ∀ state, serves profile rest state → after state) :
    CallTriple (monitored observe) allowed (serves profile rest)
      ((mutex .orchestrator).guarded (Action.ofHost (always op)))
      (Returning fun _ => after) :=
  triple_guarded (conducts.serves_step trivial) (conducts.serves_step own)
    (conducts.serves_lead trivial fun _ => leads)

/-- The factory makes a runtime for the next profile, or the call ends. -/
theorem created_triple
    {profile : AgentProfile} {rest : List AgentProfile}
    {next : Except Exception (Option (IAgentRuntime agents)) → State → Prop}
    (made : ∀ state, serves profile rest state →
      next (.ok (some ((parts.runtimes profile).runtime parts.json))) state)
    (unmade : ∀ outcome state, awaits [] state →
      (∀ runtime, outcome ≠ .ok (some runtime)) → next outcome state) :
    CallTriple (monitored observe) allowed (awaits (profile :: rest))
      (parts.factory profile) next := by
  apply triple_create
  intro state waits
  have ends : ∀ answer, awaits []
      (observe state ⟨.createRuntime profile, answer⟩) := fun answer =>
    conducts.ends (conducts.leaves profile rest _
      (conducts.creates profile rest state answer waits).2)
  refine ⟨(conducts.creates profile rest state (.ok true) waits).1, ?_⟩
  rintro (failure | _ | _) after rfl
  · exact unmade _ _ (ends _) nofun
  · exact unmade _ _ (ends _) nofun
  · exact made _ (conducts.creates profile rest state _ waits).2

/-! ## Whole calls -/

/-- What a workflow still awaits at a point. -/
def AtPoint (awaits : List AgentProfile → State → Prop)
    (serves : AgentProfile → List AgentProfile → State → Prop)
    (waited : List AgentProfile) : Point → State → Prop
  | .entering => awaits waited
  | .claimed => awaits waited
  | .preflight => awaits waited
  | .head stages _ => awaits (stages.map Prod.snd)
  | .chosen visit => awaits (visit.profile :: visit.rest.map Prod.snd)
  | .made visit => serves visit.profile (visit.rest.map Prod.snd)
  | .built visit => serves visit.profile (visit.rest.map Prod.snd)
  | .attached visit => serves visit.profile (visit.rest.map Prod.snd)
  | .announced visit => serves visit.profile (visit.rest.map Prod.snd)
  | .withdrawing visit => serves visit.profile (visit.rest.map Prod.snd)
  | .running visit => serves visit.profile (visit.rest.map Prod.snd)
  | .executed visit _ => awaits (visit.rest.map Prod.snd)
  | .recorded visit _ => awaits (visit.rest.map Prod.snd)
  | .reported visit _ => awaits (visit.rest.map Prod.snd)
  | .continuing visit _ => awaits (visit.rest.map Prod.snd)
  | .decided visit _ _ => awaits (visit.rest.map Prod.snd)
  | .settled _ rest => awaits (rest.map Prod.snd)
  | .left _ => awaits []
  | .returned _ => awaits []

/-- A condition on the stages of a workflow is one on all of its calls. -/
theorem workflow_outline
    {task : OrchestrationTask}
    {started finished continuation text progress attached : Bool}
    (constrained : task.constraints = constraints) :
    Outline (monitored observe) allowed parts.orchestrator
      (fun profile => (parts.runtimes profile).runtime parts.json) task
      (hostWorkflow started finished continuation text progress)
      (hostHandler attached)
      (AtPoint awaits serves (awaited parts
        (.execute task started finished continuation text progress
          attached))) where
  claims := triple_always (conducts.waits_lead trivial (by
    rintro (_ | _) state waits
    · exact waits
    · exact conducts.ends waits))
  resets := triple_always (conducts.waits_step trivial)
  refuses code message state waits := conducts.ends waits
  starts stages state known waits := by
    have profiles : findProfiles parts.registry kStages = .ok stages := known
    have same : awaited parts (.execute task started finished continuation
        text progress attached) = stages.map Prod.snd := by
      rw [awaited, profiles]
    show awaits (stages.map Prod.snd) state
    rw [← same]
    exact waits
  checks visit := triple_always (conducts.waits_lead trivial (by
    rintro (_ | _) state waits
    · exact waits
    · exact conducts.ends waits))
  makes factory visit present := by
    cases parts.factory_of_present present
    apply conducts.created_triple
    · exact fun state serving => ⟨rfl, serving⟩
    · rintro (failure | _ | runtime) state ended unmade
      · exact ended
      · exact ended
      · exact absurd rfl (unmade runtime)
  builds visit := triple_always (conducts.serves_step trivial)
  attaches visit := conducts.serves_assign trivial fun _ serving => serving
  announces visit :=
    triple_announce (fun _ _ serving => serving) fun _ =>
      conducts.serves_lead trivial (by
        rintro (failure | ⟨⟩) state serving
        · exact conducts.leaves _ _ _ serving
        · exact serving)
  permits visit := triple_always (conducts.serves_lead trivial (by
    rintro (_ | _) state serving <;> exact serving))
  withdraws visit := conducts.serves_assign trivial (conducts.leaves _ _)
  executes visit := by
    have runs : CallTriple (monitored observe) allowed
        (serves visit.profile (visit.rest.map Prod.snd))
        (((parts.runtimes visit.profile).runtime parts.json).execute
          (visit.context task) (hostCallbacks text progress)
          (hostHandler attached))
        fun _ => awaits (visit.rest.map Prod.snd) :=
      conducts.executes _ (visit.context task) text progress attached
        constrained
    exact runs.imp (by rintro (failure | result) state waits <;> exact waits)
  detaches visit result := conducts.waits_assign trivial
  reports visit result :=
    triple_report (fun _ _ waits => waits) fun _ =>
      conducts.waits_lead trivial (by
        rintro (failure | ⟨⟩) state waits <;> exact waits)
  judges visit result := triple_always (conducts.waits_lead trivial
    fun stop state waits => Point.judged_of_each
      (motive := fun point => AtPoint awaits serves _ point state)
      (fun _ => waits) waits waits stop)
  unasked absent visit result state waits := waits
  asks callback visit result present := by
    cases continuation with
    | false => cases present
    | true =>
        cases present
        refine triple_ask (conducts.waits_lead trivial ?_)
        rintro (failure | decision) state waits <;> exact waits
  ratifies visit result decision :=
    triple_always (conducts.waits_lead trivial
      fun stop state waits => Point.ratified_of_each
        (motive := fun point => AtPoint awaits serves _ point state)
        (fun _ => waits) waits decision stop)
  destroys progress rest :=
    triple_always (conducts.waits_lead trivial (by
      intro answer state waits
      cases progress with
      | left workflow => exact conducts.ends waits
      | next workflow => exact waits))
  completes workflow state waits := waits
  releases workflow := triple_always (conducts.waits_step trivial)

/-- What an execution of one agent still awaits at a point. -/
def AtAgentPoint (awaits : List AgentProfile → State → Prop)
    (serves : AgentProfile → List AgentProfile → State → Prop)
    (waited : List AgentProfile) : AgentPoint → State → Prop
  | .entering => awaits waited
  | .claimed => awaits waited
  | .preflight => awaits waited
  | .chosen profile => awaits [profile]
  | .made profile => serves profile []
  | .built profile => serves profile []
  | .attached profile => serves profile []
  | .running profile => serves profile []
  | _ => awaits []

/-- The same holds of an execution of one agent. -/
theorem agent_outline
    {profileId : String} {task : AgentTask} {text progress attached : Bool}
    (constrained : task.constraints = constraints) :
    AgentOutline (monitored observe) allowed parts.orchestrator
      (fun profile => (parts.runtimes profile).runtime parts.json) profileId
      task (hostCallbacks text progress) (hostHandler attached)
      (AtAgentPoint awaits serves (awaited parts
        (.executeAgent profileId task text progress attached))) where
  claims := triple_always (conducts.waits_lead trivial (by
    rintro (_ | _) state waits
    · exact waits
    · exact conducts.ends waits))
  resets := triple_always (conducts.waits_step trivial)
  refuses code message state waits := conducts.ends waits
  starts profile state known waits := by
    have registered : parts.registry.find profileId = some profile := known
    have same : awaited parts
        (.executeAgent profileId task text progress attached) = [profile] := by
      rw [awaited, registered]
      rfl
    show awaits [profile] state
    rw [← same]
    exact waits
  makes factory profile present := by
    cases parts.factory_of_present present
    apply conducts.created_triple
    · exact fun state serving => ⟨rfl, serving⟩
    · rintro (failure | _ | runtime) state ended unmade
      · exact ended
      · exact ended
      · exact absurd rfl (unmade runtime)
  builds profile := triple_always (conducts.serves_step trivial)
  attaches profile :=
    conducts.serves_assign trivial fun _ serving => serving
  permits profile := triple_always (conducts.serves_lead trivial (by
    rintro (_ | _) state serving
    · exact serving
    · exact conducts.leaves _ _ _ serving))
  executes profile := by
    have runs : CallTriple (monitored observe) allowed (serves profile [])
        (((parts.runtimes profile).runtime parts.json).execute
          { profile := profile, task := task } (hostCallbacks text progress)
          (hostHandler attached))
        fun _ => awaits [] :=
      conducts.executes [] { profile := profile, task := task } text progress
        attached constrained
    exact runs.imp (by rintro (failure | result) state waits <;> exact waits)
  detaches result := conducts.waits_assign trivial
  judges result := triple_always (conducts.waits_lead trivial (by
    intro stop state waits
    show AtAgentPoint awaits serves _ (if _ then _ else _) state
    split <;> exact waits))
  destroys result := triple_always (conducts.waits_step trivial)
  releases result := triple_always (conducts.waits_step trivial)

end Conducts

/-- A condition on the stages of a call holds of the whole call. -/
theorem hostBody_conducted
    {parts : OrchestratorParts} {call : HostCall}
    {observe : State → AgentEvent → State}
    {allowed : State → AgentOp → Prop}
    {awaits : List AgentProfile → State → Prop}
    {serves : AgentProfile → List AgentProfile → State → Prop}
    (conducts : Conducts parts (constraintsOf call) observe allowed awaits
      serves)
    {state : State} (waits : awaits (awaited parts call) state) :
    (hostBody parts call).Holds (monitored observe) allowed
      (fun after _ => awaits [] after) state := by
  cases call with
  | execute task started finished continuation text progress attached =>
      apply Program.Holds.bind_of
        ((conducts.workflow_outline rfl).execute () state waits)
      rintro after ⟨failure | result, locals⟩ returned
      · exact returned.elim
      · exact returned
  | executeAgent profileId task text progress attached =>
      apply Program.Holds.bind_of
        ((conducts.agent_outline rfl).executeAgent () state waits)
      rintro after ⟨failure | result, locals⟩ returned
      · exact returned.elim
      · exact returned
  | cancel active =>
      exact Program.Holds.bind_of
        (conducts.waiting (cancel_coordinated active) () state waits)
        fun _ _ ended => ended

end ArnCore.Agent.ConductedStages
