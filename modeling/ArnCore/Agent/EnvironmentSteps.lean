import ArnCore.Agent.Environment
import ArnCore.Interaction.Triple

/-!
# Steps of the environment

What a single operation, a critical section or the lifetime of an object leads
to.  These are the triples from which the outlines of the runtime and of the
orchestrator are put together.
-/

namespace ArnCore.Agent.EnvironmentSteps

open ArnCore.Interaction
open ArnCore.Agent.Environment

variable {State Locals Value : Type} {world : World agents State}
  {allowed : State → AgentOp → Prop} {before : State → Prop}

/-! ## Single operations -/

/-- An operation is allowed and leads from one condition to another. -/
def Step (world : World agents State) (allowed : State → AgentOp → Prop)
    (before : State → Prop) (op : AgentOp)
    (after : agents.Answer op → State → Prop) : Prop :=
  ∀ state, before state → allowed state op ∧
    ∀ answer reached, world.perform state op answer reached →
      after answer reached

/-- What a step of an observer is. -/
theorem step_monitored
    {observe : State → AgentEvent → State} {op : AgentOp}
    {after : agents.Answer op → State → Prop}
    (permitted : ∀ state, before state → allowed state op)
    (leads : ∀ state answer, before state →
      after answer (observe state ⟨op, answer⟩)) :
    Step (monitored observe) allowed before op after := by
  intro state start
  refine ⟨permitted state start, ?_⟩
  rintro answer _ rfl
  exact leads state answer start

/-- What it is when the state before it is known. -/
theorem step_at
    {observe : State → AgentEvent → State} {start : State} {op : AgentOp}
    {after : agents.Answer op → State → Prop}
    (permitted : allowed start op)
    (leads : ∀ answer, after answer (observe start ⟨op, answer⟩)) :
    Step (monitored observe) allowed (· = start) op after := by
  apply step_monitored
  · rintro _ rfl
    exact permitted
  · rintro _ answer rfl
    exact leads answer

theorem triple_always
    {op : AgentOp} {after : agents.Answer op → State → Prop}
    (step : Step world allowed before op after) :
    Triple world allowed before
      (Action.ofHost (always op) : Action agents Locals (agents.Answer op))
      (Returning after) :=
  fun _ => step

/-- What keeps a state is a triple. -/
theorem triple_of_keeps
    {observe : State → AgentEvent → State} {state : State}
    {action : Action agents Locals Value}
    (keeps : Action.Keeps observe allowed state action) :
    Triple (monitored observe) allowed (· = state) action
      fun _ => (· = state) := by
  rintro locals _ rfl
  exact keeps locals

/-- A call that may throw. -/
theorem triple_ask
    {op : AgentOp} {next : agents.Answer op → Except Exception Value}
    {reached : Except Exception Value → State → Prop}
    (step : Step world allowed before op fun answer => reached (next answer)) :
    Triple world allowed before
      (Action.ofHost (.call op fun answer => .done (next answer)) :
        Action agents Locals Value) reached :=
  fun _ => step

/-! ## Critical sections and lifetimes -/

/-- A critical section, however its body is left. -/
theorem triple_section
    {name : MutexName} {body : Action agents Locals Value}
    {locked : State → Prop}
    {between after : Except Exception Value → State → Prop}
    (locks : Step world allowed before (.lock name) fun _ => locked)
    (runs : Triple world allowed locked body between)
    (unlocks : ∀ outcome, Step world allowed (between outcome) (.unlock name)
      fun _ => after outcome) :
    Triple world allowed before ((mutex name).guarded body) after := by
  refine Triple.bind (triple_always locks) fun _ => runs.scopeGuard ?_
  intro outcome
  apply (triple_always (unlocks outcome)).imp
  rintro (failure | ⟨⟩) state found
  · exact found.elim
  · exact found

/-- An operation under a mutex. -/
theorem triple_guarded
    {name : MutexName} {op : AgentOp} {locked assigned after : State → Prop}
    (locks : Step world allowed before (.lock name) fun _ => locked)
    (assigns : Step world allowed locked op fun _ => assigned)
    (unlocks : Step world allowed assigned (.unlock name) fun _ => after) :
    Triple world allowed before
      ((mutex name).guarded (Action.ofHost (always op)) :
        Action agents Locals (agents.Answer op))
      (Returning fun _ => after) := by
  refine Triple.bind (triple_always locks) fun _ => ?_
  exact .guard (triple_always assigns) fun _ => triple_always unlocks

/-- The same, when the states that an observer passes are known. -/
theorem triple_guarded_at
    {observe : State → AgentEvent → State} {name : MutexName} {op : AgentOp}
    {start : State} {after : State → Prop} (locked assigned : State)
    (locks : allowed start (.lock name))
    (enters : observe start ⟨.lock name, ()⟩ = locked)
    (assigns : allowed locked op)
    (leads : ∀ answer, observe locked ⟨op, answer⟩ = assigned)
    (unlocks : allowed assigned (.unlock name))
    (leaves : after (observe assigned ⟨.unlock name, ()⟩)) :
    Triple (monitored observe) allowed (· = start)
      ((mutex name).guarded (Action.ofHost (always op)) :
        Action agents Locals (agents.Answer op))
      (Returning fun _ => after) :=
  triple_guarded (step_at locks fun _ => enters) (step_at assigns leads)
    (step_at unlocks fun _ => leaves)

/-- Two operations under one mutex. -/
theorem triple_assigned
    {name : MutexName} {first second : AgentOp}
    {locked assigning assigned after : State → Prop}
    (locks : Step world allowed before (.lock name) fun _ => locked)
    (begins : Step world allowed locked first fun _ => assigning)
    (ends : Step world allowed assigning second fun _ => assigned)
    (unlocks : Step world allowed assigned (.unlock name) fun _ => after) :
    Triple world allowed before
      ((mutex name).guarded (do
          let _ ← Action.ofHost (always first)
          Action.ofHost (always second)) :
        Action agents Locals (agents.Answer second))
      (Returning fun _ => after) := by
  refine Triple.bind (triple_always locks) fun _ => ?_
  refine .guard ?_ fun _ => triple_always unlocks
  exact Triple.bind (triple_always begins) fun _ => triple_always ends

/-- The same, when the states that an observer passes are known. -/
theorem triple_assigned_at
    {observe : State → AgentEvent → State} {name : MutexName}
    {first second : AgentOp} {start : State} {after : State → Prop}
    (locked assigning assigned : State)
    (locks : allowed start (.lock name))
    (enters : observe start ⟨.lock name, ()⟩ = locked)
    (begins : allowed locked first)
    (leads : ∀ answer, observe locked ⟨first, answer⟩ = assigning)
    (ends : allowed assigning second)
    (follows : ∀ answer, observe assigning ⟨second, answer⟩ = assigned)
    (unlocks : allowed assigned (.unlock name))
    (leaves : after (observe assigned ⟨.unlock name, ()⟩)) :
    Triple (monitored observe) allowed (· = start)
      ((mutex name).guarded (do
          let _ ← Action.ofHost (always first)
          Action.ofHost (always second)) :
        Action agents Locals (agents.Answer second))
      (Returning fun _ => after) :=
  triple_assigned (step_at locks fun _ => enters) (step_at begins leads)
    (step_at ends follows) (step_at unlocks fun _ => leaves)

/-- The lifetime of a local object, however its scope is left. -/
theorem triple_scoped
    {name : ObjectName} {body : Action agents Locals Value}
    {alive : State → Prop}
    {between after : Except Exception Value → State → Prop}
    (constructs : Step world allowed before (.construct name) fun _ => alive)
    (runs : Triple world allowed alive body between)
    (destroys : ∀ outcome, Step world allowed (between outcome)
      (.destroy name) fun _ => after outcome) :
    Triple world allowed before ((lifetime name).scoped body) after := by
  refine Triple.bind (triple_always constructs) fun _ => runs.scopeGuard ?_
  intro outcome
  apply (triple_always (destroys outcome)).imp
  rintro (failure | ⟨⟩) state found
  · exact found.elim
  · exact found

end ArnCore.Agent.EnvironmentSteps
