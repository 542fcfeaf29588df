import ArnCore.Agent.ExecutionSafety

/-!
# The stages of an execution

The provider is used between two resets: an execution resets it before it
creates its flag and attaches its session, and after it detached the session,
however the prompt was left.  The stage of a call says how far it has come.
-/

namespace ArnCore.Agent.RuntimeStages

open ArnCore.Interaction
open ArnCore.Provider
open ArnCore.Tool
open ArnCore.Agent.Environment
open ArnCore.Agent.EnvironmentSteps
open ArnCore.Agent.ExecutionSafety
open ArnCore.Agent.ExposedTools
open ArnCore.Agent.PromptDiscipline
open ArnCore.Agent.RuntimeOutline
open ArnCore.Agent.RuntimeProtocol

/-- How far a call has come, and whether its last reset emptied the provider. -/
inductive Stage where
  | untouched
  | clean
  | attached
  | settled (emptied : Bool)
  | left
deriving DecidableEq

namespace Stage

/-- The session of the execution has been attached and detached again. -/
def Settled (stage : Stage) : Prop :=
  ∃ emptied, stage = .settled emptied

/-- The last event at the provider was a reset that emptied its history. -/
def Emptied (stage : Stage) : Prop :=
  stage = .clean ∨ stage = .settled true

def after : Stage → AgentEvent → Stage
  | .untouched, ⟨.resetProvider, .ok _⟩ => .clean
  | .untouched, ⟨.resetProvider, .error _⟩ => .settled false
  | .attached, ⟨.resetProvider, .ok _⟩ => .settled true
  | .attached, ⟨.resetProvider, .error _⟩ => .settled false
  | .settled _, ⟨.resetProvider, .ok _⟩ => .settled true
  | .settled _, ⟨.resetProvider, .error _⟩ => .settled false
  | _, ⟨.publish .activeSession, _⟩ => .attached
  | _, ⟨.store .runtimeExecuting _, _⟩ => .left
  | stage, _ => stage

def Allows (stage : Stage) : AgentOp → Prop
  | .resetProvider => stage = .untouched ∨ stage = .attached ∨ stage.Settled
  | .store .cancelled false => stage = .clean
  | .publish .activeSession => stage = .clean
  | .publish .activeCancel => stage = .attached
  | .modelCapabilities _ => stage = .untouched
  | .trimHistory _ => stage = .attached
  | .startTurn _ => stage = .attached
  | .continueTurn _ => stage = .attached
  | .store .runtimeExecuting _ => stage = .untouched ∨ stage.Settled
  | _ => True

end Stage

/-! ## The parts of an execution -/

section Parts

variable {Locals Value : Type} {stage : Stage}

/-- An action that leaves the stage as it found it. -/
abbrev Keeps (stage : Stage) (action : Action agents Locals Value) : Prop :=
  Action.Keeps Stage.after Stage.Allows stage action

variable {bindings : List NativeBinding}
  {registry : ToolRegistry agents PermissionOutcome}
  {apiKey model : String} {attached text progress : Bool}

theorem prompt_keeps
    (native : OfNativeTools registry) (config : AgentConfig)
    (input : String) :
    Keeps .attached
      ((promptedSession apiKey model bindings attached config registry).prompt
        (hostCallbacks text progress) (some (flag .cancelled).load)
        input) := by
  intro locals
  refine (prompt_disciplined native config input locals
    ⟨False, False⟩).unnoticed ?_ ?_
  · rintro seen op ⟨inPrompt, _⟩
    cases op with
    | store name value => exact inPrompt.elim
    | publish name =>
        cases name with
        | activeProvider => trivial
        | _ => exact inPrompt.elim
    | modelCapabilities name => exact inPrompt.elim
    | resetProvider => exact inPrompt.elim
    | trimHistory bound => rfl
    | startTurn request => rfl
    | continueTurn request => rfl
    | _ => trivial
  · rintro seen op answer ⟨inPrompt, _⟩
    cases op with
    | store name value => exact inPrompt.elim
    | publish name =>
        cases name with
        | activeProvider => rfl
        | _ => exact inPrompt.elim
    | resetProvider => exact inPrompt.elim
    | _ => rfl

/-- A reset before the session is attached, and one behind it. -/
theorem reset_triple (resets : stage.Allows .resetProvider) :
    SessionTriple (monitored Stage.after) Stage.Allows (· = stage)
      (provided (Action.ofHost (ask .resetProvider)))
      fun outcome => (· = stage.after ⟨.resetProvider, outcome⟩) := by
  refine provided_at .resetProvider trivial (by cases stage <;> rfl) resets
    (fun _ => trivial) ?_
  rintro (failure | ⟨⟩) <;> cases stage <;> rfl

/-- Detaching the session does not change the stage. -/
theorem detach_triple :
    SessionTriple (monitored Stage.after) Stage.Allows (· = stage)
      (assigned Pointer.clear) (Returning fun _ => (· = stage)) := by
  refine triple_assigned_at stage stage stage trivial ?_ trivial ?_ trivial ?_
    trivial ?_ <;> cases stage <;> first | rfl | exact fun _ => rfl

end Parts

/-! ## Whole executions -/

/-- Where an execution may open the gate again. -/
def Stage.Ended (stage : Stage) : Prop :=
  stage = .untouched ∨ stage.Settled

/-- The session of the execution is attached, or it was before. -/
def Stage.Used (stage : Stage) : Prop :=
  stage = .attached ∨ stage.Settled

/-- The stage of an execution at a point. -/
def At : Point → Stage → Prop
  | .emptied, stage => stage = .clean
  | .flagged, stage => stage = .clean
  | .lowered, stage => stage = .clean
  | .attached, stage => stage = .attached
  | .prompted, stage => stage.Used
  | .detached, stage => stage.Used
  | .finished, stage => stage.Settled
  | .closing, stage => stage.Ended
  | .closed, stage => stage.Ended
  | .released, _ => True
  | _, stage => stage = .untouched

section Whole

variable {bindings : List NativeBinding} {apiKey model : String}
  {attached text progress : Bool}

/-- Whatever the provider answers, a reset behind the prompt settles. -/
theorem Stage.Used.settles
    {stage : Stage} (used : stage.Used)
    (answer : agents.Answer AgentOp.resetProvider) :
    (stage.after ⟨.resetProvider, answer⟩).Settled := by
  rcases used with rfl | ⟨emptied, rfl⟩
  · cases answer with
    | ok value => exact ⟨true, rfl⟩
    | error failure => exact ⟨false, rfl⟩
  · cases answer with
    | ok value => exact ⟨true, rfl⟩
    | error failure => exact ⟨false, rfl⟩

/-- An execution keeps to its stages at every point. -/
theorem execution_outline
    (hasProvider : Bool) (json : JsonText) (context : AgentContext) :
    ExecutionOutline (monitored Stage.after) Stage.Allows hasProvider apiKey
      model bindings json context text progress attached At where
  claims := step_at trivial (by rintro (_ | _) <;> rfl)
  refuses _ untouched := Or.inl untouched
  opens := step_at trivial fun _ => rfl
  asks := by
    refine provided_at (.modelCapabilities model) trivial rfl rfl
      (fun _ => trivial) ?_
    rintro (failure | capabilities)
    · exact Or.inl rfl
    · rfl
  incompatible _ untouched := Or.inl untouched
  empties := by
    apply (reset_triple (Or.inl rfl)).imp
    rintro (failure | ⟨⟩) stage rfl
    · exact Or.inr ⟨false, rfl⟩
    · rfl
  flags := step_at trivial fun _ => rfl
  lowers := step_at rfl fun _ => rfl
  attaches :=
    triple_assigned_at .clean .attached .attached trivial rfl rfl
      (fun _ => rfl) rfl (fun _ => rfl) trivial rfl
  prompts accepted registry input exposed serialized := by
    apply (triple_of_keeps
      (prompt_keeps (ofNativeTools_exposed exposed) _ input)).imp
    exact fun _ _ found => Or.inl found
  unprompted _ found := Or.inl found
  detaches := by
    intro locals stage used
    apply (detach_triple locals stage rfl).imp
    rintro (failure | ⟨⟩) locals after reached
    · exact reached.elim
    · cases reached
      exact used
  resets := by
    intro locals stage used
    apply (reset_triple (Or.inr used) locals stage rfl).imp
    rintro outcome locals after rfl
    exact used.settles outcome
  again _ settled := Or.inr settled
  checks := step_monitored (fun _ _ => trivial)
    (by rintro _ answer ⟨emptied, rfl⟩; exact ⟨emptied, rfl⟩)
  unflags := step_monitored (fun _ _ => trivial)
    (by rintro _ answer ⟨emptied, rfl⟩; exact Or.inr ⟨emptied, rfl⟩)
  closes := step_monitored (fun _ _ => trivial) (by
    rintro _ answer (rfl | ⟨emptied, rfl⟩)
    · exact Or.inl rfl
    · exact Or.inr ⟨emptied, rfl⟩)
  releases := step_monitored (fun _ ended => ended) fun _ _ _ => trivial

theorem execute_holds
    (hasProvider : Bool) (json : JsonText) (context : AgentContext) :
    Action.Holds (monitored Stage.after) Stage.Allows
      (fun _ _ _ => True)
      ((anyRuntime hasProvider apiKey model bindings).execute json context
        (hostCallbacks text progress) (hostHandler attached)) ()
      .untouched := by
  apply ((execution_outline hasProvider json context).execute () _ rfl).imp
  exact fun _ _ _ _ => trivial

/-- Every call of a runtime keeps to its stages. -/
theorem body_staged
    (hasProvider : Bool) (apiKey model : String)
    (bindings : List NativeBinding) (call : RuntimeCall) :
    (body hasProvider apiKey model bindings call).Holds
      (monitored Stage.after) Stage.Allows (fun _ _ => True) .untouched := by
  cases call with
  | execute json context text progress attached =>
      apply Program.Holds.bind_of (execute_holds hasProvider json context)
      exact fun _ _ _ => trivial
  | cancel =>
      apply cancel_holds Stage.untouched
      intro stage op cancelling
      cases op with
      | store name value =>
          cases name <;> cases value <;>
            first
            | exact cancelling.elim
            | trivial
      | resetProvider => exact cancelling.elim
      | publish name => exact cancelling.elim
      | modelCapabilities name => exact cancelling.elim
      | trimHistory bound => exact cancelling.elim
      | startTurn request => exact cancelling.elim
      | continueTurn request => exact cancelling.elim
      | _ => trivial

end Whole

/-! ## Once the session was attached -/

/-- The session of the call has been attached. -/
def Stage.Later (stage : Stage) : Prop :=
  stage ≠ .untouched ∧ stage ≠ .clean

/-- No event undoes the attachment. -/
theorem Stage.Later.after
    {stage : Stage} (later : stage.Later) (event : AgentEvent) :
    (stage.after event).Later := by
  obtain ⟨op, answer⟩ := event
  cases stage with
  | untouched => exact absurd rfl later.1
  | clean => exact absurd rfl later.2
  | left =>
      cases op with
      | publish name => cases name <;> exact ⟨nofun, nofun⟩
      | store name value => cases name <;> exact ⟨nofun, nofun⟩
      | _ => exact ⟨nofun, nofun⟩
  | attached =>
      cases op with
      | publish name => cases name <;> exact ⟨nofun, nofun⟩
      | store name value => cases name <;> exact ⟨nofun, nofun⟩
      | resetProvider => cases answer <;> exact ⟨nofun, nofun⟩
      | _ => exact ⟨nofun, nofun⟩
  | settled emptied =>
      cases op with
      | publish name => cases name <;> exact ⟨nofun, nofun⟩
      | store name value => cases name <;> exact ⟨nofun, nofun⟩
      | resetProvider => cases answer <;> exact ⟨nofun, nofun⟩
      | _ => exact ⟨nofun, nofun⟩

theorem Stage.Later.foldl
    {stage : Stage} (later : stage.Later) (history : List AgentEvent) :
    (history.foldl Stage.after stage).Later := by
  induction history generalizing stage with
  | nil => exact later
  | cons event rest induction => exact induction (later.after event)

/-- A history that attached the session has come to a later stage. -/
theorem later_of_published
    {hasProvider : Bool} {apiKey model : String}
    {bindings : List NativeBinding} {call : RuntimeCall}
    {history : List AgentEvent} {rest : Program agents RuntimeReturn}
    (run : (body hasProvider apiKey model bindings call).Runs history rest)
    (published : ⟨.publish .activeCancel, ()⟩ ∈ history) :
    (history.foldl Stage.after .untouched).Later := by
  obtain ⟨before, since, rfl⟩ := List.append_of_mem published
  have staged :=
    ((body_staged hasProvider apiKey model bindings call).runs run).1
      before _ since rfl
  rw [List.foldl_append, List.foldl_cons]
  apply Stage.Later.foldl
  have atStage : before.foldl Stage.after .untouched = .attached := staged
  rw [atStage]
  exact ⟨nofun, nofun⟩

end ArnCore.Agent.RuntimeStages
