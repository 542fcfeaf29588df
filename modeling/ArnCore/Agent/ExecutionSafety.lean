import ArnCore.Agent.ExecutionCourse
import ArnCore.Agent.TracedSession

/-!
# What an execution does outside its prompt

Apart from its prompt an execution only touches the shared memory, asks for
the capabilities of the model and resets the provider.  A condition on single
operations is therefore verified for every call of a runtime once it is
verified for the prompts of the exposed tools.
-/

namespace ArnCore.Agent.ExecutionSafety

open ArnCore.Interaction
open ArnCore.Provider
open ArnCore.Tool
open ArnCore.Agent.Environment
open ArnCore.Agent.EnvironmentSteps
open ArnCore.Agent.ExposedTools
open ArnCore.Agent.RuntimeOutline
open ArnCore.Agent.RuntimeProtocol
open ArnCore.Agent.TracedSession

/-- What a cancellation does. -/
def Cancelling : AgentOp → Prop
  | .lock _ => True
  | .unlock _ => True
  | .present _ => True
  | .store .cancelled true => True
  | .cancelProvider => True
  | _ => False

section Cancellation

variable {State : Type} {world : World agents State}
  {allowed : State → AgentOp → Prop}

theorem always_safe {Locals : Type} (op : AgentOp)
    (permitted : ∀ state, allowed state op) :
    Action.Safe world allowed
      (Action.ofHost (always op) : Action agents Locals (agents.Answer op)) :=
  .ofHost fun state => ⟨permitted state, fun _ _ _ => trivial⟩

theorem cancel_safe
    {hasProvider : Bool} {apiKey model : String}
    {bindings : List NativeBinding}
    (cancels : ∀ state op, Cancelling op → allowed state op) :
    Action.Safe world allowed
      (anyRuntime hasProvider apiKey model bindings).cancelActiveRequest := by
  have guards : ∀ (name : MutexName)
      (body : Action agents PermissionOutcome Unit),
      Action.Safe world allowed body →
        Action.Safe world allowed ((mutex name).guarded body) := by
    intro name body runs
    apply Mutex.guarded_safe _ runs
    · exact always_safe (.unlock name) fun state => cancels state _ trivial
    · exact always_safe (.lock name) fun state => cancels state _ trivial
  apply guards .runtime
  apply Action.Safe.bind
  · exact always_safe (.present .activeSession)
      fun state => cancels state _ trivial
  · intro active
    split_ifs
    · apply Action.Safe.bind
      · exact always_safe (.store .cancelled true)
          fun state => cancels state _ trivial
      · intro stored
        apply Action.Safe.bind
        · exact always_safe (.present .activeProvider)
            fun state => cancels state _ trivial
        · intro attachedProvider
          cases hasProvider with
          | false =>
              split_ifs
              · exact .pure ()
              · exact guards .session _ (.pure ())
          | true =>
              have stops : Action.Safe world allowed
                  (Action.ofHost (ask AgentOp.cancelProvider) :
                    Action agents PermissionOutcome Unit) :=
                .ofHost fun state => ⟨cancels state .cancelProvider trivial,
                  fun _ _ _ => trivial⟩
              split_ifs
              · exact stops
              · exact guards .session _ stops
    · exact .pure ()

/-- A call of `cancel_active_request` only cancels. -/
theorem cancel_holds
    {hasProvider : Bool} {apiKey model : String}
    {bindings : List NativeBinding} (state : State)
    (cancels : ∀ state op, Cancelling op → allowed state op) :
    (body hasProvider apiKey model bindings .cancel).Holds world allowed
      (fun _ _ => True) state :=
  Program.Holds.bind_of (cancel_safe cancels {} state) fun _ _ _ => trivial

end Cancellation

section Safety

variable {State : Type} {world : World agents State}
  {allowed : State → AgentOp → Prop}

/-- The prompts an execution may come to. -/
def Prompts (hasProvider : Bool) (apiKey model : String)
    (bindings : List NativeBinding) (json : JsonText)
    (context : AgentContext) (text progress attached : Bool)
    (world : World agents State) (allowed : State → AgentOp → Prop) : Prop :=
  ∀ exposed input,
    exposeTools context.profile context.task.constraints
        (anyRuntime hasProvider apiKey model bindings).tools [] {} =
      some (registryOf PermissionOutcome exposed) →
    json.dump (promptJson context) = .ok input →
      Action.Safe world allowed
        ((promptedSession apiKey model bindings attached
          (sessionConfig context)
          (registryOf PermissionOutcome exposed)).prompt
            (hostCallbacks text progress) (callerFlag true) input)

variable {apiKey model : String} {bindings : List NativeBinding}
  {text progress attached : Bool}
  (outside : ∀ state op, Outside op → allowed state op)

include outside

/-- An execution is safe when its prompts are. -/
theorem execute_safe
    {Locals : Type} {hasProvider : Bool} {json : JsonText}
    {context : AgentContext}
    (prompts : Prompts hasProvider apiKey model bindings json context text
      progress attached world allowed) :
    Action.Safe world allowed
      ((anyRuntime hasProvider apiKey model bindings).execute json context
        (hostCallbacks text progress) (hostHandler attached) :
        Action agents Locals AgentResult) := by
  have steps : ∀ op, Outside op →
      Step world allowed (fun _ => True) op fun _ _ => True :=
    fun op isOutside state _ =>
      ⟨outside state op isOutside, fun _ _ _ => trivial⟩
  have outline : ExecutionOutline world allowed hasProvider apiKey model
      bindings json context text progress attached
      (uniform (fun _ => True) fun _ => True) := by
    apply uniform_outline steps steps fun _ known => known
    intro accepted registry input known serialized locals state start
    obtain ⟨exposed, rfl⟩ := exists_exposed known
    exact prompts exposed input known serialized locals state
  intro locals state
  exact (outline.execute locals state trivial).imp fun _ _ _ _ => trivial

/-- Every call of a runtime is safe when the prompts are. -/
theorem body_safe
    {hasProvider : Bool}
    (prompts : ∀ json context text progress attached,
      Prompts hasProvider apiKey model bindings json context text progress
        attached world allowed)
    (call : RuntimeCall) (state : State) :
    (body hasProvider apiKey model bindings call).Holds world allowed
      (fun _ _ => True) state := by
  cases call with
  | execute json context text progress attached =>
      apply Program.Holds.bind_of
        (execute_safe outside (prompts json context text progress attached)
          () state)
      exact fun _ _ _ => trivial
  | cancel =>
      apply cancel_holds state
      intro state op cancelling
      apply outside
      cases op with
      | startTurn request => exact cancelling.elim
      | continueTurn request => exact cancelling.elim
      | trimHistory bound => exact cancelling.elim
      | onText delta => exact cancelling.elim
      | onProgress message => exact cancelling.elim
      | confirm request => exact cancelling.elim
      | enterTool name arguments => exact cancelling.elim
      | _ => trivial

end Safety

/-! ## Conditions that only the prompt changes -/

section Leading

variable {State : Type} {observe : State → AgentEvent → State}
  {allowed : State → AgentOp → Prop} {idle done : State → Prop}

/--
What an execution does outside its prompt is allowed and keeps both conditions,
and an execution without a prompt ends well.
-/
structure Unaffected (observe : State → AgentEvent → State)
    (allowed : State → AgentOp → Prop) (idle done : State → Prop) : Prop where
  permits : ∀ state op, Outside op → idle state ∨ done state → allowed state op
  keepsIdle : ∀ state event, Outside event.op → idle state →
    idle (observe state event)
  keepsDone : ∀ state event, Outside event.op → done state →
    done (observe state event)
  ends : ∀ state, idle state → done state

variable (unaffected : Unaffected observe allowed idle done)
include unaffected

/-- An execution leads where its prompts lead. -/
theorem Unaffected.execute
    {Locals : Type} {hasProvider : Bool} {json : JsonText}
    {context : AgentContext}
    {apiKey model : String} {bindings : List NativeBinding}
    {text progress attached : Bool}
    (prompts : Accepted context → ∀ exposed input,
      Action.Leads observe allowed idle done
        ((promptedSession apiKey model bindings attached
          (sessionConfig context)
          (registryOf PermissionOutcome exposed)).prompt
            (hostCallbacks text progress) (callerFlag true) input)) :
    Action.Leads observe allowed idle done
      ((anyRuntime hasProvider apiKey model bindings).execute json context
        (hostCallbacks text progress) (hostHandler attached) :
        Action agents Locals AgentResult) := by
  have outline : ExecutionOutline (monitored observe) allowed hasProvider
      apiKey model bindings json context text progress attached
      (uniform idle done) := by
    apply uniform_outline
    · exact fun op outside => step_monitored
        (fun state before =>
          unaffected.permits state op outside (Or.inl before))
        fun state answer => unaffected.keepsIdle state ⟨op, answer⟩ outside
    · exact fun op outside => step_monitored
        (fun state before =>
          unaffected.permits state op outside (Or.inr before))
        fun state answer => unaffected.keepsDone state ⟨op, answer⟩ outside
    · exact unaffected.ends
    · intro accepted registry input known _
      obtain ⟨exposed, rfl⟩ := exists_exposed known
      exact prompts accepted exposed input
  intro locals state start
  apply (outline.execute locals state start).imp
  rintro (failure | result) locals after ends
  · exact ends.elim
  · rcases ends with ⟨_, refused⟩ | released
    · exact unaffected.ends after refused
    · exact released

end Leading

end ArnCore.Agent.ExecutionSafety
