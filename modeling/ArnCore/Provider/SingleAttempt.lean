import ArnCore.Agent.Environment

/-!
# One attempt of a streamed turn

An attempt sends one request and feeds the body of a 2xx response to the event
callback.  It either delivers an event, and then the turn knows it, or leaves
the variables of the turn as they were but for the error body.

The event callback is arbitrary: it may perform any operation of the
environment, which is then visible in the history.
-/

namespace ArnCore.Provider.SingleAttempt

open ArnCore.Agent.Environment
open ArnCore.Interaction
open ArnCore.Net
open ArnCore.Tool

/-- The variables of a turn before its first attempt. -/
def fresh : Streaming TurnParts where
  parts := {}

/-- Whether the response of a transfer had a 2xx status. -/
def succeeded : Transfer → Bool
  | .failed _ => false
  | .broken status _ _ => isSuccess status
  | .complete response _ => isSuccess response.status

/-- A load of the cancellation flag. -/
def IsPoll (event : AgentEvent) : Prop :=
  event.op = .load .cancelled

/-- A load of the cancellation flag that found it set. -/
def FoundSet (event : AgentEvent) : Prop :=
  event = ⟨AgentOp.load .cancelled, true⟩

/--
Nothing was delivered between two states of the variables: there are only loads
of the flag, and only the error body may have changed.
-/
structure Undelivered (before : Streaming TurnParts)
    (events : List AgentEvent) (after : Streaming TurnParts) : Prop where
  polls : ∀ event ∈ events, IsPoll event
  parts : after.parts = before.parts
  receivedEvent : after.receivedEvent = before.receivedEvent

namespace Undelivered

protected theorem refl (streaming : Streaming TurnParts) :
    Undelivered streaming [] streaming :=
  ⟨by simp, rfl, rfl⟩

protected theorem trans
    {before between after : Streaming TurnParts}
    {first later : List AgentEvent}
    (start : Undelivered before first between)
    (rest : Undelivered between later after) :
    Undelivered before (first ++ later) after where
  polls := List.forall_mem_append.mpr ⟨start.polls, rest.polls⟩
  parts := rest.parts.trans start.parts
  receivedEvent := rest.receivedEvent.trans start.receivedEvent

end Undelivered

/--
Either nothing was delivered, or the response was successful and the turn knows
that an event was delivered.
-/
def Delivers (success : Bool) (before : Streaming TurnParts)
    (events : List AgentEvent) (after : Streaming TurnParts) : Prop :=
  Undelivered before events after ∨
    success = true ∧ after.receivedEvent = true

theorem Delivers.trans
    {success : Bool} {before between after : Streaming TurnParts}
    {first later : List AgentEvent}
    (start : Delivers success before first between)
    (rest : Delivers success between later after) :
    Delivers success before (first ++ later) after := by
  rcases rest with quiet | delivered
  · rcases start with silent | ⟨success, received⟩
    · exact Or.inl (silent.trans quiet)
    · exact Or.inr ⟨success, quiet.receivedEvent.trans received⟩
  · exact Or.inr delivered

/-! ## Single operations -/

section Operations

variable {Locals : Type} {locals after : Locals}
  {history : List AgentEvent}

theorem finishes_isSet {watch : Bool} {outcome : Except Exception Bool}
    (run : Action.Finishes (isSet (callerFlag watch)) locals history outcome
      after) :
    after = locals ∧ ∃ stop, outcome = .ok stop ∧
      history =
        if watch then [⟨AgentOp.load .cancelled, stop⟩] else [] := by
  cases watch with
  | false =>
      obtain ⟨rfl, rfl, rfl⟩ := Action.finishes_pure.mp run
      exact ⟨rfl, false, rfl, rfl⟩
  | true =>
      obtain ⟨stop, rfl, rfl, rfl⟩ := finishes_always.mp run
      exact ⟨rfl, stop, rfl, rfl⟩

/-- A check of the flag never throws, so that the rest goes on behind it. -/
theorem finishes_isSet_bind
    {watch : Bool} {Value : Type}
    {continuation : Bool → Action agents Locals Value}
    {outcome : Except Exception Value} :
    Action.Finishes (isSet (callerFlag watch) >>= continuation) locals history
        outcome after ↔
      ∃ first later stop between, history = first ++ later ∧
        Action.Finishes (isSet (callerFlag watch)) locals first (.ok stop)
          between ∧
        Action.Finishes (continuation stop) between later outcome after := by
  apply Action.finishes_bind_of_returns
  intro first failure between thrown
  obtain ⟨-, stop, impossible, -⟩ := finishes_isSet thrown
  cases impossible

/-- Every event of a check is a load of the flag. -/
theorem isPoll_of_check {watch stop : Bool} :
    ∀ event ∈
      (if watch then [⟨AgentOp.load .cancelled, stop⟩] else
        ([] : List AgentEvent)), IsPoll event := by
  intro event member
  cases watch with
  | false => cases member
  | true =>
      cases List.mem_singleton.mp member
      rfl

/-- A check that found the flag clear. -/
theorem not_foundSet_of_check {watch : Bool} :
    ∀ event ∈
      (if watch then [⟨AgentOp.load .cancelled, false⟩] else
        ([] : List AgentEvent)), ¬ FoundSet event := by
  intro event member
  cases watch with
  | false => cases member
  | true =>
      cases List.mem_singleton.mp member
      intro set
      cases set

/-- An action of the parser changes the parts of the turn only. -/
theorem finishes_onParts {Parts Value : Type}
    {action : Action agents Parts Value}
    {before after : Streaming Parts}
    {outcome : Except Exception Value} :
    Action.Finishes (onParts action) before history outcome after ↔
      ∃ parts, Action.Finishes action before.parts history outcome parts ∧
        after = { before with parts := parts } := by
  unfold Action.Finishes onParts
  change Program.Finishes (action.run.run before.parts >>= fun left =>
    .done (left.1, { before with parts := left.2 })) history _ ↔ _
  rw [Program.finishes_bind_iff]
  constructor
  · rintro ⟨first, later, value, rfl, started, rfl, same⟩
    cases same
    rw [List.append_nil]
    exact ⟨value.2, started, rfl⟩
  · rintro ⟨parts, started, rfl⟩
    exact ⟨history, [], (outcome, parts), (List.append_nil _).symm, started,
      rfl, rfl⟩

end Operations

/-! ## Delivery -/

section Delivery

variable {onEvent : String → Walk agents} {watch : Bool}
  {before after : Streaming TurnParts} {history : List AgentEvent}

/-- The turn knows of every event that was delivered. -/
theorem finishes_deliver
    {events : List (List Char)} {outcome : Except Exception Unit}
    (run : Action.Finishes (deliver onEvent events) before history outcome
      after) :
    (history = [] ∧ after = before ∧ outcome = .ok ()) ∨
      after.receivedEvent = true := by
  induction events generalizing before history with
  | nil =>
      obtain ⟨rfl, rfl, rfl⟩ := Action.finishes_pure.mp run
      exact Or.inl ⟨rfl, rfl, rfl⟩
  | cons event events induction =>
      have marked := Action.finishes_modify_bind.mp run
      rcases Action.finishes_bind.mp marked with
        ⟨failure, -, thrown⟩ | ⟨first, later, value, between, -, shown, rest⟩
      · obtain ⟨parts, -, rfl⟩ := finishes_onParts.mp thrown
        exact Or.inr rfl
      · obtain ⟨parts, -, rfl⟩ := finishes_onParts.mp shown
        rcases induction rest with ⟨-, rfl, -⟩ | received
        · exact Or.inr rfl
        · exact Or.inr received

/-- Delivering is delivering from a successful response. -/
theorem deliver_delivers
    {events : List (List Char)} {outcome : Except Exception Unit}
    (run : Action.Finishes (deliver onEvent events) before history outcome
      after) :
    Delivers true before history after := by
  rcases finishes_deliver run with ⟨rfl, rfl, -⟩ | received
  · exact Or.inl (.refl _)
  · exact Or.inr ⟨rfl, received⟩

/-- A check of the flag delivers nothing, and the rest goes on behind it. -/
theorem isSet_bind_delivers
    {Value : Type} {success : Bool}
    {continuation : Bool → Action agents (Streaming TurnParts) Value}
    {outcome : Except Exception Value}
    (rest : ∀ stop history,
      Action.Finishes (continuation stop) before history outcome after →
        Delivers success before history after)
    (run : Action.Finishes (isSet (callerFlag watch) >>= continuation) before
      history outcome after) :
    Delivers success before history after := by
  obtain ⟨first, later, stop, between, rfl, checked, continued⟩ :=
    finishes_isSet_bind.mp run
  obtain ⟨rfl, found, -, rfl⟩ := finishes_isSet checked
  exact Delivers.trans (Or.inl ⟨isPoll_of_check, rfl, rfl⟩)
    (rest stop later continued)

theorem receive_delivers
    {status : Int} {steps : List TransferStep} {pending : List Char}
    {outcome : Except Exception (Option (List Char))}
    (run : Action.Finishes
      (receive onEvent (callerFlag watch) status steps pending) before history
      outcome after) :
    Delivers (isSuccess status) before history after := by
  induction steps generalizing before history pending with
  | nil =>
      obtain ⟨rfl, -, rfl⟩ := Action.finishes_pure.mp run
      exact Or.inl (.refl _)
  | cons step steps induction =>
      cases step with
      | progress =>
          refine isSet_bind_delivers ?_ run
          intro stop history run
          cases stop with
          | true =>
              obtain ⟨rfl, -, rfl⟩ := Action.finishes_pure.mp run
              exact Or.inl (.refl _)
          | false => exact induction run
      | chunk data =>
          refine isSet_bind_delivers ?_ run
          intro stop history run
          cases stop with
          | true =>
              obtain ⟨rfl, -, rfl⟩ := Action.finishes_pure.mp run
              exact Or.inl (.refl _)
          | false =>
              cases success : isSuccess status with
              | true =>
                  simp only [success, Bool.false_eq_true, if_false, if_true]
                    at run
                  rw [success] at induction
                  rcases Action.finishes_bind.mp run with
                    ⟨failure, -, thrown⟩ |
                    ⟨first, later, value, between, rfl, shown, rest⟩
                  · exact deliver_delivers thrown
                  · exact (deliver_delivers shown).trans (induction rest)
              | false =>
                  simp only [success, Bool.false_eq_true, if_false] at run
                  rw [success] at induction
                  have appended : Undelivered before []
                      { before with
                        errorBody :=
                          before.errorBody ++ String.ofList data } :=
                    ⟨by simp, rfl, rfl⟩
                  exact Delivers.trans (Or.inl appended)
                    (induction (Action.finishes_modify_bind.mp run))

end Delivery

/-! ## One attempt -/

section Request

variable (json : JsonText) (onEvent : String → Walk agents) (path : String)
  (headers : List (String × String)) (payload : Json) (watch : Bool)

/-- One attempt of the turn. -/
def attemptRequest : Action agents (Streaming TurnParts) HttpResult :=
  turnRequest json network onEvent path headers payload (callerFlag watch)

/--
A finished attempt: it either could not serialize its payload, or it sent one
request and delivered events only from a 2xx response.
-/
structure SingleRequest (events : List AgentEvent)
    (outcome : Except Exception HttpResult)
    (streaming : Streaming TurnParts) : Prop where
  finishes : Action.Finishes
    (attemptRequest json onEvent path headers payload watch) fresh events
    outcome streaming
  transfer :
    (events = [] ∧ ∃ failure, outcome = .error failure) ∨
      ∃ request transfer received,
        events = ⟨AgentOp.send request, transfer⟩ :: received ∧
          Delivers (succeeded transfer) fresh received streaming

variable {json onEvent path headers payload watch}
  {before after : Streaming TurnParts} {history : List AgentEvent}
  {outcome : Except Exception HttpResult}

/-- A sequence delivers like its parts. -/
theorem bind_delivers
    {Value Result : Type} {success : Bool}
    {action : Action agents (Streaming TurnParts) Value}
    {continuation : Value → Action agents (Streaming TurnParts) Result}
    {outcome : Except Exception Result}
    (started : ∀ {history outcome between},
      Action.Finishes action before history outcome between →
        Delivers success before history between)
    (rest : ∀ {between history} value,
      Action.Finishes (continuation value) between history outcome after →
        Delivers success between history after)
    (run : Action.Finishes (action >>= continuation) before history outcome
      after) :
    Delivers success before history after := by
  rcases Action.finishes_bind.mp run with
    ⟨failure, -, thrown⟩ |
    ⟨first, later, value, between, rfl, finished, continued⟩
  · exact started thrown
  · exact (started finished).trans (rest value continued)

theorem pure_delivers
    {Value : Type} {success : Bool} {value : Value}
    {outcome : Except Exception Value}
    (run : Action.Finishes (pure value) before history outcome after) :
    Delivers success before history after := by
  obtain ⟨rfl, -, rfl⟩ := Action.finishes_pure.mp run
  exact Or.inl (.refl _)

/-- An attempt delivers events of a successful transfer only. -/
theorem absorb_delivers
    {transfer : Transfer}
    (run : Action.Finishes (absorb onEvent (callerFlag watch) transfer) before
      history outcome after) :
    Delivers (succeeded transfer) before history after := by
  cases transfer with
  | failed error => exact pure_delivers run
  | broken status steps error =>
      refine bind_delivers receive_delivers ?_ run
      intro between history received run
      cases received with
      | none => exact pure_delivers run
      | some pending => exact pure_delivers run
  | complete response steps =>
      refine bind_delivers receive_delivers ?_ run
      intro between history received run
      cases received with
      | none => exact pure_delivers run
      | some pending =>
          refine bind_delivers ?_ (fun _ => pure_delivers) run
          intro history outcome after run
          cases success : isSuccess response.status with
          | true =>
              rw [success, if_pos rfl] at run
              rw [succeeded, success]
              exact deliver_delivers run
          | false =>
              rw [success, if_neg Bool.false_ne_true] at run
              exact pure_delivers run

/-- An attempt serializes its payload, sends one request and absorbs it. -/
theorem finishes_attemptRequest
    (run : Action.Finishes
      (attemptRequest json onEvent path headers payload watch) before history
      outcome after) :
    (history = [] ∧ ∃ failure, outcome = .error failure) ∨
      ∃ request transfer received,
        history = ⟨AgentOp.send request, transfer⟩ :: received ∧
          Action.Finishes (absorb onEvent (callerFlag watch) transfer)
            { before with errorBody := "" } received outcome after := by
  rcases Action.finishes_bind.mp run with
    ⟨failure, rfl, thrown⟩ |
    ⟨first, sent, body, between, rfl, dumped, posted⟩
  · obtain ⟨rfl, -, -⟩ := Action.finishes_ofExcept.mp thrown
    exact Or.inl ⟨rfl, failure, rfl⟩
  · obtain ⟨rfl, -, rfl⟩ := Action.finishes_ofExcept.mp dumped
    have cleared := Action.finishes_modify_bind.mp posted
    obtain ⟨transfer, received, rfl, transferred⟩ :=
      finishes_always_bind.mp cleared
    exact Or.inr ⟨_, transfer, received, rfl, transferred⟩

/-- What an attempt does once the transfer is known. -/
theorem attemptRequest_delivers
    (run : Action.Finishes
      (attemptRequest json onEvent path headers payload watch) before history
      outcome after) :
    (history = [] ∧ ∃ failure, outcome = .error failure) ∨
      ∃ request transfer received,
        history = ⟨AgentOp.send request, transfer⟩ :: received ∧
          Delivers (succeeded transfer) before received after := by
  rcases finishes_attemptRequest run with
    failed | ⟨request, transfer, received, rfl, absorbed⟩
  · exact Or.inl failed
  · have emptied : Undelivered before [] { before with errorBody := "" } :=
      ⟨by simp, rfl, rfl⟩
    exact Or.inr ⟨request, transfer, received, rfl,
      Delivers.trans (Or.inl emptied) (absorb_delivers absorbed)⟩

/-- An attempt without a delivered event only transferred an error. -/
theorem SingleRequest.undelivered_of_unreceived
    {response : HttpResult} {streaming : Streaming TurnParts}
    (single : SingleRequest json onEvent path headers payload watch history
      (.ok response) streaming)
    (unreceived : streaming.receivedEvent = false) :
    ∃ request transfer polls,
      history = ⟨AgentOp.send request, transfer⟩ :: polls ∧
        Undelivered fresh polls streaming := by
  rcases single.transfer with
    ⟨-, failure, impossible⟩ | ⟨request, transfer, polls, split, delivers⟩
  · cases impossible
  · rcases delivers with quiet | ⟨-, received⟩
    · exact ⟨request, transfer, polls, split, quiet⟩
    · rw [unreceived] at received
      cases received

/-- An attempt starts by clearing the error body of the attempt before. -/
theorem run_attemptRequest_of_errorBody
    {body : String} (serialized : json.dump payload = .ok body)
    (errorBody : String) :
    (attemptRequest json onEvent path headers payload watch).run.run before =
      (attemptRequest json onEvent path headers payload watch).run.run
        { before with errorBody := errorBody } := by
  unfold attemptRequest turnRequest
  rw [serialized]
  rfl

/--
Where the variables differ from fresh ones only in the error body, an attempt
is an attempt on fresh variables.
-/
theorem singleRequest_of_finishes
    (parts : before.parts = {}) (unreceived : before.receivedEvent = false)
    (run : Action.Finishes
      (attemptRequest json onEvent path headers payload watch) before history
      outcome after) :
    ∃ streaming,
      SingleRequest json onEvent path headers payload watch history outcome
        streaming ∧
      ∀ response, outcome = .ok response → after = streaming := by
  have renewed : fresh = { before with errorBody := "" } := by
    rcases before with ⟨beforeParts, errorBody, receivedEvent⟩
    simp only at parts unreceived
    rw [parts, unreceived]
    rfl
  cases serialized : json.dump payload with
  | error failure =>
      rcases Action.finishes_bind.mp run with
        ⟨failure, rfl, thrown⟩ | ⟨first, later, body, between, -, dumped, -⟩
      · obtain ⟨rfl, same, -⟩ := Action.finishes_ofExcept.mp thrown
        refine ⟨fresh, ⟨?_, Or.inl ⟨rfl, failure, rfl⟩⟩, by simp⟩
        exact Action.finishes_bind.mpr
          (Or.inl ⟨failure, rfl, Action.finishes_ofExcept.mpr
            ⟨rfl, same, rfl⟩⟩)
      · obtain ⟨-, same, -⟩ := Action.finishes_ofExcept.mp dumped
        rw [serialized] at same
        cases same
  | ok body =>
      unfold Action.Finishes at run
      rw [run_attemptRequest_of_errorBody serialized "", ← renewed] at run
      exact ⟨after, ⟨run, attemptRequest_delivers run⟩, fun _ _ => rfl⟩

end Request

end ArnCore.Provider.SingleAttempt
