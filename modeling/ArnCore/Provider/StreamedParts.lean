import ArnCore.Provider.ProviderSession

/-!
# What streaming maintains

The parser of a turn sees the events that the decoder makes of a transfer.  A
condition on the parts that every such event maintains holds of the parts of
every turn, whatever the callbacks do and however often the request is tried.
-/

namespace ArnCore.Provider.StreamedParts

open ArnCore.Agent.Environment
open ArnCore.Interaction
open ArnCore.Interaction.Action
open ArnCore.Net
open ArnCore.Net.SseDecoder
open ArnCore.Provider.BuiltInTurn
open ArnCore.Provider.ChatStream
open ArnCore.Provider.LastRequest
open ArnCore.Provider.ProviderSession
open ArnCore.Tool

/-- The events a decoder makes of the body of a transfer. -/
def eventsOf (steps : List TransferStep) : List (List Char) :=
  let received := pushAll [] (chunksOf steps)
  received.1 ++ (finish received.2).1

/-- The events that are delivered of a transfer. -/
def deliveredOf : Transfer → List (List Char)
  | .failed _ => []
  | .broken status steps _ => if isSuccess status then eventsOf steps else []
  | .complete response steps =>
      if isSuccess response.status then eventsOf steps else []

section Chain

variable {permits : AgentEvent → Prop} {kept : TurnParts → Prop}
  {onEvent : String → Walk agents} {watch : Bool}

/-- The condition on the variables of a turn. -/
def Streams (kept : TurnParts → Prop) (streaming : Streaming TurnParts) :
    Prop :=
  kept streaming.parts

/-- Nothing is asked of the events. -/
abbrev Stays {Locals Value : Type} (permits : AgentEvent → Prop)
    (kept : Locals → Prop) (action : Action agents Locals Value) : Prop :=
  Maintains permits (fun _ => True) kept action

theorem stays_op
    {Locals Value : Type} {kept : Locals → Prop}
    (computation : Host agents Value) :
    Stays permits kept (ofHost computation : Action agents Locals Value) :=
  .ofHost fun _ _ _ _ _ => trivial

theorem stays_isSet
    {Locals : Type} {kept : Locals → Prop} :
    Stays permits kept
      (isSet (callerFlag watch) : Action agents Locals Bool) := by
  cases watch with
  | false => exact .pure false
  | true => exact stays_op _

theorem stays_notify
    {Locals : Type} {kept : Locals → Prop}
    (callback : Option (String → Host agents Unit)) (message : String) :
    Stays permits kept
      (notify callback message : Action agents Locals Unit) := by
  cases callback with
  | none => exact .pure ()
  | some callback => exact stays_op _

theorem stays_onParts
    {action : Walk agents} (acts : Stays permits kept action) :
    Stays permits (Streams kept) (onParts action) := by
  intro streaming holds history outcome after run permitted
  obtain ⟨parts, started, rfl⟩ := SingleAttempt.finishes_onParts.mp run
  exact acts streaming.parts holds started permitted

theorem stays_deliver
    {events : List (List Char)}
    (parses : ∀ event ∈ events, Stays permits kept
      (onEvent (String.ofList event))) :
    Stays permits (Streams kept) (deliver onEvent events) := by
  induction events with
  | nil => exact .pure ()
  | cons event events induction =>
      obtain ⟨first, rest⟩ := List.forall_mem_cons.mp parses
      refine .bind (.modify fun _ holds => holds) fun _ => ?_
      exact .bind (stays_onParts first) fun _ => induction rest

/-- Receiving a body delivers the events of its chunks. -/
theorem ensures_receive
    {status : Int} {steps : List TransferStep} {pending : List Char}
    {streaming : Streaming TurnParts}
    (parses : isSuccess status = true →
      ∀ event ∈ (pushAll pending (chunksOf steps)).1,
        Stays permits kept (onEvent (String.ofList event)))
    (holds : kept streaming.parts) :
    Ensures permits (fun _ => True)
      (fun outcome after => Streams kept after ∧
        ∀ rest, outcome = .ok (some rest) → isSuccess status = true →
          rest = (pushAll pending (chunksOf steps)).2)
      (receive onEvent (callerFlag watch) status steps pending) streaming := by
  induction steps generalizing pending streaming with
  | nil =>
      refine .pure ⟨holds, ?_⟩
      rintro rest ⟨⟩ -
      rfl
  | cons step steps induction =>
      cases step with
      | progress =>
          refine (stays_isSet streaming holds).bind
            (fun _ _ keeps => ⟨keeps, nofun⟩) ?_
          rintro (_ | _) after keeps
          · exact induction parses keeps
          · exact .pure ⟨keeps, nofun⟩
      | chunk data =>
          refine (stays_isSet streaming holds).bind
            (fun _ _ keeps => ⟨keeps, nofun⟩) ?_
          rintro (_ | _) after keeps
          · rw [if_neg Bool.false_ne_true]
            cases success : isSuccess status with
            | true =>
                rw [if_pos rfl]
                obtain ⟨first, later⟩ := List.forall_mem_append.mp
                  (parses success)
                refine (stays_deliver first after keeps).bind
                  (fun _ _ keeps => ⟨keeps, nofun⟩) ?_
                intro value delivered keeps
                exact (success ▸ induction) (fun _ => later) keeps
            | false =>
                rw [if_neg Bool.false_ne_true]
                have adds : Stays permits (Streams kept)
                    (modify fun streaming : Streaming TurnParts =>
                      { streaming with
                        errorBody :=
                          streaming.errorBody ++ String.ofList data }) :=
                  .modify fun _ keeps => keeps
                refine (adds after keeps).bind
                  (fun _ _ keeps => ⟨keeps, nofun⟩) ?_
                intro value added keeps
                refine (induction (fun impossible => ?_) keeps).imp ?_
                · rw [success] at impossible
                  cases impossible
                · exact fun _ _ both => ⟨both.1, fun _ _ => nofun⟩
          · exact .pure ⟨keeps, nofun⟩

theorem stays_absorb
    {transfer : Transfer}
    (parses : ∀ event ∈ deliveredOf transfer,
      Stays permits kept (onEvent (String.ofList event))) :
    Stays permits (Streams kept) (absorb onEvent (callerFlag watch) transfer) := by
  intro streaming holds
  cases transfer with
  | failed error => exact .pure holds
  | broken status steps error =>
      have received : isSuccess status = true →
          ∀ event ∈ (pushAll [] (chunksOf steps)).1,
            Stays permits kept (onEvent (String.ofList event)) := by
        intro success event member
        apply parses
        rw [deliveredOf, if_pos success]
        exact List.mem_append_left _ member
      refine (ensures_receive received holds).bind
        (fun _ _ keeps => keeps.1) ?_
      rintro (_ | pending) after ⟨keeps, -⟩
      · exact .pure keeps
      · exact .pure keeps
  | complete response steps =>
      have received : isSuccess response.status = true →
          ∀ event ∈ eventsOf steps,
            Stays permits kept (onEvent (String.ofList event)) := by
        intro success event member
        apply parses
        rw [deliveredOf, if_pos success]
        exact member
      refine (ensures_receive (fun success event member =>
        received success event (List.mem_append_left _ member)) holds).bind
        (fun _ _ keeps => keeps.1) ?_
      rintro (_ | pending) after ⟨keeps, rest⟩
      · exact .pure keeps
      have finishes : Stays permits (Streams kept)
          (if isSuccess response.status then
            deliver onEvent (SseDecoder.finish pending).1
          else
            pure () : Action agents (Streaming TurnParts) Unit) := by
        split_ifs with success
        · rw [rest pending rfl success]
          exact stays_deliver fun event member =>
            received success event (List.mem_append_right _ member)
        · exact .pure ()
      exact (finishes.bind fun _ => .pure _) after keeps

/-- Whatever a permitted transfer delivers maintains the condition. -/
def Delivers (permits : AgentEvent → Prop) (kept : TurnParts → Prop)
    (onEvent : String → Walk agents) : Prop :=
  ∀ request transfer, permits ⟨AgentOp.send request, transfer⟩ →
    ∀ event ∈ deliveredOf transfer,
      Stays permits kept (onEvent (String.ofList event))

theorem stays_turnRequest
    {json : JsonText} {path : String} {headers : List (String × String)}
    {payload : Json} (delivers : Delivers permits kept onEvent) :
    Stays permits (Streams kept)
      (turnRequest json network onEvent path headers payload
        (callerFlag watch)) := by
  refine .bind (.ofExcept _) fun body => .bind (.modify fun _ keeps => keeps)
    fun _ => ?_
  -- The transfer is absorbed where it is known to be permitted.
  intro streaming keeps history outcome after run permitted
  obtain ⟨transfer, later, rfl, absorbed⟩ := finishes_always_bind.mp run
  obtain ⟨sent, behind⟩ := List.forall_mem_cons.mp permitted
  obtain ⟨-, left⟩ :=
    stays_absorb (delivers _ _ sent) streaming keeps absorbed behind
  exact ⟨fun _ _ => trivial, left⟩

theorem stays_waitUntil
    {Locals : Type} {kept : Locals → Prop} (polls : Nat) :
    Stays permits kept
      (waitUntil (callerFlag watch) polls : Action agents Locals Bool) := by
  induction polls with
  | zero => exact .pure false
  | succ polls induction =>
      refine .bind stays_isSet fun stop => ?_
      cases stop with
      | true => exact .pure true
      | false => exact induction

theorem stays_retryDelay
    {Locals : Type} {kept : Locals → Prop} (response : HttpResult)
    (attempt : Nat) :
    Stays permits kept
      (retryDelay network response attempt : Action agents Locals Nat) := by
  unfold retryDelay
  cases retryAfterSeconds response with
  | some seconds => exact .pure _
  | none => exact .bind (stays_op _) fun jitter => .pure _

theorem stays_executeStreamWithRetry
    {request : Action agents (Streaming TurnParts) HttpResult}
    (requests : Stays permits (Streams kept) request)
    (onProgress : Option (String → Host agents Unit)) (maxAttempts : Int)
    (attempt : Nat) :
    Stays permits (Streams kept)
      (executeStreamWithRetry network (callerFlag watch) request onProgress
        maxAttempts attempt) := by
  induction remaining : (maxAttempts - attempt).toNat
    using Nat.strong_induction_on generalizing attempt with
  | _ remaining induction =>
      rw [executeStreamWithRetry]
      refine .bind (stays_notify _ _) fun _ => .bind requests fun response =>
        .bind .get fun streaming => .bind stays_isSet fun stop => ?_
      by_cases final :
          isFinal stop streaming response attempt maxAttempts = true
      · rw [dif_pos final]
        refine .bind ?_ fun _ => .pure _
        split_ifs
        · exact stays_notify _ _
        · exact .pure _
      · rw [dif_neg final]
        have less := attempt_lt_of_not_isFinal (Bool.eq_false_iff.mpr final)
        refine .bind (stays_retryDelay response attempt) fun delay =>
          .bind (stays_notify _ _) fun _ => .bind (stays_op _) fun remaining =>
            .bind (stays_waitUntil remaining) fun cancelled => ?_
        cases cancelled with
        | true => exact .pure _
        | false => exact induction _ (by omega) (attempt + 1) rfl

end Chain

/-- The parts of every turn satisfy what all delivered events maintain. -/
theorem kept_of_accumulates
    {permits : AgentEvent → Prop} {kept : TurnParts → Prop}
    {setup : SessionSetup} {text progress watch : Bool} {parts : TurnParts}
    (delivers : Delivers permits kept
      (setup.kind.parseStreamChunk setup.json (hostText text)))
    (starts : kept {})
    (accumulates : Accumulates permits setup text progress watch parts) :
    kept parts := by
  obtain ⟨path, headers, payload, locals, streamed, response, streaming, run,
    permitted, rfl⟩ := accumulates
  obtain ⟨-, final, body⟩ := finishes_withLocals.mp run
  obtain ⟨first, later, received, between, rfl, executed, returned⟩ :=
    finishes_bind_ok.mp body
  have left : Finishes
      (pure (received, between) : Action agents (Streaming TurnParts) _)
      between later (.ok (.ok response, streaming)) final :=
    finishes_get_bind.mp returned
  obtain ⟨-, same, -⟩ := finishes_pure.mp left
  cases same
  have stays : Stays permits (Streams kept)
      (executeStreamWithRetry network (callerFlag watch)
        (turnRequest setup.json network
          (setup.kind.parseStreamChunk setup.json (hostText text)) path
          headers payload (callerFlag watch))
        (hostCallbacks text progress).onProgress maxRequestAttempts 0) :=
    stays_executeStreamWithRetry (stays_turnRequest delivers) _ _ _
  exact (stays { parts := {} } starts executed
    (List.forall_mem_append.mp permitted).1).2

end ArnCore.Provider.StreamedParts
