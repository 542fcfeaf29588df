import ArnCore.Provider.BuiltInTurn

/-!
# The last request of a turn

A complete 2xx response is never repeated.  Where it answered the last request
of a turn, the turn is decided by how that response was received: it is read,
an exception left the callback, or the flag was found set on the way.
-/

namespace ArnCore.Provider.LastRequest

open ArnCore.Agent.Environment
open ArnCore.Interaction
open ArnCore.Net
open ArnCore.Provider.BuiltInTurn
open ArnCore.Provider.RetriedTurn
open ArnCore.Provider.SingleAttempt
open ArnCore.Provider.StreamedCalls
open ArnCore.Tool

/-- An event that sends a request. -/
def IsSend (event : AgentEvent) : Prop :=
  ∃ request, event.op = .send request

theorem isSend_iff
    {event : AgentEvent} :
    IsSend event ↔ (event.op matches .send _) = true := by
  constructor
  · rintro ⟨request, same⟩
    rw [same]
  · intro sends
    obtain ⟨op, answer⟩ := event
    cases op with
    | send request => exact ⟨request, rfl⟩
    | _ => cases sends

instance (event : AgentEvent) : Decidable (IsSend event) :=
  decidable_of_iff' _ isSend_iff

/-- The last request of a history, its answer and what happened after it. -/
structure LastAnswer (history : List AgentEvent) (transfer : Transfer)
    (later : List AgentEvent) : Prop where
  split : ∃ before request,
    history = before ++ ⟨AgentOp.send request, transfer⟩ :: later
  last : ∀ event ∈ later, ¬ IsSend event

namespace LastAnswer

variable {first second later : List AgentEvent} {transfer : Transfer}

/-- A history without a request has no last one. -/
theorem not_of_silent
    (silent : ∀ event ∈ first, ¬ IsSend event) :
    ¬ LastAnswer first transfer later := by
  rintro ⟨⟨before, request, rfl⟩, -⟩
  exact silent ⟨AgentOp.send request, transfer⟩ (by simp) ⟨request, rfl⟩

/-- The last request of two histories is in the second one, if it has one. -/
theorem of_append (answer : LastAnswer (first ++ second) transfer later) :
    LastAnswer second transfer later ∨
      ∃ kept, later = kept ++ second ∧ LastAnswer first transfer kept := by
  obtain ⟨⟨before, request, split⟩, last⟩ := answer
  rcases List.append_eq_append_iff.mp split with
    ⟨between, rfl, same⟩ | ⟨between, rfl, same⟩
  · exact Or.inl ⟨⟨between, request, same⟩, last⟩
  · cases between with
    | nil => exact Or.inl ⟨⟨[], request, same.symm⟩, last⟩
    | cons event kept =>
        rw [List.cons_append, List.cons.injEq] at same
        obtain ⟨rfl, rfl⟩ := same
        refine Or.inr ⟨kept, rfl, ⟨before, request, rfl⟩, ?_⟩
        exact fun event member => last event (List.mem_append_left _ member)

/-- Behind the last request nothing is sent. -/
theorem of_append_silent
    (silent : ∀ event ∈ second, ¬ IsSend event)
    (answer : LastAnswer (first ++ second) transfer later) :
    ∃ kept, later = kept ++ second ∧ LastAnswer first transfer kept :=
  answer.of_append.resolve_left (not_of_silent silent)

/-- Before the last request nothing counts. -/
theorem of_silent_append
    (silent : ∀ event ∈ first, ¬ IsSend event)
    (answer : LastAnswer (first ++ second) transfer later) :
    LastAnswer second transfer later := by
  rcases answer.of_append with behind | ⟨kept, -, before⟩
  · exact behind
  · exact absurd before (not_of_silent silent)

/-- A request behind which nothing is sent is the last one. -/
theorem of_cons
    {request : HttpRequest} {answered : Transfer}
    (silent : ∀ event ∈ second, ¬ IsSend event)
    (answer : LastAnswer (⟨AgentOp.send request, answered⟩ :: second) transfer
      later) :
    answered = transfer ∧ later = second := by
  obtain ⟨⟨before, other, split⟩, -⟩ := answer
  cases before with
  | nil =>
      rw [List.nil_append, List.cons.injEq] at split
      obtain ⟨same, rfl⟩ := split
      cases same
      exact ⟨rfl, rfl⟩
  | cons event before =>
      rw [List.cons_append, List.cons.injEq] at split
      obtain ⟨-, rfl⟩ := split
      exact absurd ⟨other, rfl⟩
        (silent ⟨AgentOp.send other, transfer⟩ (by simp))

/-- Nothing that is sent before changes the last answer. -/
theorem append_left (answer : LastAnswer second transfer later) :
    LastAnswer (first ++ second) transfer later := by
  obtain ⟨⟨before, request, rfl⟩, last⟩ := answer
  exact ⟨⟨first ++ before, request, (List.append_assoc ..).symm⟩, last⟩

/-- The last answer stays the last while nothing is sent. -/
theorem append_silent
    (answer : LastAnswer first transfer later)
    (silent : ∀ event ∈ second, ¬ IsSend event) :
    LastAnswer (first ++ second) transfer (later ++ second) := by
  obtain ⟨⟨before, request, rfl⟩, last⟩ := answer
  refine ⟨⟨before, request, by simp⟩, ?_⟩
  exact List.forall_mem_append.mpr ⟨last, silent⟩

/-- A history has one last answer. -/
theorem unique
    {other : Transfer} {behind : List AgentEvent}
    (answer : LastAnswer first transfer later)
    (same : LastAnswer first other behind) : transfer = other := by
  obtain ⟨⟨before, request, rfl⟩, last⟩ := answer
  rcases same.of_append with within | ⟨kept, rfl, -⟩
  · exact (within.of_cons last).1
  · exact absurd ⟨request, rfl⟩
      (same.last ⟨AgentOp.send request, transfer⟩ (by simp))

end LastAnswer

/-- The answer to the only event of a history, when that sends a request. -/
def onlyAnswer? : List AgentEvent → Option Transfer
  | [⟨.send _, transfer⟩] => some transfer
  | _ => none

theorem LastAnswer.of_only
    {history : List AgentEvent} {transfer : Transfer}
    (only : onlyAnswer? history = some transfer) :
    LastAnswer history transfer [] := by
  unfold onlyAnswer? at only
  split at only
  · cases only
    exact ⟨⟨[], _, rfl⟩, by simp⟩
  · cases only

/-! ## Receiving a complete response -/

/-- The callback for events does nothing but show text. -/
def ShowsOnly (onEvent : String → Walk agents) : Prop :=
  ∀ event, Action.Safe (permitting fun _ => True)
    (fun _ op => ∃ delta, op = AgentOp.onText delta) (onEvent event)

theorem mayShow_hostText (text : Bool) :
    MayShow (permitting fun _ => True)
      (fun _ op => ∃ delta, op = AgentOp.onText delta) (hostText text) := by
  intro delta
  cases text with
  | false => exact .pure ()
  | true => exact .ofHost fun _ => ⟨⟨delta, rfl⟩, fun _ _ _ => trivial⟩

section Receiving

variable {onEvent : String → Walk agents} {watch : Bool}
  {before after : Streaming TurnParts} {history : List AgentEvent}

/-- Receiving a response sends nothing. -/
theorem receiving_of_absorb
    {transfer : Transfer} {outcome : Except Exception HttpResult}
    (shows : ShowsOnly onEvent)
    (run : Action.Finishes (absorb onEvent (callerFlag watch) transfer) before
      history outcome after) :
    ∀ event ∈ history, Receiving event.op := by
  have parses : ∀ event, Action.Safe (permitting fun _ => True)
      (fun _ => Receiving) (onEvent event) := by
    intro event parts state
    exact (shows event parts state).mono (fun _ _ shown => Or.inr shown)
      fun _ _ _ post => post
  exact receiving_of_parses parses run

theorem not_isSend_of_receiving
    {event : AgentEvent} (receiving : Receiving event.op) :
    ¬ IsSend event := by
  rintro ⟨request, sends⟩
  rw [sends] at receiving
  rcases receiving with poll | ⟨delta, shown⟩
  · cases poll
  · cases shown

/-- The library was told to stop because the flag was set. -/
theorem foundSet_of_receive
    {status : Int} {steps : List TransferStep} {pending : List Char}
    (run : Action.Finishes
      (receive onEvent (callerFlag watch) status steps pending) before history
      (.ok none) after) :
    ∃ event ∈ history, FoundSet event := by
  induction steps generalizing before history pending with
  | nil =>
      obtain ⟨-, impossible, -⟩ := Action.finishes_pure.mp run
      cases impossible
  | cons step steps induction =>
      -- Both steps begin with the same check and go on behind it.
      have checked : ∀ {rest : Action agents (Streaming TurnParts)
            (Option (List Char))},
          (∀ history, Action.Finishes rest before history (.ok none) after →
            ∃ event ∈ history, FoundSet event) →
          Action.Finishes
            (isSet (callerFlag watch) >>= fun stop =>
              if stop then pure none else rest) before history (.ok none)
            after →
          ∃ event ∈ history, FoundSet event := by
        intro rest continues run
        obtain ⟨first, later, stop, between, rfl, checks, continued⟩ :=
          Action.finishes_bind_ok.mp run
        obtain ⟨rfl, ⟨same, -⟩ | ⟨-, rfl⟩⟩ := finishes_check checks
        · cases same
          obtain ⟨event, member, found⟩ := continues later continued
          exact ⟨event, List.mem_append_right _ member, found⟩
        · exact ⟨_, List.mem_append_left _ (List.mem_singleton_self _), rfl⟩
      cases step with
      | progress => exact checked (fun history => induction) run
      | chunk data =>
          refine checked (fun history run => ?_) run
          by_cases success : isSuccess status = true
          · rw [if_pos success] at run
            obtain ⟨first, later, value, between, rfl, -, rest⟩ :=
              Action.finishes_bind_ok.mp run
            obtain ⟨event, member, found⟩ := induction rest
            exact ⟨event, List.mem_append_right _ member, found⟩
          · rw [if_neg success] at run
            exact induction (Action.finishes_modify_bind.mp run)

/-- A complete response is returned, or its transfer was stopped by the flag. -/
theorem finishes_absorb_complete
    {response : HttpResponse} {steps : List TransferStep}
    {received : HttpResult}
    (run : Action.Finishes
      (absorb onEvent (callerFlag watch) (.complete response steps)) before
      history (.ok received) after) :
    received = .ok response ∨
      received = .error .canceled ∧ ∃ event ∈ history, FoundSet event := by
  obtain ⟨first, later, pending, between, rfl, receives, finishes⟩ :=
    Action.finishes_bind_ok.mp run
  cases pending with
  | none =>
      obtain ⟨-, same, -⟩ := Action.finishes_pure.mp finishes
      cases same
      obtain ⟨event, member, found⟩ := foundSet_of_receive receives
      exact Or.inr ⟨rfl, event, List.mem_append_left _ member, found⟩
  | some pending =>
      obtain ⟨delivered, last, value, between, -, -, returns⟩ :=
        Action.finishes_bind_ok.mp finishes
      obtain ⟨-, same, -⟩ := Action.finishes_pure.mp returns
      cases same
      exact Or.inl rfl

end Receiving

/-! ## The end of a turn behind its last request -/

/-- The library was told to stop while it received the response. -/
def Canceled (onEvent : String → Walk agents) (watch : Bool)
    (response : HttpResponse) (steps : List TransferStep)
    (later : List AgentEvent) : Prop :=
  ∃ received rest streaming, later = received ++ rest ∧
    Action.Finishes
      (absorb onEvent (callerFlag watch) (.complete response steps)) fresh
      received (.ok (.error .canceled)) streaming

theorem Canceled.foundSet
    {onEvent : String → Walk agents} {watch : Bool} {response : HttpResponse}
    {steps : List TransferStep} {later : List AgentEvent}
    (canceled : Canceled onEvent watch response steps later) :
    ∃ event ∈ later, FoundSet event := by
  obtain ⟨received, rest, streaming, rfl, absorbs⟩ := canceled
  rcases finishes_absorb_complete absorbs with
    impossible | ⟨-, event, member, found⟩
  · cases impossible
  · exact ⟨event, List.mem_append_left _ member, found⟩

theorem Canceled.append
    {onEvent : String → Walk agents} {watch : Bool} {response : HttpResponse}
    {steps : List TransferStep} {later : List AgentEvent}
    (canceled : Canceled onEvent watch response steps later)
    (more : List AgentEvent) :
    Canceled onEvent watch response steps (later ++ more) := by
  obtain ⟨received, rest, streaming, rfl, absorbs⟩ := canceled
  exact ⟨received, rest ++ more, streaming, List.append_assoc .., absorbs⟩

/-- The events of one check. -/
def checkEvents (watch stop : Bool) : List AgentEvent :=
  if watch then [⟨AgentOp.load .cancelled, stop⟩] else []

/--
How the streaming part of a turn ends behind a complete 2xx response to its
last request.
-/
inductive EndsBehind (onEvent : String → Walk agents) (watch : Bool)
    (response : HttpResponse) (steps : List TransferStep)
    (later : List AgentEvent) :
    Except Exception (HttpResult × Streaming TurnParts) → Prop where
  | read {received : List AgentEvent} {streaming : Streaming TurnParts}
      (stop : Bool) (split : later = received ++ checkEvents watch stop)
      (absorbs : Action.Finishes
        (absorb onEvent (callerFlag watch) (.complete response steps)) fresh
        received (.ok (.ok response)) streaming) :
      EndsBehind onEvent watch response steps later
        (.ok (.ok response, streaming))
  | threw {failure : Exception} {streaming : Streaming TurnParts}
      (absorbs : Action.Finishes
        (absorb onEvent (callerFlag watch) (.complete response steps)) fresh
        later (.error failure) streaming) :
      EndsBehind onEvent watch response steps later (.error failure)
  | stopped {outcome : Except Exception (HttpResult × Streaming TurnParts)}
      (canceled : Canceled onEvent watch response steps later)
      (unanswered : ∀ response streaming,
        outcome ≠ .ok (.ok response, streaming)) :
      EndsBehind onEvent watch response steps later outcome

theorem not_isSend_of_around
    {event : AgentEvent} (around : AroundRequests event) : ¬ IsSend event := by
  rintro ⟨request, sends⟩
  rcases around with poll | ⟨message, shown⟩ | jitter | ⟨delay, polled⟩
  · rw [IsPoll, sends] at poll
    cases poll
  · rw [sends] at shown
    cases shown
  · rw [sends] at jitter
    cases jitter
  · rw [sends] at polled
    cases polled

theorem not_isSend_of_checkEvents {watch stop : Bool} :
    ∀ event ∈ checkEvents watch stop, ¬ IsSend event := fun event member =>
  not_isSend_of_around (Or.inl (isPoll_of_check event member))

section Loop

variable {json : JsonText} {onEvent : String → Walk agents} {path : String}
  {headers : List (String × String)} {payload : Json} {watch : Bool}
  {response : HttpResponse} {steps : List TransferStep}
  {before after : Streaming TurnParts} {history later : List AgentEvent}

/-- An attempt that returned has sent one request and absorbed its answer. -/
theorem exists_send_of_attempt
    {received : HttpResult}
    (single : SingleRequest json onEvent path headers payload watch history
      (.ok received) after) :
    ∃ request transfer events,
      history = ⟨AgentOp.send request, transfer⟩ :: events ∧
        Action.Finishes (absorb onEvent (callerFlag watch) transfer) fresh
          events (.ok received) after := by
  rcases finishes_attemptRequest single.finishes with
    ⟨-, failure, impossible⟩ | absorbed
  · cases impossible
  · exact absorbed

/-- The attempt of the last request absorbed the answer to it. -/
theorem absorbs_of_attempt
    {tail : List AgentEvent} {received : HttpResult}
    (shows : ShowsOnly onEvent)
    (single : SingleRequest json onEvent path headers payload watch history
      (.ok received) after)
    (answer : LastAnswer (history ++ tail) (.complete response steps) later)
    (silent : ∀ event ∈ tail, ¬ IsSend event) :
    ∃ events, later = events ++ tail ∧
      Action.Finishes
        (absorb onEvent (callerFlag watch) (.complete response steps)) fresh
        events (.ok received) after := by
  obtain ⟨request, transfer, events, rfl, absorbs⟩ :=
    exists_send_of_attempt single
  have receiving : ∀ event ∈ events, ¬ IsSend event := fun event member =>
    not_isSend_of_receiving (receiving_of_absorb shows absorbs event member)
  obtain ⟨rfl, rfl⟩ :=
    answer.of_cons (List.forall_mem_append.mpr ⟨receiving, silent⟩)
  exact ⟨events, rfl, absorbs⟩

/-- Where the complete response was not returned, the transfer was stopped. -/
theorem canceled_of_absorbs
    {events tail : List AgentEvent} {received : HttpResult}
    (split : later = events ++ tail)
    (absorbs : Action.Finishes
      (absorb onEvent (callerFlag watch) (.complete response steps)) fresh
      events (.ok received) after)
    (other : received ≠ .ok response) :
    received = .error .canceled ∧
      Canceled onEvent watch response steps later := by
  obtain ⟨rfl, -⟩ := (finishes_absorb_complete absorbs).resolve_left other
  exact ⟨rfl, events, tail, after, split, absorbs⟩

/-- A response that may pass is no 2xx response. -/
theorem not_ok_of_transient
    {received : HttpResult} {errorBody : String}
    (success : isSuccess response.status = true)
    (transient : Transient received errorBody) : received ≠ .ok response := by
  rintro rfl
  exact not_transient_of_success success _ transient

/-- A run of the loop that returns has sent a request. -/
theorem exists_send_of_loop
    {progress : Bool} {maxAttempts : Int} {attempt : Nat}
    {received : HttpResult}
    (parts : before.parts = {}) (unreceived : before.receivedEvent = false)
    (run : Action.Finishes
      (executeStreamWithRetry network (callerFlag watch)
        (attemptRequest json onEvent path headers payload watch)
        (hostProgress progress) maxAttempts attempt)
      before history (.ok received) after) :
    ∃ event ∈ history, IsSend event := by
  obtain ⟨retried, last, rfl, -, -, notice, request, decision, rfl, -,
    single⟩ := finishes_executeStreamWithRetry parts unreceived run
  rcases finishes_attemptRequest single.finishes with
    ⟨-, failure, impossible⟩ | ⟨sent, transfer, events, rfl, -⟩
  · cases impossible
  · exact ⟨⟨AgentOp.send sent, transfer⟩, by simp, sent, rfl⟩

/-- The loop ends behind the response of its last attempt. -/
theorem endsBehind_of_ends
    {stop : Bool} {decision request : List AgentEvent}
    {received : HttpResult} {outcome : Except Exception HttpResult}
    (shows : ShowsOnly onEvent)
    (success : isSuccess response.status = true)
    (single : SingleRequest json onEvent path headers payload watch request
      (.ok received) after)
    (decided : ∀ event ∈ decision, AroundRequests event)
    (left : (∃ failure, outcome = .error failure ∧
      ProgressThrew failure decision) ∨ outcome = .ok received)
    (settled : ∀ response, received = .ok response →
      isSuccess response.status = true →
        decision = [] ∧ outcome = .ok received)
    (answer : LastAnswer (request ++ (checkEvents watch stop ++ decision))
      (.complete response steps) later) :
    EndsBehind onEvent watch response steps later
      (outcome.map fun received => (received, after)) := by
  by_cases same : received = .ok response
  · obtain ⟨rfl, rfl⟩ := settled response same success
    subst same
    rw [List.append_nil] at answer
    obtain ⟨events, split, absorbs⟩ :=
      absorbs_of_attempt shows single answer not_isSend_of_checkEvents
    exact .read stop split absorbs
  · obtain ⟨events, split, absorbs⟩ := absorbs_of_attempt shows single answer
      (List.forall_mem_append.mpr ⟨not_isSend_of_checkEvents,
        fun event member => not_isSend_of_around (decided event member)⟩)
    obtain ⟨rfl, canceled⟩ := canceled_of_absorbs split absorbs same
    refine .stopped canceled ?_
    rcases left with ⟨failure, rfl, -⟩ | rfl
    · rintro response streaming ⟨⟩
    · rintro response streaming ⟨⟩

/-- How the loop ends behind a complete 2xx response to its last request. -/
theorem finishes_loop_behind
    {progress : Bool} {maxAttempts : Int} {attempt : Nat}
    {outcome : Except Exception HttpResult}
    (shows : ShowsOnly onEvent)
    (success : isSuccess response.status = true)
    (parts : before.parts = {}) (unreceived : before.receivedEvent = false)
    (run : Action.Finishes
      (executeStreamWithRetry network (callerFlag watch)
        (attemptRequest json onEvent path headers payload watch)
        (hostProgress progress) maxAttempts attempt)
      before history outcome after)
    (answer : LastAnswer history (.complete response steps) later) :
    EndsBehind onEvent watch response steps later
      (outcome.map fun received => (received, after)) := by
  induction remaining : (maxAttempts - attempt).toNat
    using Nat.strong_induction_on generalizing attempt before history with
  | _ remaining induction =>
      cases pass_of_finishes parts unreceived run with
      | unannounced around threw =>
          refine absurd answer (LastAnswer.not_of_silent ?_)
          exact fun event member => not_isSend_of_around (around event member)
      | unanswered noticed single =>
          replace answer := answer.of_silent_append fun event member =>
            not_isSend_of_around (noticed event member)
          rcases finishes_attemptRequest single.finishes with
            ⟨rfl, -⟩ | ⟨request, transfer, events, rfl, absorbs⟩
          · exact absurd answer (LastAnswer.not_of_silent (by simp))
          · obtain ⟨rfl, rfl⟩ := answer.of_cons fun event member =>
              not_isSend_of_receiving
                (receiving_of_absorb shows absorbs event member)
            exact .threw absorbs
      | ends noticed single decided left settled =>
          replace answer := answer.of_silent_append fun event member =>
            not_isSend_of_around (noticed event member)
          exact endsBehind_of_ends shows success single decided left settled
            answer
      | @again notice request wait rest received between _ noticed single
          unreceived' transient waited more continued =>
          replace answer := answer.of_silent_append fun event member =>
            not_isSend_of_around (noticed event member)
          have silent : ∀ event ∈ checkEvents watch false ++ wait,
              ¬ IsSend event :=
            List.forall_mem_append.mpr ⟨not_isSend_of_checkEvents,
              fun event member =>
                not_isSend_of_around (waited event member).1⟩
          have renewed : between.parts = {} := by
            obtain ⟨sent, transfer, polls, -, quiet⟩ :=
              single.undelivered_of_unreceived unreceived'
            exact quiet.parts
          have regrouped :
              request ++ (checkEvents watch false ++ (wait ++ rest)) =
                (request ++ (checkEvents watch false ++ wait)) ++ rest := by
            simp only [List.append_assoc]
          change LastAnswer
            (request ++ (checkEvents watch false ++ (wait ++ rest))) _ _
            at answer
          rw [regrouped] at answer
          rcases answer.of_append with behind | ⟨kept, rfl, within⟩
          · exact induction _ (by omega) renewed unreceived' continued behind
              rfl
          · obtain ⟨events, rfl, absorbs⟩ :=
              absorbs_of_attempt shows single within silent
            obtain ⟨-, canceled⟩ := canceled_of_absorbs rfl absorbs
              (not_ok_of_transient success transient)
            refine .stopped (canceled.append rest) ?_
            intro response streaming
            cases outcome with
            | error failure =>
                intro same
                cases same
            | ok other =>
                obtain ⟨event, member, sends⟩ :=
                  exists_send_of_loop renewed unreceived' continued
                exact absurd sends
                  (answer.last event (List.mem_append_right _ member))

/-- How the streaming part of a turn ends. -/
theorem finishes_streamTurn_behind
    {Locals : Type} {locals left : Locals} {text progress : Bool}
    {maxAttempts : Int}
    {outcome : Except Exception (HttpResult × Streaming TurnParts)}
    (shows : ShowsOnly onEvent)
    (success : isSuccess response.status = true)
    (run : Action.Finishes (streamTurn network
      (attemptRequest json onEvent path headers payload watch)
      (hostCallbacks text progress) (callerFlag watch) maxAttempts)
      locals history outcome left)
    (answer : LastAnswer history (.complete response steps) later) :
    EndsBehind onEvent watch response steps later outcome := by
  obtain ⟨-, final, streamed⟩ := Action.finishes_withLocals.mp run
  rcases Action.finishes_bind.mp streamed with
    ⟨failure, rfl, thrown⟩ |
    ⟨events, rest, received, streaming, rfl, looped, returned⟩
  · exact finishes_loop_behind shows success rfl rfl thrown answer
  · have read := Action.finishes_get_bind.mp returned
    obtain ⟨rfl, rfl, rfl⟩ := Action.finishes_pure.mp read
    rw [List.append_nil] at answer
    exact finishes_loop_behind shows success rfl rfl looped answer

end Loop

/-! ## The turn -/

section Turns

variable {json : JsonText} {errorText : HttpError → String}
  {provider path : String} {headers : List (String × String)}
  {parse : String → Walk agents} {payload : Conversation → Json}
  {read : TurnParts → Action agents Conversation ModelTurn}
  {text progress watch : Bool} {response : HttpResponse}
  {steps : List TransferStep} {locals after : Conversation}
  {history later : List AgentEvent} {outcome : Except Exception ModelTurn}

/-- The complete response was received to its end, and its parts are read. -/
structure ReadBehind (parse : String → Walk agents) (watch : Bool)
    (read : TurnParts → Action agents Conversation ModelTurn)
    (response : HttpResponse) (steps : List TransferStep)
    (locals : Conversation) (later : List AgentEvent)
    (outcome : Except Exception ModelTurn) (after : Conversation)
    (received polls : List AgentEvent) (streaming : Streaming TurnParts) :
    Prop where
  split : later = received ++ polls
  absorbs : Action.Finishes
    (absorb parse (callerFlag watch) (.complete response steps)) fresh
    received (.ok (.ok response)) streaming
  polls : ∀ event ∈ polls, IsPoll event
  reads : Action.Finishes (tryCatch (read streaming.parts) unreadable) locals
    [] outcome after

/-- Why a complete 2xx response to the last request was not read. -/
def Interrupted (parse : String → Walk agents) (watch : Bool)
    (response : HttpResponse) (steps : List TransferStep)
    (later : List AgentEvent) : Prop :=
  (∃ event ∈ later, FoundSet event) ∨
    ∃ failure streaming, Action.Finishes
      (absorb parse (callerFlag watch) (.complete response steps)) fresh
      later (.error failure) streaming

/-- Reading performs no operation. -/
def ReadsSilently (read : TurnParts → Action agents Conversation ModelTurn) :
    Prop :=
  ∀ {parts locals history outcome after},
    Action.Finishes (tryCatch (read parts) unreadable) locals history outcome
      after → history = []

theorem not_isSend_of_foundClear
    {event : AgentEvent} (clear : FoundClear event) : ¬ IsSend event := by
  rintro ⟨request, sends⟩
  subst clear
  cases sends

/--
A complete 2xx response to the last request of a turn is read, or the turn was
interrupted behind that request.
-/
theorem finishes_executeTurn_behind
    (shows : ShowsOnly parse) (silently : ReadsSilently read)
    (success : isSuccess response.status = true)
    (run : Action.Finishes
      (executeTurn (networked json errorText) provider path headers parse
        payload read (hostCallbacks text progress) (callerFlag watch)) locals
      history outcome after)
    (answer : LastAnswer history (.complete response steps) later) :
    (∃ received polls streaming,
      ReadBehind parse watch read response steps locals later outcome after
        received polls streaming) ∨
      Unanswered locals history outcome after ∧
        Interrupted parse watch response steps later := by
  cases exit_of_executeTurn run with
  | uninitialized =>
      exact absurd answer (LastAnswer.not_of_silent (by simp))
  | stopped =>
      refine absurd answer (LastAnswer.not_of_silent ?_)
      rintro event member ⟨request, sends⟩
      cases List.mem_singleton.mp member
      cases sends
  | threw client clear streams =>
      cases client
      replace answer := answer.of_silent_append fun event member =>
        not_isSend_of_foundClear (clear event member)
      refine Or.inr ⟨.of_error, ?_⟩
      cases finishes_streamTurn_behind shows success streams answer with
      | threw absorbs => exact Or.inr ⟨_, _, absorbs⟩
      | stopped canceled unanswered => exact Or.inl canceled.foundSet
  | cancelled client clear streams =>
      cases client
      refine Or.inr ⟨.of_foundSet (by simp), Or.inl ?_⟩
      replace answer := answer.of_silent_append fun event member =>
        not_isSend_of_foundClear (clear event member)
      obtain ⟨kept, rfl, -⟩ := answer.of_append_silent (by
        rintro event member ⟨request, sends⟩
        cases List.mem_singleton.mp member
        cases sends)
      exact ⟨_, List.mem_append_right _ (List.mem_singleton_self _), rfl⟩
  | unsuccessful client clear streams failed =>
      cases client
      rw [List.forall_mem_append] at clear
      replace answer := answer.of_silent_append fun event member =>
        not_isSend_of_foundClear (clear.1 event member)
      obtain ⟨kept, rfl, behind⟩ := answer.of_append_silent fun event member =>
        not_isSend_of_foundClear (clear.2 event member)
      refine Or.inr ⟨.of_message, Or.inl ?_⟩
      cases finishes_streamTurn_behind shows success streams behind with
      | read stop split absorbs =>
          rw [failed response rfl] at success
          cases success
      | stopped canceled unanswered =>
          obtain ⟨event, member, set⟩ := canceled.foundSet
          exact ⟨event, List.mem_append_left _ member, set⟩
  | @answered _ _ _ recheck _ _ _ _ _ client answered reads =>
      cases client
      obtain rfl := silently reads
      have clear := List.forall_mem_append.mp answered.clear
      rw [List.append_nil] at answer
      replace answer := answer.of_silent_append fun event member =>
        not_isSend_of_foundClear (clear.1 event member)
      obtain ⟨kept, rfl, behind⟩ := answer.of_append_silent fun event member =>
        not_isSend_of_foundClear (clear.2 event member)
      cases finishes_streamTurn_behind shows success answered.streams
        behind with
      | read stop split absorbs =>
          have repolls : ∀ event ∈ recheck, IsPoll event := by
            intro event member
            cases clear.2 event member
            rfl
          have polls : ∀ event ∈ checkEvents watch stop, IsPoll event :=
            isPoll_of_check
          refine Or.inl ⟨_, _, _, ⟨?_, absorbs,
            List.forall_mem_append.mpr ⟨polls, repolls⟩, reads⟩⟩
          rw [split, List.append_assoc]
      | stopped canceled unanswered =>
          exact absurd rfl (unanswered _ _)

end Turns

/-! ## The built-in providers -/

section Providers

variable {kind : BuiltIn} {json : JsonText} {text : Bool}

/-- A parser does nothing but show text. -/
theorem showsOnly_parseStreamChunk :
    ShowsOnly (kind.parseStreamChunk json (hostText text)) := by
  intro event
  rcases kind with ⟨_ | config⟩ | _
  · exact safe_parseDeepseekStreamChunk (mayShow_hostText text) event
  · exact safe_parseOpenrouterStreamChunk (mayShow_hostText text) event
  · exact safe_parseGeminiStreamChunk (mayShow_hostText text) event

theorem readsSilently_readTurn {endpoint : Endpoint agents} :
    ReadsSilently (kind.readTurn endpoint) :=
  fun reads => (BuiltIn.finishes_readTurn reads).1

end Providers

end ArnCore.Provider.LastRequest
