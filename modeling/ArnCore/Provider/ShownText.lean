import ArnCore.Provider.LastRequest

/-!
# The text that is shown

The parsers show text as they add it to the turn.  Whatever else happens in a
turn, the text it accumulates is the concatenation of the deltas the host has
seen, so that the text of an answer is what was shown while it streamed.
-/

namespace ArnCore.Provider.ShownText

open ArnCore.Agent.Environment
open ArnCore.Interaction
open ArnCore.Net
open ArnCore.Provider.BuiltInTurn
open ArnCore.Provider.LastRequest
open ArnCore.Provider.RetriedTurn
open ArnCore.Provider.SingleAttempt
open ArnCore.Provider.StreamedCalls
open ArnCore.Tool

/-- The delta an event shows. -/
def shown? (event : AgentEvent) : Option String :=
  match event.op with
  | .onText delta => some delta
  | _ => none

/-- The deltas of a history, one after the other. -/
def shownText (history : List AgentEvent) : String :=
  String.join (history.filterMap shown?)

@[simp]
theorem shownText_nil : shownText [] = "" := rfl

@[simp]
theorem shownText_append (first second : List AgentEvent) :
    shownText (first ++ second) = shownText first ++ shownText second := by
  rw [shownText, List.filterMap_append, String.join_append]
  rfl

/-- Events that show nothing. -/
theorem shownText_eq_empty
    {history : List AgentEvent}
    (silent : ∀ event ∈ history, shown? event = none) :
    shownText history = "" := by
  rw [shownText, List.filterMap_eq_nil_iff.mpr silent]
  rfl

/-! ## Actions that show what they add -/

/-- What an action adds to the text in its variables is what it shows. -/
structure ShowsAdded {Locals Value : Type} (text : Locals → String)
    (action : Action agents Locals Value) : Prop where
  added : ∀ {before after : Locals} {history : List AgentEvent}
    {outcome : Except Exception Value},
    Action.Finishes action before history outcome after →
      text after = text before ++ shownText history

namespace ShowsAdded

variable {Locals Value Result : Type} {text : Locals → String}

/-- An action that shows nothing and keeps the text. -/
theorem of_silent
    {action : Action agents Locals Value}
    (silent : ∀ {before after history outcome},
      Action.Finishes action before history outcome after →
        shownText history = "" ∧ text after = text before) :
    ShowsAdded text action where
  added run := by
    obtain ⟨nothing, same⟩ := silent run
    rw [same, nothing, String.append_empty]

protected theorem pure (value : Value) :
    ShowsAdded text (pure value) :=
  of_silent fun run => by
    obtain ⟨rfl, -, rfl⟩ := Action.finishes_pure.mp run
    exact ⟨rfl, rfl⟩

protected theorem throw (failure : Exception) :
    ShowsAdded text (throw failure : Action agents Locals Value) :=
  of_silent fun run => by
    obtain ⟨rfl, -, rfl⟩ := Action.finishes_throw.mp run
    exact ⟨rfl, rfl⟩

protected theorem ofExcept (evaluated : Except Exception Value) :
    ShowsAdded text (Action.ofExcept evaluated) :=
  of_silent fun run => by
    obtain ⟨rfl, -, rfl⟩ := Action.finishes_ofExcept.mp run
    exact ⟨rfl, rfl⟩

protected theorem modify
    {update : Locals → Locals}
    (kept : ∀ locals, text (update locals) = text locals) :
    ShowsAdded text (modify update) :=
  of_silent fun run => by
    obtain ⟨rfl, -, rfl⟩ := Action.finishes_modify.mp run
    exact ⟨rfl, kept _⟩

protected theorem bind
    {action : Action agents Locals Value}
    {continuation : Value → Action agents Locals Result}
    (starts : ShowsAdded text action)
    (continues : ∀ value, ShowsAdded text (continuation value)) :
    ShowsAdded text (action >>= continuation) where
  added run := by
    rcases Action.finishes_bind.mp run with
      ⟨failure, -, thrown⟩ |
      ⟨first, later, value, between, rfl, started, continued⟩
    · exact starts.added thrown
    · rw [(continues value).added continued, starts.added started,
        shownText_append, String.append_assoc]

protected theorem tryCatch
    {action : Action agents Locals Value}
    {handler : Exception → Action agents Locals Value}
    (starts : ShowsAdded text action)
    (handles : ∀ failure, ShowsAdded text (handler failure)) :
    ShowsAdded text (tryCatch action handler) where
  added run := by
    rcases Action.finishes_tryCatch.mp run with
      ⟨value, rfl, body⟩ |
      ⟨first, later, failure, between, rfl, body, handled⟩
    · exact starts.added body
    · rw [(handles failure).added handled, starts.added body,
        shownText_append, String.append_assoc]

end ShowsAdded

/-! ## Walks -/

theorem showsAdded_visitAll
    {visit : Json → Walk agents} (visits : ∀ item, ShowsAdded TurnParts.text (visit item))
    (items : List Json) :
    ShowsAdded TurnParts.text (visitAll visit items) := by
  induction items with
  | nil => exact .pure ()
  | cons item items induction => exact .bind (visits item) fun _ => induction

theorem showsAdded_whenPresent
    {value : Json} {key : String} {action : Json → Walk agents}
    (acts : ∀ found, ShowsAdded TurnParts.text (action found)) :
    ShowsAdded TurnParts.text (whenPresent value key action) := by
  unfold whenPresent
  cases value.find? key with
  | none => exact .pure ()
  | some found => exact acts found

theorem showsAdded_ignoreMalformed
    {walk : Walk agents} (walks : ShowsAdded TurnParts.text walk) :
    ShowsAdded TurnParts.text (ignoreMalformed walk) := by
  refine .tryCatch walks fun failure => ?_
  cases failure with
  | standard what => exact .pure ()
  | foreign => exact .throw _

/-- Text is added and shown, or neither. -/
theorem showsAdded_addText (text : Json) :
    ShowsAdded TurnParts.text (addText (hostText true) text) where
  added run := by
    rcases Action.finishes_bind.mp run with
      ⟨failure, -, thrown⟩ |
      ⟨first, later, chunk, between, rfl, evaluated, added⟩
    · exact (ShowsAdded.ofExcept _).added thrown
    · obtain ⟨rfl, -, rfl⟩ := Action.finishes_ofExcept.mp evaluated
      obtain ⟨⟨answer, rest, rfl, rfl, rfl⟩, rfl⟩ :=
        Action.finishes_ofHost.mp (Action.finishes_modify_bind.mp added)
      simp [shownText, shown?]

theorem showsAdded_updateCall
    (index : Nat) (update : Json → Except Exception Json) :
    ShowsAdded TurnParts.text (updateCall index update) where
  added {parts after history outcome} run := by
    unfold updateCall at run
    have found := Action.finishes_get_bind.mp run
    cases called : parts.calls[index]? with
    | none =>
        simp only [called] at found
        exact (ShowsAdded.throw _).added found
    | some call =>
        simp only [called] at found
        rcases Action.finishes_bind.mp found with
          ⟨failure, -, thrown⟩ |
          ⟨first, later, updated, between, rfl, evaluated, assigned⟩
        · exact (ShowsAdded.ofExcept _).added thrown
        · obtain ⟨rfl, -, rfl⟩ := Action.finishes_ofExcept.mp evaluated
          obtain ⟨rfl, -, rfl⟩ := Action.finishes_modify.mp assigned
          simp

theorem showsAdded_applyChange (change : Json) :
    ShowsAdded TurnParts.text (applyChange change) :=
  .bind (.ofExcept _) fun index => .bind (.modify fun _ => rfl) fun _ =>
    .bind (showsAdded_whenPresent fun _ => showsAdded_updateCall index _)
      fun _ =>
    .bind (showsAdded_whenPresent fun _ => showsAdded_updateCall index _)
      fun _ =>
    showsAdded_whenPresent fun _ =>
      .bind (showsAdded_whenPresent fun _ => showsAdded_updateCall index _)
        fun _ =>
      showsAdded_whenPresent fun _ => showsAdded_updateCall index _

theorem showsAdded_applyPacket (packet : Json) :
    ShowsAdded TurnParts.text (applyPacket (hostText true) packet) := by
  have contents : ∀ delta,
      ShowsAdded TurnParts.text (applyContent (hostText true) delta) := by
    intro delta
    unfold applyContent
    cases delta.find? "content" with
    | none => exact .pure ()
    | some content =>
        cases content with
        | null => exact .pure ()
        | _ => exact showsAdded_addText _
  unfold applyPacket
  cases delta? packet with
  | none => exact .pure ()
  | some delta =>
      exact .bind (contents delta) fun _ => .bind (.ofExcept _) fun changes =>
        showsAdded_visitAll showsAdded_applyChange changes.elements

theorem showsAdded_applyPart (part : Json) :
    ShowsAdded TurnParts.text (applyPart (hostText true) part) :=
  .bind (.modify fun _ => rfl) fun _ =>
    .bind (showsAdded_whenPresent showsAdded_addText) fun _ =>
      showsAdded_whenPresent fun _ => .modify fun _ => rfl

variable {kind : BuiltIn} {json : JsonText}

/-- A parser shows what it adds. -/
theorem showsAdded_parseStreamChunk (event : String) :
    ShowsAdded TurnParts.text (kind.parseStreamChunk json (hostText true) event) := by
  rcases kind with ⟨_ | config⟩ | _
  · by_cases done : event = "[DONE]"
    · subst done
      exact .pure ()
    · simp only [BuiltIn.parseStreamChunk,
        ChatStream.ChatProvider.parseStreamChunk, parseDeepseekStreamChunk,
        done, if_false]
      exact showsAdded_ignoreMalformed (.bind (.ofExcept _) fun parsed =>
        showsAdded_visitAll showsAdded_applyPacket _)
  · by_cases done : event = "[DONE]"
    · subst done
      exact .pure ()
    · simp only [BuiltIn.parseStreamChunk,
        ChatStream.ChatProvider.parseStreamChunk, parseOpenrouterStreamChunk,
        done, if_false]
      refine showsAdded_ignoreMalformed (.bind (.ofExcept _) fun parsed =>
        showsAdded_visitAll (fun packet => ?_) _)
      cases packet.contains "error" with
      | true => exact .pure ()
      | false => exact showsAdded_applyPacket packet
  · exact showsAdded_ignoreMalformed (.bind (.ofExcept _) fun parsed =>
      showsAdded_visitAll
        (fun packet => showsAdded_visitAll showsAdded_applyPart _) _)

/-! ## Streams -/

section Streams

variable {onEvent : String → Walk agents} {watch : Bool}

/-- The text of the variables of a turn. -/
def streamedText (streaming : Streaming TurnParts) : String :=
  streaming.parts.text

theorem showsAdded_onParts
    {action : Walk agents} (acts : ShowsAdded TurnParts.text action) :
    ShowsAdded streamedText (onParts action) where
  added run := by
    obtain ⟨parts, started, rfl⟩ := finishes_onParts.mp run
    exact acts.added started

theorem showsAdded_deliver
    (shows : ∀ event, ShowsAdded TurnParts.text (onEvent event))
    (events : List (List Char)) :
    ShowsAdded streamedText (deliver onEvent events) := by
  induction events with
  | nil => exact .pure ()
  | cons event events induction =>
      exact .bind (.modify fun _ => rfl) fun _ =>
        .bind (showsAdded_onParts (shows _)) fun _ => induction

/-- A look at the flag shows nothing. -/
theorem showsAdded_isSet :
    ShowsAdded streamedText (isSet (callerFlag watch)) :=
  .of_silent fun run => by
    obtain ⟨rfl, -⟩ := finishes_check run
    obtain ⟨-, stop, -, rfl⟩ := finishes_isSet run
    refine ⟨shownText_eq_empty ?_, rfl⟩
    intro event member
    cases watch with
    | false => cases member
    | true =>
        cases List.mem_singleton.mp member
        rfl

theorem showsAdded_receive
    (shows : ∀ event, ShowsAdded TurnParts.text (onEvent event))
    (status : Int) (steps : List TransferStep) (pending : List Char) :
    ShowsAdded streamedText
      (receive onEvent (callerFlag watch) status steps pending) := by
  induction steps generalizing pending with
  | nil => exact .pure _
  | cons step steps induction =>
      cases step with
      | progress =>
          refine .bind showsAdded_isSet fun stop => ?_
          cases stop with
          | true => exact .pure _
          | false => exact induction pending
      | chunk data =>
          refine .bind showsAdded_isSet fun stop => ?_
          cases stop with
          | true => exact .pure _
          | false =>
              cases success : isSuccess status with
              | true =>
                  exact .bind (showsAdded_deliver shows _) fun _ => induction _
              | false =>
                  exact .bind (.modify fun _ => rfl) fun _ => induction pending

/-- A transfer shows what it adds. -/
theorem showsAdded_absorb
    (shows : ∀ event, ShowsAdded TurnParts.text (onEvent event))
    (transfer : Transfer) :
    ShowsAdded streamedText (absorb onEvent (callerFlag watch) transfer) := by
  cases transfer with
  | failed error => exact .pure _
  | broken status steps error =>
      refine .bind (showsAdded_receive shows status steps []) fun received =>
        ?_
      cases received with
      | none => exact .pure _
      | some pending => exact .pure _
  | complete response steps =>
      refine .bind (showsAdded_receive shows response.status steps [])
        fun received => ?_
      cases received with
      | none => exact .pure _
      | some pending =>
          refine .bind ?_ fun _ => .pure _
          cases isSuccess response.status with
          | true => exact showsAdded_deliver shows _
          | false => exact .pure _

end Streams

/-! ## The answer of a turn -/

section Answers

variable {json : JsonText} {onEvent : String → Walk agents} {path : String}
  {headers : List (String × String)} {payload : Json} {watch : Bool}
  {history : List AgentEvent}

theorem shown?_of_isPoll
    {event : AgentEvent} (poll : IsPoll event) : shown? event = none := by
  rw [shown?, poll]

theorem shown?_of_around
    {event : AgentEvent} (around : AroundRequests event) :
    shown? event = none := by
  rcases around with poll | ⟨message, notice⟩ | jitter | ⟨delay, polls⟩
  · exact shown?_of_isPoll poll
  · rw [shown?, notice]
  · rw [shown?, jitter]
  · rw [shown?, polls]

/-- A retried attempt has shown nothing. -/
theorem shownText_retried
    {attempt : Attempt}
    (retried : Retried json onEvent path headers payload watch attempt) :
    shownText attempt.events = "" := by
  obtain ⟨request, transfer, polls, split, quiet⟩ := retried.undelivered
  have around := List.forall_mem_append.mp retried.around
  apply shownText_eq_empty
  rw [Attempt.events, split]
  simp only [List.forall_mem_append, List.forall_mem_cons]
  exact ⟨⟨fun event member => shown?_of_around (around.1 event member), rfl,
    fun event member => shown?_of_isPoll (quiet.polls event member)⟩,
    fun event member => shown?_of_around (around.2 event member)⟩

theorem shownText_allRetried
    {retried : List Attempt}
    (eachRetried : ∀ attempt ∈ retried,
      Retried json onEvent path headers payload watch attempt) :
    shownText (retried.map Attempt.events).flatten = "" := by
  induction retried with
  | nil => rfl
  | cons attempt retried induction =>
      obtain ⟨first, rest⟩ := List.forall_mem_cons.mp eachRetried
      rw [List.map_cons, List.flatten_cons, shownText_append,
        shownText_retried first, induction rest]
      rfl

/-- What the streaming part of a turn accumulates is what it has shown. -/
theorem shownText_streamTurn
    {Locals : Type} {locals left : Locals} {text progress : Bool}
    {maxAttempts : Int} {response : HttpResult}
    {streaming : Streaming TurnParts}
    (shows : ∀ event, ShowsAdded TurnParts.text (onEvent event))
    (run : Action.Finishes (streamTurn network
      (attemptRequest json onEvent path headers payload watch)
      (hostCallbacks text progress) (callerFlag watch) maxAttempts)
      locals history (.ok (response, streaming)) left) :
    shownText history = streaming.parts.text := by
  obtain ⟨retried, last, rfl, -, eachRetried, notice, request, decision, rfl,
    around, single⟩ := finishes_streamTurn run
  have before := shownText_allRetried eachRetried
  rw [List.forall_mem_append] at around
  have noticed : shownText notice = "" := shownText_eq_empty
    fun event member => shown?_of_around (around.1 event member)
  have decided : shownText decision = "" := shownText_eq_empty
    fun event member => shown?_of_around (around.2 event member)
  rcases finishes_attemptRequest single.finishes with
    ⟨-, failure, impossible⟩ | ⟨sent, transfer, received, rfl, absorbs⟩
  · cases impossible
  have added := (showsAdded_absorb shows transfer).added absorbs
  have sends : shownText (⟨AgentOp.send sent, transfer⟩ :: received) =
      shownText received := rfl
  rw [shownText_append, shownText_append, shownText_append, before, noticed,
    decided, sends, String.empty_append, String.empty_append,
    String.append_empty]
  exact (String.empty_append).symm.trans added.symm

variable {kind : BuiltIn} {errorText : HttpError → String}
  {apiKey model systemInstruction : String}
  {tools : ToolRegistry agents Conversation} {progress : Bool}
  {locals after : Conversation} {turn : ModelTurn}

/-- An answer that is ok has the text of its parts. -/
theorem text_of_recordedOutcome
    {text : String} {calls : Except Exception (List ToolCall)}
    (returns : .ok turn = BuiltIn.recordedOutcome text calls)
    (ok : turn.ok = true) : turn.text = text := by
  rcases calls with (what | _) | calls
  · cases returns
    cases ok
  · cases returns
  · cases returns
    rfl

/-- The text of an answer is what was shown while it streamed. -/
theorem shownText_of_ok
    (run : Action.Finishes
      (kind.executeTurnRequest (networked json errorText) apiKey model
        systemInstruction tools (hostCallbacks true progress)
        (callerFlag watch)) locals history (.ok turn) after)
    (ok : turn.ok = true) :
    shownText history = turn.text := by
  rw [BuiltIn.executeTurnRequest_eq] at run
  rcases finishes_executeTurn run with
    unanswered |
    ⟨transport, check, streamed, recheck, reading, response, streaming,
      client, rfl, answered, reads⟩
  · rw [unanswered.failed turn rfl] at ok
    cases ok
  cases client
  have clear : ∀ event ∈ check ++ recheck, shown? event = none := by
    intro event member
    cases answered.clear event member
    rfl
  rw [List.forall_mem_append] at clear
  obtain ⟨rfl, ends⟩ := BuiltIn.finishes_readTurn reads
  have streams := shownText_streamTurn showsAdded_parseStreamChunk
    answered.streams
  have text : turn.text = streaming.parts.text := by
    cases recorded : kind.answerRecord? streaming.parts with
    | none =>
        rw [recorded] at ends
        cases ends.1
        cases ok
    | some entry =>
        rw [recorded] at ends
        exact text_of_recordedOutcome ends.1 ok
  rw [shownText_append, shownText_append, List.append_nil,
    shownText_eq_empty clear.1, shownText_eq_empty clear.2, streams, text,
    String.empty_append, String.append_empty]

end Answers

end ArnCore.Provider.ShownText
