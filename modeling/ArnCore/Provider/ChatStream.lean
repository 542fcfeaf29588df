import ArnCore.Net.EventStream
import ArnCore.Provider.BuiltInProvider
import ArnCore.Provider.CallDeltas

/-!
# Chat-completion streams

DeepSeek and OpenRouter stream the same deltas.  An answer is encoded as a
sequence of events, sent as one byte stream and cut into chunks.  Read in an
environment that does not interrupt the transfer, every such stream gives back
the text and the calls that were encoded.
-/

namespace ArnCore.Provider.ChatStream

open ArnCore.Collections
open ArnCore.Interaction
open ArnCore.Net
open ArnCore.Net.EventStream
open ArnCore.Provider.CallDeltas
open ArnCore.Tool

/-- The providers of chat completions. -/
inductive ChatProvider where
  | deepSeek
  | openRouter (config : OpenRouterConfig)

variable {signature : Signature}

namespace ChatProvider

/-- The stream-chunk parser of a provider. -/
def parseStreamChunk (chat : ChatProvider) (json : JsonText)
    (onText : TextStreamCallback signature) : String → Walk signature :=
  match chat with
  | .deepSeek => parseDeepseekStreamChunk json onText
  | .openRouter _ => parseOpenrouterStreamChunk json onText

/-- `execute_turn_request` of a provider. -/
def executeTurnRequest (chat : ChatProvider) (endpoint : Endpoint signature)
    (apiKey model : String) (tools : ToolRegistry signature Conversation)
    (callbacks : StreamCallbacks signature) (cancel : CancelFlag signature) :
    Action signature Conversation ModelTurn :=
  match chat with
  | .deepSeek =>
      DeepSeekProvider.executeTurnRequest endpoint apiKey model tools
        callbacks cancel
  | .openRouter config =>
      OpenRouterProvider.executeTurnRequest endpoint config apiKey model tools
        callbacks cancel

end ChatProvider

/-! ## Events -/

/-- Two texts a JSON parser rejects: the empty one and the end marker. -/
structure RejectsMarkers (json : JsonText) : Prop where
  empty : ∀ value, json.parse "" ≠ .ok value
  done : ∀ value, json.parse "[DONE]" ≠ .ok value

/-- An event is JSON text on one line: one packet or an array of packets. -/
structure EncodesEvent (json : JsonText) (event : String)
    (carried : List PacketDelta) : Prop where
  noNewline : '\n' ∉ event.toList
  noReturn : '\r' ∉ event.toList
  parsed : ∃ value, json.parse event = .ok value ∧
    ((∃ packet, EncodesPacket value packet ∧ carried = [packet]) ∨
      ∃ items, value = .array items ∧
        List.Forall₂ EncodesPacket items carried)

section Parsing

variable {json : JsonText} {event : String} {carried : List PacketDelta}

/-- The packets of an event in either form. -/
theorem EncodesEvent.packets
    (encodes : EncodesEvent json event carried) :
    ∃ value, json.parse event = .ok value ∧
      List.Forall₂ EncodesPacket (packets value) carried := by
  obtain ⟨value, parsed, ⟨packet, encoded, rfl⟩ | ⟨items, rfl, encoded⟩⟩ :=
    encodes.parsed
  · obtain ⟨members, rfl⟩ := encoded.isObject
    exact ⟨_, parsed, .cons encoded .nil⟩
  · exact ⟨_, parsed, encoded⟩

theorem EncodesEvent.singleLine
    (rejects : RejectsMarkers json)
    (encodes : EncodesEvent json event carried) : SingleLine event where
  nonempty := by
    rintro rfl
    obtain ⟨value, parsed, -⟩ := encodes.parsed
    exact rejects.empty value parsed
  noNewline := encodes.noNewline
  noReturn := encodes.noReturn

theorem EncodesEvent.ne_done
    (rejects : RejectsMarkers json)
    (encodes : EncodesEvent json event carried) : event ≠ "[DONE]" := by
  rintro rfl
  obtain ⟨value, parsed, -⟩ := encodes.parsed
  exact rejects.done value parsed

variable {State : Type} {world : World signature State}
  {allowed : State → signature.Op → Prop}
  {post : Except Exception Unit → TurnParts → State → Prop}
  {parts : TurnParts} {state : State} {onText : TextStreamCallback signature}
  {earlier : List PacketDelta} {chat : ChatProvider}

/-- A parser adds what an event carries. -/
theorem holds_parseStreamChunk
    (rejects : RejectsMarkers json)
    (returns : TextReturns world allowed onText)
    (encodes : EncodesEvent json event carried)
    (decoded : Decoded earlier parts)
    (continues : ∀ parts after, Decoded (earlier ++ carried) parts →
      post (.ok ()) parts after) :
    Action.Holds world allowed post
      (chat.parseStreamChunk json onText event) parts state := by
  obtain ⟨value, parsed, encoded⟩ := encodes.packets
  have walks : ∀ visit : Json → Walk signature,
      (∀ packet delta, EncodesPacket packet delta →
        visit packet = applyPacket onText packet) →
      Action.Holds world allowed post
        (ignoreMalformed do
          let parsed ← Action.ofExcept (json.parse event)
          visitAll visit (packets parsed)) parts state := by
    intro visit visits
    unfold ignoreMalformed
    rw [parsed]
    exact Action.holds_tryCatch.mpr
      (holds_visitAll_packets returns visits encoded decoded continues)
  cases chat with
  | deepSeek =>
      rw [ChatProvider.parseStreamChunk, parseDeepseekStreamChunk,
        if_neg (encodes.ne_done rejects)]
      exact walks _ fun _ _ _ => rfl
  | openRouter config =>
      rw [ChatProvider.parseStreamChunk, parseOpenrouterStreamChunk,
        if_neg (encodes.ne_done rejects)]
      refine walks _ fun packet delta encoded => ?_
      rw [encoded.noError]
      rfl

/-- The end marker adds nothing. -/
theorem parseStreamChunk_done :
    chat.parseStreamChunk json onText "[DONE]" = pure () := by
  cases chat with
  | deepSeek => rfl
  | openRouter config => rfl

/-- What the events of a stream carry; the end marker carries nothing. -/
inductive EventCarries (json : JsonText) :
    String → List PacketDelta → Prop where
  | encoded {event : String} {carried : List PacketDelta}
      (encodes : EncodesEvent json event carried) :
      EventCarries json event carried
  | done : EventCarries json "[DONE]" []

theorem EventCarries.singleLine
    (rejects : RejectsMarkers json)
    (carries : EventCarries json event carried) : SingleLine event := by
  cases carries with
  | encoded encodes => exact encodes.singleLine rejects
  | done => exact ⟨by decide, by decide, by decide⟩

theorem singleLine_of_carries
    {events : List String} {carried : List (List PacketDelta)}
    (rejects : RejectsMarkers json)
    (carries : List.Forall₂ (EventCarries json) events carried) :
    ∀ event ∈ events, SingleLine event := by
  induction carries with
  | nil => simp
  | cons first _ induction =>
      exact List.forall_mem_cons.mpr ⟨first.singleLine rejects, induction⟩

theorem EventCarries.holds_parseStreamChunk
    (rejects : RejectsMarkers json)
    (returns : TextReturns world allowed onText)
    (carries : EventCarries json event carried)
    (decoded : Decoded earlier parts)
    (continues : ∀ parts after, Decoded (earlier ++ carried) parts →
      post (.ok ()) parts after) :
    Action.Holds world allowed post
      (chat.parseStreamChunk json onText event) parts state := by
  cases carries with
  | encoded encodes =>
      exact ChatStream.holds_parseStreamChunk rejects returns encodes decoded
        continues
  | done =>
      rw [parseStreamChunk_done]
      rw [List.append_nil] at continues
      exact continues parts state decoded

end Parsing

/-! ## Transfers -/

/-- The chunks of a transfer. -/
def chunksOf (steps : List TransferStep) : List (List Char) :=
  steps.filterMap fun step =>
    match step with
    | .progress => none
    | .chunk data => some data

section Transfers

variable {Item : Type} {world : World signature Unit}
  {allowed : Unit → signature.Op → Prop}
  {streaming : Streaming TurnParts} {cancel : CancelFlag signature}
  {onEvent : String → Walk signature}
  {Carries : String → List Item → Prop}
  {Accumulated : List Item → TurnParts → Prop}

/-- The flag is never found set, and loading it is permitted. -/
def FlagClear (world : World signature Unit)
    (allowed : Unit → signature.Op → Prop) (cancel : CancelFlag signature) :
    Prop :=
  ∀ {Locals : Type} (locals : Locals)
    (post : Except Exception Bool → Locals → Unit → Prop),
    post (.ok false) locals () →
      Action.Holds world allowed post (isSet cancel) locals ()

/-- The event callback accumulates the items an event carries. -/
def Decodes (world : World signature Unit)
    (allowed : Unit → signature.Op → Prop) (onEvent : String → Walk signature)
    (Carries : String → List Item → Prop)
    (Accumulated : List Item → TurnParts → Prop) : Prop :=
  ∀ {event carried earlier parts}
    {post : Except Exception Unit → TurnParts → Unit → Prop},
    Carries event carried → Accumulated earlier parts →
      (∀ parts, Accumulated (earlier ++ carried) parts →
        post (.ok ()) parts ()) →
      Action.Holds world allowed post (onEvent event) parts ()

/-- Delivered events add what they carry. -/
theorem holds_deliver
    {events : List String} {carried : List (List Item)} {earlier : List Item}
    {post : Except Exception Unit → Streaming TurnParts → Unit → Prop}
    (decodes : Decodes world allowed onEvent Carries Accumulated)
    (carries : List.Forall₂ Carries events carried)
    (accumulated : Accumulated earlier streaming.parts)
    (continues : ∀ streaming, Accumulated (earlier ++ carried.flatten)
      streaming.parts → post (.ok ()) streaming ()) :
    Action.Holds world allowed post
      (deliver onEvent (events.map String.toList)) streaming () := by
  induction carries generalizing earlier streaming with
  | nil =>
      rw [List.flatten_nil, List.append_nil] at continues
      exact continues streaming accumulated
  | @cons event items events carried carries _ induction =>
      rw [List.map_cons, deliver, String.ofList_toList]
      refine Action.holds_bind.mpr (Action.holds_modify.mpr ?_)
      refine Action.holds_bind.mpr (holds_onParts.mpr ?_)
      refine decodes carries accumulated ?_
      intro parts accumulated
      refine induction accumulated ?_
      intro streaming accumulated
      rw [List.append_assoc, ← List.flatten_cons] at accumulated
      exact continues streaming accumulated

/-- Without an interruption a successful body is delivered event by event. -/
theorem holds_receive
    {status : Int} {steps : List TransferStep} {pending : List Char}
    {post : Except Exception (Option (List Char)) →
      Streaming TurnParts → Unit → Prop}
    (success : isSuccess status = true)
    (clear : FlagClear world allowed cancel)
    (delivers : Action.Holds world allowed
      (fun outcome after reached =>
        post (outcome.map fun _ =>
          some (SseDecoder.pushAll pending (chunksOf steps)).2) after reached)
      (deliver onEvent (SseDecoder.pushAll pending (chunksOf steps)).1)
      streaming ()) :
    Action.Holds world allowed post
      (receive onEvent cancel status steps pending) streaming () := by
  induction steps generalizing pending streaming with
  | nil => exact delivers
  | cons step steps induction =>
      cases step with
      | progress =>
          refine Action.holds_bind.mpr (clear _ _ ?_)
          exact induction delivers
      | chunk data =>
          refine Action.holds_bind.mpr (clear _ _ ?_)
          simp only [success, Bool.false_eq_true, if_false, if_true]
          have split : chunksOf (.chunk data :: steps) =
              data :: chunksOf steps := rfl
          rw [split, SseDecoder.pushAll, deliver_append] at delivers
          refine Action.holds_bind.mpr
            ((Action.holds_bind.mp delivers).imp ?_)
          rintro (failure | value) after ⟨⟩ holds
          · exact holds
          · exact induction holds

/--
A complete successful transfer of a stream is absorbed without an exception,
whatever its chunks and line endings are.
-/
theorem holds_absorb
    {response : HttpResponse} {steps : List TransferStep}
    {events : List String} {carried : List (List Item)}
    {post : Except Exception HttpResult → Streaming TurnParts → Unit → Prop}
    (decodes : Decodes world allowed onEvent Carries Accumulated)
    (lines : ∀ event ∈ events, SingleLine event)
    (clear : FlagClear world allowed cancel)
    (success : isSuccess response.status = true)
    (carries : List.Forall₂ Carries events carried)
    (sent : SseDecoder.ReturnsInserted (sentStream events)
      (chunksOf steps).flatten)
    (fresh : Accumulated [] streaming.parts)
    (continues : ∀ streaming, Accumulated carried.flatten streaming.parts →
      post (.ok (.ok response)) streaming ()) :
    Action.Holds world allowed post
      (absorb onEvent cancel (.complete response steps)) streaming () := by
  have pushed : SseDecoder.pushAll [] (chunksOf steps) =
      (events.map String.toList, []) := by
    rw [SseDecoder.pushAll_eq_push_flatten
        SseDecoder.Reachable.constructed.settled,
      SseDecoder.push_returnsInserted sent, push_sentStream lines]
  refine Action.holds_bind.mpr (holds_receive success clear ?_)
  rw [pushed]
  refine holds_deliver decodes carries fresh ?_
  intro streaming accumulated
  rw [success]
  exact continues streaming accumulated

/-- The parsers of chat completions accumulate the deltas of their events. -/
theorem decodes_parseStreamChunk
    {json : JsonText} {onText : TextStreamCallback signature}
    {chat : ChatProvider} (rejects : RejectsMarkers json)
    (returns : TextReturns world allowed onText) :
    Decodes world allowed (chat.parseStreamChunk json onText)
      (EventCarries json) Decoded := by
  intro event carried earlier parts post carries decoded continues
  exact carries.holds_parseStreamChunk rejects returns decoded
    fun parts _ => continues parts

end Transfers

/-! ## Reading the answer -/

section Reading

variable {json : JsonText}

/-- The call an encoded call stands for. -/
def toolCall (call : EncodedCall) : ToolCall where
  id := call.id
  name := call.name
  arguments := call.arguments

/-- An entry is read with the value of its argument text, or an empty object. -/
theorem readCall_of_arguments
    {entry value : Json} {fields : CallFields}
    (reads : Reads entry fields)
    (parses : json.parse fields.arguments = .ok value ∨
      ∃ what, json.parse fields.arguments = .error (.standard what) ∧
        value = .object []) :
    readCall json entry =
      .ok { id := fields.id, name := fields.name, arguments := value } := by
  obtain ⟨id, function, functionFound, nameFound, argumentsFound⟩ := reads
  obtain ⟨members, rfl⟩ := exists_members id
  obtain ⟨inner, rfl⟩ := exists_members nameFound
  have functionRead := Json.atKey_object functionFound
  have nameRead := Json.atKey_object nameFound
  have argumentsRead := Json.atKey_object argumentsFound
  have read : readArguments json (.object members) = .ok value := by
    rcases parses with parsed | ⟨what, parsed, rfl⟩
    · simp [readArguments, functionRead, argumentsRead, parsed, bind,
        Except.bind]
    · simp [readArguments, functionRead, argumentsRead, parsed, bind,
        Except.bind]
  have idRead : (Json.object members).valueOr Json.getString "id" "" =
      .ok fields.id := by
    rw [Json.find?_object] at id
    rw [Json.valueOr, id]
    rfl
  simp [readCall, read, idRead, functionRead, nameRead, bind, Except.bind,
    pure, Except.pure]

/-- An entry is read as its call once its argument text is complete. -/
theorem readCall_of_reads
    {entry : Json} {call : EncodedCall}
    (reads : Reads entry call.fields)
    (parses : json.parse call.text = .ok call.arguments) :
    readCall json entry = .ok (toolCall call) :=
  readCall_of_arguments reads (Or.inl parses)

theorem mapM_readCall
    {entries : List Json} {calls : List EncodedCall}
    (reads : List.Forall₂ (fun entry call => Reads entry call.fields) entries
      calls)
    (parses : ∀ call ∈ calls, json.parse call.text = .ok call.arguments) :
    entries.mapM (readCall json) = .ok (calls.map toolCall) := by
  induction reads with
  | nil => rfl
  | @cons entry call entries calls read _ induction =>
      obtain ⟨first, rest⟩ := List.forall_mem_cons.mp parses
      rw [List.mapM_cons, readCall_of_reads read first, induction rest]
      rfl

/-- The answer an encoding stands for. -/
def answeredTurn (text : String) (calls : List EncodedCall) : ModelTurn where
  ok := true
  text := text
  toolCalls := calls.map toolCall

variable {signature : Signature} {locals after : Conversation}
  {history : List (Event signature)} {outcome : Except Exception ModelTurn}

/-- Decoded parts are recorded and read without an exception. -/
theorem finishes_readChatTurn
    {endpoint : Endpoint signature} {parts : TurnParts}
    {packets : List PacketDelta} {text : String} {calls : List EncodedCall}
    (decoded : Decoded packets parts)
    (encoded : AnswerEncoded packets text calls)
    (parses : ∀ call ∈ calls,
      endpoint.json.parse call.text = .ok call.arguments)
    (run : Action.Finishes (tryCatch (readChatTurn endpoint parts) unreadable)
      locals history outcome after) :
    outcome = .ok (answeredTurn text calls) ∧
      after.entries = locals.entries ++ [assistantMessage parts] := by
  have reads := mapM_readCall (decoded.entries encoded) parses
  have recorded : ∀ {history outcome after},
      Action.Finishes (readChatTurn endpoint parts) locals history outcome
          after →
        outcome = .ok (answeredTurn text calls) ∧
          after.entries = locals.entries ++ [assistantMessage parts] := by
    intro history outcome after run
    have pushed := Action.finishes_modify_bind.mp run
    rw [reads, decoded.text, encoded.text] at pushed
    obtain ⟨-, rfl, rfl⟩ := Action.finishes_pure.mp pushed
    exact ⟨rfl, rfl⟩
  rcases Action.finishes_tryCatch.mp run with
    ⟨value, rfl, body⟩ | ⟨first, later, failure, between, -, body, -⟩
  · exact recorded body
  · cases (recorded body).1

end Reading

end ArnCore.Provider.ChatStream
