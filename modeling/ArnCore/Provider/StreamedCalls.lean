import ArnCore.Provider.ChatStream
import ArnCore.Provider.RetriedTurn

/-!
# Streamed tool calls decode to what was encoded

Three decoders are stacked: bytes to events, events to deltas, deltas to calls.
Where nothing interrupts a turn and a 2xx response delivered an encoded answer,
the turn returns that answer.
-/

namespace ArnCore.Provider.StreamedCalls

open ArnCore.Agent.Environment
open ArnCore.Interaction
open ArnCore.Net
open ArnCore.Net.EventStream
open ArnCore.Provider.CallDeltas
open ArnCore.Provider.ChatStream
open ArnCore.Provider.RetriedTurn
open ArnCore.Provider.SingleAttempt
open ArnCore.Tool

/-- The flag is not found set and no callback throws. -/
structure Calm (event : AgentEvent) : Prop where
  notSet : ¬ FoundSet event
  textReturns : ∀ delta failure,
    event ≠ ⟨AgentOp.onText delta, (.error failure : Except Exception Unit)⟩
  progressReturns : ∀ message failure,
    event ≠
      ⟨AgentOp.onProgress message, (.error failure : Except Exception Unit)⟩

/-- What an attempt does while it receives a response. -/
def Receiving (op : AgentOp) : Prop :=
  op = .load .cancelled ∨ ∃ delta, op = .onText delta

/-- The world of calm events in which a response is received. -/
abbrev calmWorld : World agents Unit :=
  permitting Calm

theorem flagClear_calm (watch : Bool) :
    FlagClear calmWorld (fun _ => Receiving) (callerFlag watch) := by
  intro Locals locals post continues
  cases watch with
  | false => exact continues
  | true =>
      refine ⟨Or.inl rfl, ?_⟩
      intro stop after calm
      cases stop with
      | false => exact continues
      | true => exact absurd rfl calm.notSet

theorem textReturns_calm (text : Bool) :
    TextReturns calmWorld (fun _ => Receiving) (hostText text) := by
  intro delta parts state post continues
  cases text with
  | false => exact continues ()
  | true =>
      refine ⟨Or.inr ⟨delta, rfl⟩, ?_⟩
      intro answer after calm
      cases answer with
      | ok value => exact continues ()
      | error failure => exact absurd rfl (calm.textReturns delta failure)

variable {chat : ChatProvider} {json : JsonText} {text watch : Bool}

/-- Receiving a response is polling the flag, and what the parser does. -/
theorem receiving_of_parses
    {onEvent : String → Walk agents}
    {transfer : Transfer} {before after : Streaming TurnParts}
    {history : List AgentEvent} {outcome : Except Exception HttpResult}
    (parses : ∀ event, Action.Safe (permitting fun _ => True)
      (fun _ => Receiving) (onEvent event))
    (run : Action.Finishes (absorb onEvent (callerFlag watch) transfer) before
      history outcome after) :
    ∀ event ∈ history, Receiving event.op := by
  have polls : Action.Safe (permitting fun _ => True) (fun _ => Receiving)
      (isSet (callerFlag watch) :
        Action agents (Streaming TurnParts) Bool) := by
    cases watch with
    | false => exact .pure false
    | true => exact .ofHost fun _ => ⟨Or.inl rfl, fun _ _ _ => trivial⟩
  exact (Action.Holds.finishes (safe_absorb parses polls transfer before ())
    run (by simp)).1

/-- The parser of a chat provider shows text and does nothing else. -/
theorem parseStreamChunk_receives (event : String) :
    Action.Safe (permitting fun _ => True) (fun _ => Receiving)
      (chat.parseStreamChunk json (hostText text) event) := by
  have shows : MayShow (permitting fun _ => True) (fun _ => Receiving)
      (hostText text) := by
    intro delta
    cases text with
    | false => exact .pure ()
    | true => exact .ofHost fun _ => ⟨Or.inr ⟨delta, rfl⟩, fun _ _ _ => trivial⟩
  cases chat with
  | deepSeek => exact safe_parseDeepseekStreamChunk shows event
  | openRouter config => exact safe_parseOpenrouterStreamChunk shows event

/-! ## Encoded answers -/

/--
The chunks of a transfer carry an encoded answer: they divide a byte stream of
events, with `'\n'` or `'\r\n'` as its line ends, whose packets encode the
text and the calls.
-/
structure CarriesAnswer (json : JsonText) (steps : List TransferStep)
    (answer : String) (calls : List EncodedCall) (events : List String)
    (carried : List (List PacketDelta)) : Prop where
  delivered : List.Forall₂ (EventCarries json) events carried
  encoded : AnswerEncoded carried.flatten answer calls
  sent : SseDecoder.ReturnsInserted (sentStream events)
    (chunksOf steps).flatten
  parses : ∀ call ∈ calls, json.parse call.text = .ok call.arguments

variable {path : String} {headers : List (String × String)} {payload : Json}
  {answer : String} {calls : List EncodedCall} {events : List String}
  {carried : List (List PacketDelta)} {steps : List TransferStep}
  {response : HttpResponse} {sentRequest : HttpRequest}

/-- An attempt whose request was answered by the encoded answer decodes it. -/
theorem decodes_of_mem_request
    {request : List AgentEvent} {outcome : Except Exception HttpResult}
    {streaming : Streaming TurnParts}
    (rejects : RejectsMarkers json)
    (success : isSuccess response.status = true)
    (carries : CarriesAnswer json steps answer calls events carried)
    (single : SingleRequest json
      (chat.parseStreamChunk json (hostText text)) path headers payload watch
      request outcome streaming)
    (calm : ∀ event ∈ request, Calm event)
    (member :
      (⟨AgentOp.send sentRequest, Transfer.complete response steps⟩ :
        AgentEvent) ∈ request) :
    outcome = .ok (.ok response) ∧
      Decoded carried.flatten streaming.parts := by
  rcases finishes_attemptRequest single.finishes with
    ⟨rfl, -⟩ | ⟨other, transfer, received, rfl, absorbed⟩
  · cases member
  rcases List.mem_cons.mp member with same | later
  · cases same
    obtain ⟨-, calmReceived⟩ := List.forall_mem_cons.mp calm
    have holds : Action.Holds calmWorld (fun _ => Receiving)
        (fun outcome (after : Streaming TurnParts) _ =>
          outcome = .ok (.ok response) ∧
            Decoded carried.flatten after.parts)
        (absorb (chat.parseStreamChunk json (hostText text))
          (callerFlag watch) (.complete response steps))
        { fresh with errorBody := "" } () :=
      holds_absorb
        (decodes_parseStreamChunk rejects (textReturns_calm text))
        (singleLine_of_carries rejects carries.delivered)
        (flagClear_calm watch) success carries.delivered carries.sent
        decoded_nil fun streaming decoded => ⟨rfl, decoded⟩
    exact (Action.Holds.finishes holds absorbed calmReceived).2
  · have receiving :=
      receiving_of_parses parseStreamChunk_receives absorbed _ later
    rcases receiving with poll | ⟨delta, shown⟩
    · cases poll
    · cases shown

/-- The answer is not found outside the requests. -/
theorem not_around_send
    {transfer : Transfer} :
    ¬ AroundRequests ⟨AgentOp.send sentRequest, transfer⟩ := by
  rintro (poll | ⟨message, shown⟩ | jitter | ⟨delay, polls⟩)
  · cases poll
  · cases shown
  · cases jitter
  · cases polls

/-- Of an iteration only the request sends. -/
theorem mem_request_of_around
    {notice request decision : List AgentEvent} {transfer : Transfer}
    (around : ∀ event ∈ notice ++ decision, AroundRequests event)
    (member :
      (⟨AgentOp.send sentRequest, transfer⟩ : AgentEvent) ∈
        notice ++ request ++ decision) :
    (⟨AgentOp.send sentRequest, transfer⟩ : AgentEvent) ∈ request := by
  rw [List.forall_mem_append] at around
  simp only [List.mem_append] at member
  rcases member with (inNotice | inRequest) | inDecision
  · exact absurd (around.1 _ inNotice) not_around_send
  · exact inRequest
  · exact absurd (around.2 _ inDecision) not_around_send

/-- A calm turn that received the encoded answer streams it to the end. -/
theorem decodes_of_streamTurn
    {Locals : Type} {locals left : Locals} {progress : Bool}
    {maxAttempts : Int} {history : List AgentEvent}
    {outcome : Except Exception (HttpResult × Streaming TurnParts)}
    (rejects : RejectsMarkers json)
    (success : isSuccess response.status = true)
    (carries : CarriesAnswer json steps answer calls events carried)
    (run : Action.Finishes (streamTurn network
      (attemptRequest json (chat.parseStreamChunk json (hostText text)) path
        headers payload watch)
      (hostCallbacks text progress) (callerFlag watch) maxAttempts)
      locals history outcome left)
    (calm : ∀ event ∈ history, Calm event)
    (member :
      (⟨AgentOp.send sentRequest, Transfer.complete response steps⟩ :
        AgentEvent) ∈ history) :
    ∃ streaming, outcome = .ok (.ok response, streaming) ∧
      Decoded carried.flatten streaming.parts := by
  obtain ⟨retried, last, rfl, -, eachRetried, ends⟩ := finishes_streamTurn run
  rw [List.forall_mem_append] at calm
  rcases List.mem_append.mp member with inRetried | inLast
  · obtain ⟨piece, isPiece, inPiece⟩ := List.mem_flatten.mp inRetried
    obtain ⟨attempt, isRetried, rfl⟩ := List.mem_map.mp isPiece
    have kept := eachRetried attempt isRetried
    have calmAttempt : ∀ event ∈ attempt.request, Calm event := by
      intro event inRequest
      refine calm.1 event (List.mem_flatten.mpr ⟨_, isPiece, ?_⟩)
      simp [Attempt.events, inRequest]
    have inRequest := mem_request_of_around kept.around inPiece
    obtain ⟨same, -⟩ := decodes_of_mem_request rejects success carries
      kept.single calmAttempt inRequest
    have transient := kept.transient
    rw [Except.ok.inj same] at transient
    exact absurd transient (not_transient_of_success success _)
  · rcases outcome with failure | ⟨received, streaming⟩
    · obtain ⟨streaming, notice, request, decision, rfl, around, left⟩ := ends
      have inRequest := mem_request_of_around around inLast
      have calmRequest : ∀ event ∈ request, Calm event := by
        intro event member
        exact calm.2 event (by simp [member])
      rcases left with ⟨-, event, threw, message, rfl⟩ | ⟨streaming, single⟩
      · have calmEvent := calm.2 _
          (by simpa using (List.mem_append.mp threw).imp_right Or.inr)
        exact absurd rfl (calmEvent.progressReturns message failure)
      · cases (decodes_of_mem_request rejects success carries single
          calmRequest inRequest).1
    · obtain ⟨notice, request, decision, rfl, around, single⟩ := ends
      have inRequest := mem_request_of_around around inLast
      have calmRequest : ∀ event ∈ request, Calm event := by
        intro event member
        exact calm.2 event (by simp [member])
      obtain ⟨same, decoded⟩ := decodes_of_mem_request rejects success
        carries single calmRequest inRequest
      cases same
      exact ⟨streaming, rfl, decoded⟩

/-! ## The turn -/

/-- A provider over the network of the environment. -/
def networked (json : JsonText) (errorText : HttpError → String) :
    Endpoint agents where
  json := json
  client := some network
  errorText := errorText

/-- Both providers run the same turn on their own stream. -/
theorem executeTurnRequest_eq
    (chat : ChatProvider) (endpoint : Endpoint agents)
    (apiKey model : String) (tools : ToolRegistry agents Conversation)
    (callbacks : StreamCallbacks agents) (cancel : CancelFlag agents) :
    ∃ provider path headers payload,
      chat.executeTurnRequest endpoint apiKey model tools callbacks cancel =
        executeTurn endpoint provider path headers
          (chat.parseStreamChunk endpoint.json callbacks.onText) payload
          (readChatTurn endpoint) callbacks cancel := by
  cases chat with
  | deepSeek => exact ⟨_, _, _, _, rfl⟩
  | openRouter config => exact ⟨_, _, _, _, rfl⟩

/-- A calm check finds the flag clear. -/
theorem clear_of_calm
    {Locals : Type} {locals after : Locals} {history : List AgentEvent}
    {outcome : Except Exception Bool}
    (run : Action.Finishes (isSet (callerFlag watch)) locals history outcome
      after)
    (calm : ∀ event ∈ history, Calm event) :
    after = locals ∧ outcome = .ok false ∧
      ∀ event ∈ history, IsPoll event := by
  cases watch with
  | false =>
      obtain ⟨rfl, rfl, rfl⟩ := Action.finishes_pure.mp run
      exact ⟨rfl, rfl, by simp⟩
  | true =>
      have polled := (op_of_finishes_always run).2
      obtain ⟨stop, rfl, rfl, rfl⟩ := finishes_always.mp run
      cases stop with
      | false => exact ⟨rfl, rfl, polled⟩
      | true =>
          exact absurd rfl (calm _ (List.mem_singleton_self _)).notSet

theorem not_poll_send {transfer : Transfer} :
    ¬ IsPoll ⟨AgentOp.send sentRequest, transfer⟩ := by
  intro poll
  cases poll

/--
Streamed tool calls decode to what was encoded.

Take a turn of DeepSeek or OpenRouter in which the flag is not found set and
the callbacks return.  When one of its requests was answered by a complete 2xx
response whose chunks carry an encoded answer, the turn is ok and returns the
text and the calls of that answer in the order of their indices.
-/
theorem streamed_answer_decodes
    {errorText : HttpError → String} {apiKey model : String}
    {tools : ToolRegistry agents Conversation} {progress : Bool}
    {locals after : Conversation} {history : List AgentEvent}
    {outcome : Except Exception ModelTurn}
    (rejects : RejectsMarkers json)
    (run : ((chat.executeTurnRequest (networked json errorText) apiKey model
      tools (hostCallbacks text progress) (callerFlag watch)).run.run
        locals).Runs history (.done (outcome, after)))
    (calm : ∀ event ∈ history, Calm event)
    (member :
      (⟨AgentOp.send sentRequest, Transfer.complete response steps⟩ :
        AgentEvent) ∈ history)
    (success : isSuccess response.status = true)
    (carries : CarriesAnswer json steps answer calls events carried) :
    outcome = .ok (answeredTurn answer calls) := by
  obtain ⟨provider, path, headers, payload, same⟩ :=
    executeTurnRequest_eq chat (networked json errorText) apiKey model tools
      (hostCallbacks text progress) (callerFlag watch)
  rw [same] at run
  have finished := Program.runs_done_iff.mp run
  rcases Action.finishes_bind.mp finished with
    ⟨failure, -, thrown⟩ |
    ⟨check, rest, stop, between, rfl, checked, continued⟩
  · cases (clear_of_calm thrown calm).2.1
  rw [List.forall_mem_append] at calm
  obtain ⟨rfl, found, polled⟩ := clear_of_calm checked calm.1
  cases found
  have inRest := (List.mem_append.mp member).resolve_left
    fun inCheck => not_poll_send (polled _ inCheck)
  have streamed := Action.finishes_get_bind.mp continued
  rcases Action.finishes_bind.mp streamed with
    ⟨failure, -, thrown⟩ |
    ⟨turn, ending, received, between, rfl, transferred, concluded⟩
  · obtain ⟨streaming, impossible, -⟩ :=
      decodes_of_streamTurn rejects success carries thrown calm.2 inRest
    cases impossible
  rw [List.forall_mem_append] at calm
  rcases Action.finishes_bind.mp concluded with
    ⟨failure, -, thrown⟩ |
    ⟨recheck, reading, stop, between, rfl, rechecked, read⟩
  · cases (clear_of_calm thrown calm.2.2).2.1
  rw [List.forall_mem_append] at calm
  obtain ⟨rfl, found, repolled⟩ := clear_of_calm rechecked calm.2.2.1
  cases found
  have reads : Action.Safe calmWorld (fun _ _ => False)
      (concludeTurn (networked json errorText) provider
        (readChatTurn (networked json errorText)) received) :=
    safe_concludeTurn_readChatTurn _ provider received
  have silent := (Action.Holds.finishes (reads between ()) read
    calm.2.2.2).1
  have inTurn : (⟨AgentOp.send sentRequest, Transfer.complete response steps⟩ :
      AgentEvent) ∈ turn := by
    rcases List.mem_append.mp inRest with inTurn | inEnding
    · exact inTurn
    · rcases List.mem_append.mp inEnding with inCheck | inReading
      · exact absurd (repolled _ inCheck) not_poll_send
      · exact absurd inReading (silent _)
  obtain ⟨streaming, same, decoded⟩ :=
    decodes_of_streamTurn rejects success carries transferred calm.2.1 inTurn
  cases same
  simp only [concludeTurn, success, if_true] at read
  exact (finishes_readChatTurn decoded carries.encoded carries.parses read).1

/-! ## Two calls, the second one first -/

/-- The change that carries a whole call. -/
def wholeChange (index : Nat) (id name : String) : Json :=
  .object
    [("function",
        .object
          [("arguments", .string "\x7b\x7d"), ("name", .string name)]),
      ("id", .string id), ("index", .integer index)]

/-- A packet with a content and one change. -/
def wholePacket (content change : Json) : Json :=
  .object
    [("choices",
      .array
        [.object
          [("delta",
            .object [("content", content), ("tool_calls", .array [change])])]])]

def firstText : String :=
  "\x7b\"choices\":[\x7b\"delta\":\x7b\"content\":null,\"tool_calls\":"
    ++ "[\x7b\"function\":\x7b\"arguments\":\"\x7b\x7d\",\"name\":\"g\"\x7d,"
    ++ "\"id\":\"b\",\"index\":1\x7d]\x7d\x7d]\x7d"

def secondText : String :=
  "\x7b\"choices\":[\x7b\"delta\":\x7b\"content\":\"Hi\",\"tool_calls\":"
    ++ "[\x7b\"function\":\x7b\"arguments\":\"\x7b\x7d\",\"name\":\"f\"\x7d,"
    ++ "\"id\":\"a\",\"index\":0\x7d]\x7d\x7d]\x7d"

/-- A text library that knows the documents of this run. -/
def knownDocuments : JsonText :=
  .knowing
    [⟨firstText, wholePacket .null (wholeChange 1 "b" "g"), by decide +kernel⟩,
      ⟨secondText, wholePacket (.string "Hi") (wholeChange 0 "a" "f"),
        by decide +kernel⟩,
      ⟨"\x7b\x7d", .object [], Json.compact_object_nil⟩]

/-- The chunks of the two events and the end marker. -/
def twoCalls : List TransferStep :=
  [.chunk (sentEvent firstText), .progress,
    .chunk (sentStream [secondText, "[DONE]"])]

/-- A provider that streams the two calls. -/
def streamsTwoCalls : List AgentEvent → (op : AgentOp) → agents.Answer op
  | _, .send _ => Transfer.complete { status := 200 } twoCalls
  | _, op => quiet op

/-- A turn of DeepSeek, run against `streamsTwoCalls`. -/
def twoCallsRun : List AgentEvent ×
    (Except Exception ModelTurn × Conversation) :=
  Program.scripted streamsTwoCalls
    ((ChatProvider.deepSeek.executeTurnRequest
      (networked knownDocuments fun _ => "error") "key" "model" {}
      (hostCallbacks false false) (callerFlag false)).run.run {})
    []

theorem calm_twoCallsRun : ∀ event ∈ twoCallsRun.1, Calm event := by
  apply Program.forall_mem_scripted
  · intro history op
    refine ⟨?_, ?_, ?_⟩
    · intro found
      cases op <;> cases found
    · intro delta failure threw
      cases op <;> cases threw
    · intro message failure threw
      cases op <;> cases threw
  · simp

/-- The delta of `wholeChange`. -/
def wholeDelta (index : Nat) (id name : String) : CallDelta where
  index := index
  id := some id
  name := some name
  arguments := some "\x7b\x7d"

theorem encodes_wholeChange {index : Nat} (small : index < 2 ^ 32)
    (id name : String) :
    EncodesCall (wholeChange index id name) (wholeDelta index id name) where
  index := by
    have read : Json.toUnsigned index = index := by
      unfold Json.toUnsigned
      omega
    change Except.ok (Json.toUnsigned index) = _
    rw [read]
    rfl
  id := rfl
  name := rfl
  arguments := rfl

theorem encodes_wholePacket
    {content change : Json} {carried : Option String} {delta : CallDelta}
    (shown : some content = carried.map Json.string ∨
      carried = none ∧ some content = some .null)
    (encodes : EncodesCall change delta) :
    EncodesPacket (wholePacket content change)
      { content := carried, calls := [delta] } :=
  .delta rfl rfl rfl shown ⟨[change], rfl, .cons encodes .nil⟩

theorem distinct_documents :
    [firstText, secondText, "\x7b\x7d"].Nodup := by
  decide +kernel

theorem parse_firstText :
    knownDocuments.parse firstText =
      .ok (wholePacket .null (wholeChange 1 "b" "g")) :=
  JsonText.parse_knowing distinct_documents (by simp)

theorem parse_secondText :
    knownDocuments.parse secondText =
      .ok (wholePacket (.string "Hi") (wholeChange 0 "a" "f")) :=
  JsonText.parse_knowing distinct_documents (by simp)

theorem parse_noArguments :
    knownDocuments.parse "\x7b\x7d" = .ok (.object []) :=
  JsonText.parse_knowing distinct_documents (by simp)

theorem encodes_firstText :
    EncodesEvent knownDocuments firstText
      [{ calls := [wholeDelta 1 "b" "g"] }] where
  noNewline := by decide +kernel
  noReturn := by decide +kernel
  parsed := ⟨_, parse_firstText, Or.inl ⟨_, encodes_wholePacket
    (Or.inr ⟨rfl, rfl⟩) (encodes_wholeChange (by decide) "b" "g"), rfl⟩⟩

theorem encodes_secondText :
    EncodesEvent knownDocuments secondText
      [{ content := some "Hi", calls := [wholeDelta 0 "a" "f"] }] where
  noNewline := by decide +kernel
  noReturn := by decide +kernel
  parsed := ⟨_, parse_secondText, Or.inl ⟨_, encodes_wholePacket
    (Or.inl rfl) (encodes_wholeChange (by decide) "a" "f"), rfl⟩⟩

/-- The two calls in the order of their indices. -/
def twoEncodedCalls : List EncodedCall :=
  [⟨"a", "f", "\x7b\x7d", .object []⟩, ⟨"b", "g", "\x7b\x7d", .object []⟩]

theorem answerEncoded_twoCalls :
    AnswerEncoded
      [{ calls := [wholeDelta 1 "b" "g"] },
        { content := some "Hi", calls := [wholeDelta 0 "a" "f"] }]
      "Hi" twoEncodedCalls where
  text := by decide
  addressed := by simp [deltasOf, wholeDelta, twoEncodedCalls]
  calls := by
    rintro (_ | _ | index) call found
    · cases found
      constructor <;> simp [deltasOf, wholeDelta]
    · cases found
      constructor <;> simp [deltasOf, wholeDelta]
    · cases found

theorem carries_twoCalls :
    CarriesAnswer knownDocuments twoCalls "Hi" twoEncodedCalls
      [firstText, secondText, "[DONE]"]
      [[{ calls := [wholeDelta 1 "b" "g"] }],
        [{ content := some "Hi", calls := [wholeDelta 0 "a" "f"] }], []] where
  delivered :=
    .cons (.encoded encodes_firstText)
      (.cons (.encoded encodes_secondText) (.cons .done .nil))
  encoded := answerEncoded_twoCalls
  sent := by
    have same : (chunksOf twoCalls).flatten =
        sentStream [firstText, secondText, "[DONE]"] := by
      simp [chunksOf, twoCalls, sentStream]
    rw [same]
    exact .refl _
  parses := by
    intro call member
    simp only [twoEncodedCalls, List.mem_cons, List.not_mem_nil, or_false]
      at member
    rcases member with rfl | rfl
    · exact parse_noArguments
    · exact parse_noArguments

/-- The answered request is the first operation of the run. -/
theorem exists_send_twoCallsRun :
    ∃ request,
      (⟨AgentOp.send request, Transfer.complete { status := 200 } twoCalls⟩ :
        AgentEvent) ∈ twoCallsRun.1 := by
  have first : ∃ request next,
      (ChatProvider.deepSeek.executeTurnRequest
        (networked knownDocuments fun _ => "error") "key" "model" {}
        (hostCallbacks false false) (callerFlag false)).run.run {} =
        .call (AgentOp.send request) next := by
    change ∃ request next,
      (streamTurn network _ (hostCallbacks false false) none
        maxRequestAttempts >>= _ : Action agents Conversation _).run.run {} =
          .call (AgentOp.send request) next
    rw [streamTurn, executeStreamWithRetry]
    exact ⟨_, _, rfl⟩
  obtain ⟨request, next, same⟩ := first
  refine ⟨request, ?_⟩
  rw [twoCallsRun, same]
  exact (Program.prefix_scripted streamsTwoCalls _ _).mem
    (List.mem_singleton_self _)

/-- The answer of the run, whose second call was streamed first. -/
theorem streamed_answer_decodes_twoCalls :
    twoCallsRun.2.1 = .ok (answeredTurn "Hi" twoEncodedCalls) := by
  obtain ⟨request, member⟩ := exists_send_twoCallsRun
  have rejects : RejectsMarkers knownDocuments :=
    ⟨JsonText.parse_unknown (by decide +kernel),
      JsonText.parse_unknown (by decide +kernel)⟩
  exact streamed_answer_decodes rejects
    (Program.runs_scripted_pair streamsTwoCalls _) calm_twoCallsRun member rfl
    carries_twoCalls

end ArnCore.Provider.StreamedCalls
