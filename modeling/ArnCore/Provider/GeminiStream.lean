import ArnCore.Provider.ShownText

/-!
# Streams of Gemini

A response of Gemini is a list of parts.  They are grouped into the candidates
of packets, packets into events, events into a byte stream and that into
chunks.  One pass over it fills three accumulators, which stay the parts, the
text and the function calls of the list.
-/

namespace ArnCore.Provider.GeminiStream

open ArnCore.Agent.Environment
open ArnCore.Collections
open ArnCore.Interaction
open ArnCore.Net
open ArnCore.Net.EventStream
open ArnCore.Provider.BuiltInTurn
open ArnCore.Provider.CallDeltas
open ArnCore.Provider.ChatStream
open ArnCore.Provider.LastRequest
open ArnCore.Provider.ShownText
open ArnCore.Provider.SingleAttempt
open ArnCore.Provider.StreamedCalls
open ArnCore.Tool

/-! ## Parts -/

/-- A function call: an object with a string name and no other kind of id. -/
structure FunctionCall (call : Json) : Prop where
  object : ∃ members, call = .object members
  name : ∃ name, call.find? "name" = some (.string name)
  id : ∀ id, call.find? "id" = some id → ∃ text, id = .string text

/-- A part: an object whose text and function call are well formed. -/
structure Part (part : Json) : Prop where
  object : ∃ members, part = .object members
  text : ∀ text, part.find? "text" = some text → ∃ chunk, text = .string chunk
  call : ∀ call, part.find? "functionCall" = some call → FunctionCall call

/-- The string a member of an object holds, or the empty string. -/
def stringMember (value : Json) (key : String) : String :=
  match value.find? key with
  | some (.string text) => text
  | _ => ""

/-- The text of a list of parts. -/
def textOf (parts : List Json) : String :=
  String.join (parts.map fun part => stringMember part "text")

/-- The function calls of a list of parts. -/
def callsOf (parts : List Json) : List Json :=
  parts.filterMap fun part => part.find? "functionCall"

/-- The call a function call stands for. -/
def toolCall (call : Json) : ToolCall where
  id := stringMember call "id"
  name := stringMember call "name"
  arguments := (call.find? "args").getD (.object [])

theorem textOf_append (first second : List Json) :
    textOf (first ++ second) = textOf first ++ textOf second := by
  rw [textOf, List.map_append, String.join_append]
  rfl

theorem callsOf_append (first second : List Json) :
    callsOf (first ++ second) = callsOf first ++ callsOf second :=
  List.filterMap_append

/-- The three accumulators hold one list of parts. -/
structure Holds (accumulated : List Json) (parts : TurnParts) : Prop where
  responseParts : parts.responseParts = accumulated
  text : parts.text = textOf accumulated
  calls : parts.calls = callsOf accumulated

theorem holds_nil : Holds [] {} := ⟨rfl, rfl, rfl⟩

/-! ## One event -/

section Walks

variable {signature : Signature} {world : World signature Unit}
  {allowed : Unit → signature.Op → Prop}
  {post : Except Exception Unit → TurnParts → Unit → Prop}
  {parts : TurnParts} {onText : TextStreamCallback signature}
  {earlier : List Json}

/-- Visiting items one after the other accumulates what each of them holds. -/
theorem holds_visitAll
    {visit : Json → Walk signature} {items : List Json}
    (held : Json → List Json)
    (visits : ∀ item ∈ items, ∀ {earlier parts}
      {post : Except Exception Unit → TurnParts → Unit → Prop},
      Holds earlier parts →
        (∀ parts, Holds (earlier ++ held item) parts → post (.ok ()) parts ()) →
        Action.Holds world allowed post (visit item) parts ())
    (accumulated : Holds earlier parts)
    (continues : ∀ parts, Holds (earlier ++ items.flatMap held) parts →
      post (.ok ()) parts ()) :
    Action.Holds world allowed post (visitAll visit items) parts () := by
  induction items generalizing earlier parts with
  | nil =>
      rw [List.flatMap_nil, List.append_nil] at continues
      exact continues parts accumulated
  | cons item items induction =>
      obtain ⟨first, rest⟩ := List.forall_mem_cons.mp visits
      refine Action.holds_bind.mpr (first accumulated ?_)
      intro parts accumulated
      refine induction rest accumulated ?_
      intro parts accumulated
      rw [List.append_assoc, ← List.flatMap_cons] at accumulated
      exact continues parts accumulated

/-- Text that may be shown is added to the turn. -/
theorem holds_addText
    {chunk : String} (returns : TextReturns world allowed onText)
    (continues : post (.ok ()) { parts with text := parts.text ++ chunk } ()) :
    Action.Holds world allowed post (addText onText (.string chunk)) parts
      () :=
  returns chunk _ () post fun _ => continues

/-- A part is recorded, its text is shown and its function call is kept. -/
theorem holds_applyPart
    {part : Json} (returns : TextReturns world allowed onText)
    (formed : Part part) (accumulated : Holds earlier parts)
    (continues : ∀ parts, Holds (earlier ++ [part]) parts →
      post (.ok ()) parts ()) :
    Action.Holds world allowed post (applyPart onText part) parts () := by
  have calls : ∀ {shown : TurnParts},
      shown.responseParts = earlier ++ [part] →
      shown.text = textOf (earlier ++ [part]) →
      shown.calls = callsOf earlier →
      Action.Holds world allowed post
        (whenPresent part "functionCall" fun call =>
          modify fun parts => { parts with calls := parts.calls ++ [call] })
        shown () := by
    intro shown responseParts text calls
    unfold whenPresent
    cases called : part.find? "functionCall" with
    | none =>
        refine continues shown ⟨responseParts, text, ?_⟩
        rw [calls, callsOf_append]
        simp [callsOf, called]
    | some call =>
        refine continues _ ⟨responseParts, text, ?_⟩
        rw [callsOf_append]
        simp [calls, callsOf, called]
  refine Action.holds_bind.mpr (Action.holds_modify.mpr ?_)
  refine Action.holds_bind.mpr ?_
  have recorded : (parts.responseParts ++ [part]) = earlier ++ [part] := by
    rw [accumulated.responseParts]
  unfold whenPresent
  cases shown : part.find? "text" with
  | none =>
      refine calls recorded ?_ accumulated.calls
      rw [textOf_append, accumulated.text]
      simp [textOf, stringMember, shown]
  | some text =>
      obtain ⟨chunk, rfl⟩ := formed.text text shown
      refine holds_addText returns ?_
      refine calls recorded ?_ accumulated.calls
      rw [textOf_append, accumulated.text]
      simp [textOf, stringMember, shown]

/-- The parts an event carries, in the packets it consists of. -/
structure CarriesParts (json : JsonText) (event : String)
    (carried : List Json) : Prop where
  line : SingleLine event
  parsed : ∃ value, json.parse event = .ok value ∧
    (packets value).flatMap candidateParts = carried
  formed : ∀ part ∈ carried, Part part

/-- The parser accumulates the parts of an event. -/
theorem decodes_parseGeminiStreamChunk
    {json : JsonText} (returns : TextReturns world allowed onText) :
    Decodes world allowed (parseGeminiStreamChunk json onText)
      (CarriesParts json) Holds := by
  intro event carried earlier parts post carries accumulated continues
  obtain ⟨value, parsed, rfl⟩ := carries.parsed
  have formed := carries.formed
  simp only [List.mem_flatMap, forall_exists_index, and_imp] at formed
  unfold parseGeminiStreamChunk ignoreMalformed
  rw [parsed]
  refine Action.holds_tryCatch.mpr
    (holds_visitAll candidateParts (fun packet isPacket => ?_) accumulated
      continues)
  intro earlier parts post accumulated continues
  refine holds_visitAll (fun part => [part]) (fun part isPart => ?_)
    accumulated ?_
  · intro earlier parts post accumulated continues
    exact holds_applyPart returns (formed part packet isPacket isPart)
      accumulated continues
  · rw [List.flatMap_singleton']
    exact continues

end Walks

/-! ## Reading the parts -/

theorem readFunctionCall_of_functionCall
    {call : Json} (formed : FunctionCall call) :
    GeminiProvider.readFunctionCall call = .ok (toolCall call) := by
  obtain ⟨members, rfl⟩ := formed.object
  obtain ⟨name, named⟩ := formed.name
  have nameRead := Json.atKey_object named
  have idRead : (Json.object members).valueOr Json.getString "id" "" =
      .ok (stringMember (.object members) "id") := by
    rw [Json.valueOr, stringMember, Json.find?_object]
    cases found : OrderedMap.find? "id" members with
    | none => rfl
    | some id =>
        obtain ⟨text, rfl⟩ := formed.id id found
        rfl
  have argumentsRead := valueOr_object members "args" (.object [])
  have nameString : stringMember (.object members) "name" = name := by
    rw [stringMember, named]
  simp [GeminiProvider.readFunctionCall, idRead, nameRead, argumentsRead,
    toolCall, nameString, bind, Except.bind, pure, Except.pure]

theorem mapM_readFunctionCall
    {calls : List Json} (formed : ∀ call ∈ calls, FunctionCall call) :
    calls.mapM GeminiProvider.readFunctionCall = .ok (calls.map toolCall) := by
  induction calls with
  | nil => rfl
  | cons call calls induction =>
      obtain ⟨first, rest⟩ := List.forall_mem_cons.mp formed
      rw [List.mapM_cons, readFunctionCall_of_functionCall first,
        induction rest]
      rfl

theorem functionCall_of_mem_callsOf
    {parts : List Json} (formed : ∀ part ∈ parts, Part part) :
    ∀ call ∈ callsOf parts, FunctionCall call := by
  intro call member
  obtain ⟨part, isPart, found⟩ := List.mem_filterMap.mp member
  exact (formed part isPart).call call found

/-- The turn a list of parts stands for. -/
def answeredTurn (parts : List Json) : ModelTurn where
  ok := true
  text := textOf parts
  toolCalls := (callsOf parts).map toolCall

variable {json : JsonText} {errorText : HttpError → String}
  {apiKey model systemInstruction : String}
  {tools : ToolRegistry agents Conversation} {text progress watch : Bool}
  {locals after : Conversation} {history later : List AgentEvent}
  {outcome : Except Exception ModelTurn} {parts : List Json}
  {response : HttpResponse} {steps : List TransferStep}
  {events : List String} {carried : List (List Json)}

/-- Accumulated parts are recorded and read without an exception. -/
theorem finishes_readTurn_of_holds
    {endpoint : Endpoint agents} {accumulated : TurnParts}
    (nonempty : parts ≠ []) (formed : ∀ part ∈ parts, Part part)
    (holds : Holds parts accumulated)
    (reads : Action.Finishes
      (tryCatch (BuiltIn.readTurn .gemini endpoint accumulated) unreadable)
      locals history outcome after) :
    outcome = .ok (answeredTurn parts) ∧
      after =
        { locals with
          entries := locals.entries ++
            [GeminiProvider.contentEntry "model" (.array parts)] } := by
  obtain ⟨-, ends⟩ := BuiltIn.finishes_readTurn reads
  have calls : BuiltIn.readCalls .gemini endpoint.json accumulated =
      .ok ((callsOf parts).map toolCall) := by
    rw [BuiltIn.readCalls, holds.calls,
      mapM_readFunctionCall (functionCall_of_mem_callsOf formed)]
  simp only [BuiltIn.answerRecord?, holds.responseParts, nonempty, if_false]
    at ends
  rw [calls, holds.text] at ends
  exact ends

theorem parts_of_carries
    (carries : List.Forall₂ (CarriesParts json) events carried) :
    ∀ part ∈ carried.flatten, Part part := by
  induction carries with
  | nil => simp
  | cons first _ induction =>
      rw [List.flatten_cons]
      exact List.forall_mem_append.mpr ⟨first.formed, induction⟩

theorem lines_of_carries
    (carries : List.Forall₂ (CarriesParts json) events carried) :
    ∀ event ∈ events, SingleLine event := by
  induction carries with
  | nil => simp
  | cons first _ induction =>
      exact List.forall_mem_cons.mpr ⟨first.line, induction⟩

/-- The absorbed parts of a calm transfer are the parts it carries. -/
theorem holds_of_absorbs
    {received : List AgentEvent} {absorbed : Except Exception HttpResult}
    {streaming : Streaming TurnParts}
    (success : isSuccess response.status = true)
    (carries : List.Forall₂ (CarriesParts json) events carried)
    (sent : SseDecoder.ReturnsInserted (sentStream events)
      (chunksOf steps).flatten)
    (calm : ∀ event ∈ received, Calm event)
    (absorbs : Action.Finishes
      (absorb (parseGeminiStreamChunk json (hostText text))
        (callerFlag watch) (.complete response steps)) fresh received absorbed
      streaming) :
    absorbed = .ok (.ok response) ∧
      Holds carried.flatten streaming.parts := by
  have holds : Action.Holds calmWorld (fun _ => Receiving)
      (fun outcome (after : Streaming TurnParts) _ =>
        outcome = .ok (.ok response) ∧ Holds carried.flatten after.parts)
      (absorb (parseGeminiStreamChunk json (hostText text))
        (callerFlag watch) (.complete response steps)) fresh () :=
    holds_absorb (decodes_parseGeminiStreamChunk (textReturns_calm text))
      (lines_of_carries carries) (flagClear_calm watch) success carries sent
      holds_nil
      fun streaming accumulated => ⟨rfl, accumulated⟩
  exact (Action.Holds.finishes holds absorbs calm).2

/--
Gemini streams are recorded and executed losslessly.

Take a turn of Gemini whose last request was answered by a complete 2xx
response, and behind that request the flag is not found set and the callbacks
return.  Let its chunks divide a stream of events that carry a non-empty list
of well-formed parts.  Then the turn is ok; the history grows by one model
entry with exactly these parts; the text of the turn, and of the deltas that
were shown, is the text of the parts; and the tool calls are the function
calls of the parts, in their order.
-/
theorem gemini_stream_recorded
    (run : ((GeminiProvider.executeTurnRequest (networked json errorText)
      apiKey model systemInstruction tools (hostCallbacks text progress)
      (callerFlag watch)).run.run locals).Runs history
        (.done (outcome, after)))
    (answer : LastAnswer history (.complete response steps) later)
    (success : isSuccess response.status = true)
    (calm : ∀ event ∈ later, Calm event)
    (carries : List.Forall₂ (CarriesParts json) events carried)
    (grouped : carried.flatten = parts) (nonempty : parts ≠ [])
    (sent : SseDecoder.ReturnsInserted (sentStream events)
      (chunksOf steps).flatten) :
    outcome = .ok (answeredTurn parts) ∧
      after =
        { locals with
          entries := locals.entries ++
            [GeminiProvider.contentEntry "model" (.array parts)] } ∧
      (text = true → shownText history = textOf parts) := by
  subst grouped
  have finished : Action.Finishes
      (BuiltIn.executeTurnRequest .gemini (networked json errorText) apiKey
        model systemInstruction tools (hostCallbacks text progress)
        (callerFlag watch)) locals history outcome after :=
    Program.runs_done_iff.mp run
  have formed := parts_of_carries carries
  have behind := finished
  rw [BuiltIn.executeTurnRequest_eq] at behind
  rcases finishes_executeTurn_behind showsOnly_parseStreamChunk
      readsSilently_readTurn success behind answer with
    ⟨received, polls, streaming, read⟩ | ⟨-, interrupted⟩
  · have calmReceived : ∀ event ∈ received, Calm event := by
      intro event member
      exact calm event (read.split ▸ List.mem_append_left _ member)
    obtain ⟨-, holds⟩ :=
      holds_of_absorbs success carries sent calmReceived read.absorbs
    obtain ⟨rfl, rfl⟩ :=
      finishes_readTurn_of_holds nonempty formed holds read.reads
    refine ⟨rfl, rfl, ?_⟩
    rintro rfl
    exact shownText_of_ok finished rfl
  · rcases interrupted with
      ⟨event, member, found⟩ | ⟨failure, streaming, absorbs⟩
    · exact absurd found (calm event member).notSet
    · cases (holds_of_absorbs success carries sent calm absorbs).1

/-! ## A text and a function call -/

/-- A packet whose candidate has one part. -/
def packetOf (part : Json) : Json :=
  .object
    [("candidates",
      .array [.object [("content", .object [("parts", .array [part])])]])]

/-- A part with a text and a member the provider does not know. -/
def signedText : Json :=
  .object [("text", .string "Hi"), ("thoughtSignature", .string "s")]

/-- A part with a function call without an id. -/
def readCall : Json :=
  .object
    [("functionCall",
      .object [("args", .object [("n", .integer 1)]), ("name", .string "f")])]

def signedEvent : String :=
  "\x7b\"candidates\":[\x7b\"content\":\x7b\"parts\":[\x7b\"text\":\"Hi\","
    ++ "\"thoughtSignature\":\"s\"\x7d]\x7d\x7d]\x7d"

def callEvent : String :=
  "[\x7b\"candidates\":[\x7b\"content\":\x7b\"parts\":["
    ++ "\x7b\"functionCall\":\x7b\"args\":\x7b\"n\":1\x7d,"
    ++ "\"name\":\"f\"\x7d\x7d]\x7d\x7d]\x7d,\x7b\x7d]"

/-- A text library that knows the two events. -/
def knownEvents : JsonText :=
  .knowing
    [⟨signedEvent, packetOf signedText, by decide +kernel⟩,
      ⟨callEvent, .array [packetOf readCall, .object []], by decide +kernel⟩]

/-- The first event in two chunks, the second one in a chunk of its own. -/
def eventChunks : List TransferStep :=
  [.chunk ((sentEvent signedEvent).take 9), .progress,
    .chunk ((sentEvent signedEvent).drop 9), .chunk (sentEvent callEvent)]

/-- A provider that streams the two events. -/
def streamsParts : List AgentEvent → (op : AgentOp) → agents.Answer op
  | _, .send _ => Transfer.complete { status := 200 } eventChunks
  | _, op => quiet op

/-- A turn of Gemini, run against `streamsParts`. -/
def partsRun : List AgentEvent × (Except Exception ModelTurn × Conversation) :=
  Program.scripted streamsParts
    ((GeminiProvider.executeTurnRequest
      (networked knownEvents fun _ => "error") "key" "model" "" {}
      (hostCallbacks false false) (callerFlag false)).run.run {})
    []

theorem lastAnswer_partsRun :
    LastAnswer partsRun.1 (.complete { status := 200 } eventChunks) [] :=
  .of_only (by decide +kernel)

theorem parse_signedEvent :
    knownEvents.parse signedEvent = .ok (packetOf signedText) := by
  exact JsonText.parse_knowing (by decide +kernel) List.mem_cons_self

theorem parse_callEvent :
    knownEvents.parse callEvent =
      .ok (.array [packetOf readCall, .object []]) := by
  exact JsonText.parse_knowing (by decide +kernel) (by simp)

theorem part_signedText : Part signedText where
  object := ⟨_, rfl⟩
  text := by
    rintro text ⟨⟩
    exact ⟨_, rfl⟩
  call := nofun

theorem part_readCall : Part readCall where
  object := ⟨_, rfl⟩
  text := nofun
  call := by
    rintro call ⟨⟩
    exact ⟨⟨_, rfl⟩, ⟨_, rfl⟩, nofun⟩

theorem carries_events :
    List.Forall₂ (CarriesParts knownEvents) [signedEvent, callEvent]
      [[signedText], [readCall]] := by
  refine .cons ?_ (.cons ?_ .nil)
  · exact ⟨⟨by decide +kernel, by decide +kernel, by decide +kernel⟩,
      ⟨_, parse_signedEvent, rfl⟩, by simp [part_signedText]⟩
  · exact ⟨⟨by decide +kernel, by decide +kernel, by decide +kernel⟩,
      ⟨_, parse_callEvent, rfl⟩, by simp [part_readCall]⟩

theorem sent_eventChunks :
    SseDecoder.ReturnsInserted (sentStream [signedEvent, callEvent])
      (chunksOf eventChunks).flatten := by
  have same : (chunksOf eventChunks).flatten =
      sentStream [signedEvent, callEvent] := by
    simp only [chunksOf, eventChunks, sentStream, List.filterMap_cons,
      List.filterMap_nil, List.flatten_cons, List.flatten_nil, List.map_cons,
      List.map_nil]
    rw [← List.append_assoc, List.take_append_drop]
  rw [same]
  exact .refl _

/-- The turn of the run: one text and one call, recorded as they came. -/
theorem gemini_stream_recorded_partsRun :
    partsRun.2.1 = .ok (answeredTurn [signedText, readCall]) ∧
      partsRun.2.2.entries =
        [GeminiProvider.contentEntry "model"
          (.array [signedText, readCall])] := by
  obtain ⟨returns, records, -⟩ :=
    gemini_stream_recorded (Program.runs_scripted_pair streamsParts _)
      lastAnswer_partsRun rfl (by simp) carries_events rfl (by simp)
      sent_eventChunks
  exact ⟨returns, congrArg Conversation.entries records⟩

end ArnCore.Provider.GeminiStream
