import ArnCore.Provider.CompleteResponse

/-!
# Errors inside a stream

The parser of OpenRouter skips a packet with an error and tells nobody.  What
becomes of a turn whose stream reported an error is therefore decided by the
transfer alone: a complete response is read, and what had arrived beside the
error is recorded as the answer.
-/

namespace ArnCore.Provider.ErrorPackets

open ArnCore.Agent.Environment
open ArnCore.Collections
open ArnCore.Interaction
open ArnCore.Net
open ArnCore.Net.EventStream
open ArnCore.Provider.BuiltInTurn
open ArnCore.Provider.ChatStream
open ArnCore.Provider.CompleteResponse
open ArnCore.Provider.LastRequest
open ArnCore.Provider.RetriedTurn
open ArnCore.Provider.SingleAttempt
open ArnCore.Provider.StreamedCalls
open ArnCore.Tool

/-- The pieces in which the response of a transfer arrived. -/
def stepsOf : Transfer → List TransferStep
  | .failed _ => []
  | .broken _ steps _ => steps
  | .complete _ steps => steps

/-- A stream of events, one of which is or contains a packet with an error. -/
structure ReportsError (json : JsonText) (steps : List TransferStep)
    (events : List String) : Prop where
  lines : ∀ event ∈ events, SingleLine event
  sent : SseDecoder.ReturnsInserted (sentStream events)
    (chunksOf steps).flatten
  error : ∃ event ∈ events, ∃ parsed, json.parse event = .ok parsed ∧
    ∃ packet ∈ packets parsed, packet.contains "error" = true

/-- An assistant message was appended to the history. -/
def RecordsAnswer (locals after : Conversation) : Prop :=
  ∃ added, after.entries = locals.entries ++ added ∧
    ∃ message ∈ added, message.find? "role" = some (.string "assistant")

/-- The turn is not ok and leaves no assistant message behind. -/
structure Fails (locals : Conversation) (outcome : Except Exception ModelTurn)
    (after : Conversation) : Prop where
  notOk : ∀ turn, outcome = .ok turn → turn.ok = false
  unrecorded : ¬ RecordsAnswer locals after

theorem fails_of_unanswered
    {locals after : Conversation} {history : List AgentEvent}
    {outcome : Except Exception ModelTurn}
    (unanswered : Unanswered locals history outcome after) :
    Fails locals outcome after where
  notOk := unanswered.failed
  unrecorded := by
    rintro ⟨added, same, message, member, -⟩
    rw [unanswered.unchanged] at same
    have nothing : added = [] := by simpa using same
    subst nothing
    cases member

/-! ## Transfers that broke off -/

section Broken

variable {json : JsonText} {parse : String → Walk agents} {path : String}
  {headers : List (String × String)} {payload : Json} {watch : Bool}
  {history : List AgentEvent}

/-- Only a complete transfer is received as a response. -/
theorem complete_of_absorb
    {before after : Streaming TurnParts} {transfer : Transfer}
    {response : HttpResponse}
    (run : Action.Finishes (absorb parse (callerFlag watch) transfer) before
      history (.ok (.ok response)) after) :
    ∃ steps, transfer = .complete response steps := by
  cases transfer with
  | failed error =>
      obtain ⟨-, impossible, -⟩ := Action.finishes_pure.mp run
      cases impossible
  | broken status steps error =>
      obtain ⟨first, later, received, between, -, -, returns⟩ :=
        Action.finishes_bind_ok.mp run
      cases received with
      | none =>
          obtain ⟨-, impossible, -⟩ := Action.finishes_pure.mp returns
          cases impossible
      | some pending =>
          obtain ⟨-, impossible, -⟩ := Action.finishes_pure.mp returns
          cases impossible
  | complete answered steps =>
      rcases finishes_absorb_complete run with same | ⟨impossible, -⟩
      · cases same
        exact ⟨steps, rfl⟩
      · cases impossible

/-- A streamed response was the complete answer to the last request. -/
theorem lastAnswer_of_streamTurn
    {Locals : Type} {locals left : Locals} {text progress : Bool}
    {maxAttempts : Int} {response : HttpResponse}
    {streaming : Streaming TurnParts}
    (shows : ShowsOnly parse)
    (run : Action.Finishes (streamTurn network
      (attemptRequest json parse path headers payload watch)
      (hostCallbacks text progress) (callerFlag watch) maxAttempts)
      locals history (.ok (.ok response, streaming)) left) :
    ∃ steps later, LastAnswer history (.complete response steps) later := by
  obtain ⟨retried, last, rfl, -, -, notice, request, decision, rfl, around,
    single⟩ := finishes_streamTurn run
  rcases finishes_attemptRequest single.finishes with
    ⟨-, failure, impossible⟩ | ⟨sent, transfer, received, rfl, absorbs⟩
  · cases impossible
  obtain ⟨steps, rfl⟩ := complete_of_absorb absorbs
  have silent : ∀ event ∈ received ++ decision, ¬ IsSend event := by
    refine List.forall_mem_append.mpr ⟨fun event member => ?_,
      fun event member => ?_⟩
    · exact not_isSend_of_receiving
        (receiving_of_absorb shows absorbs event member)
    · exact not_isSend_of_around
        (around event (List.mem_append_right _ member))
  refine ⟨steps, received ++ decision,
    ⟨(retried.map Attempt.events).flatten ++ notice, sent, ?_⟩, silent⟩
  simp only [List.append_assoc, List.cons_append]

end Broken

/-! ## Turns of OpenRouter -/

section Turns

variable {json : JsonText} {errorText : HttpError → String}
  {config : OpenRouterConfig} {apiKey model : String}
  {tools : ToolRegistry agents Conversation} {text progress watch : Bool}
  {locals after : Conversation} {history later : List AgentEvent}
  {outcome : Except Exception ModelTurn} {transfer : Transfer}

theorem showsOnly_parseOpenrouter :
    ShowsOnly (parseOpenrouterStreamChunk json (hostText text)) :=
  @showsOnly_parseStreamChunk (.chat (.openRouter {})) json text

theorem readsSilently_readChatTurn {endpoint : Endpoint agents} :
    ReadsSilently (readChatTurn endpoint) :=
  @readsSilently_readTurn (.chat .deepSeek) endpoint

/-- Behind a transfer that broke off a turn is left unanswered. -/
theorem unanswered_of_broken
    {status : Int} {steps : List TransferStep} {error : HttpError}
    (run : Action.Finishes
      (OpenRouterProvider.executeTurnRequest (networked json errorText) config
        apiKey model tools (hostCallbacks text progress) (callerFlag watch))
      locals history outcome after)
    (answer : LastAnswer history (.broken status steps error) later) :
    Unanswered locals history outcome after := by
  rcases finishes_executeTurn run with
    unanswered |
    ⟨transport, check, streamed, recheck, reading, response, streaming,
      client, rfl, answered, reads⟩
  · exact unanswered
  cases client
  obtain rfl := readsSilently_readChatTurn reads
  have clear := List.forall_mem_append.mp answered.clear
  obtain ⟨steps, behind, complete⟩ :=
    lastAnswer_of_streamTurn showsOnly_parseOpenrouter answered.streams
  have silent : ∀ event ∈ recheck ++ [], ¬ IsSend event := by
    rw [List.append_nil]
    exact fun event member => not_isSend_of_foundClear (clear.2 event member)
  cases answer.unique (complete.append_silent silent).append_left

/-- Reading a chat answer records it, whatever its calls are. -/
theorem recordsAnswer_of_reads
    {endpoint : Endpoint agents} {parts : TurnParts}
    (reads : Action.Finishes (tryCatch (readChatTurn endpoint parts) unreadable)
      locals history outcome after) :
    RecordsAnswer locals after := by
  obtain ⟨-, -, rfl⟩ := BuiltIn.finishes_recorded reads
  refine ⟨[assistantMessage parts], rfl, _, List.mem_singleton_self _, ?_⟩
  rw [assistantMessage, Json.find?_ofMembers]
  by_cases called : parts.calls = []
  · simp [called, OrderedMap.find?_cons]
  · simp [called, OrderedMap.find?_cons]

/--
When an error inside a stream fails the turn.

Take a turn of OpenRouter whose last request was answered with a 2xx status by
a stream, whatever its events are; one of them may report an error.  The turn
fails, and no assistant message is recorded, exactly when the transfer broke
off, or the flag was found set while the response arrived or by the last check,
or the callback for text threw a foreign exception.  So a reported error has no
part in it.
-/
theorem reported_error_fails_iff
    (standard : StandardErrors json)
    (run : ((OpenRouterProvider.executeTurnRequest (networked json errorText)
      config apiKey model tools (hostCallbacks text progress)
      (callerFlag watch)).run.run locals).Runs history
        (.done (outcome, after)))
    (answer : LastAnswer history transfer later)
    (success : succeeded transfer = true) :
    Fails locals outcome after ↔
      (∃ status steps error, transfer = .broken status steps error) ∨
        Disturbed (stepsOf transfer).length later := by
  have finished := Program.runs_done_iff.mp run
  cases transfer with
  | failed error => cases success
  | broken status steps error =>
      have fails := fails_of_unanswered (unanswered_of_broken finished answer)
      exact ⟨fun _ => Or.inl ⟨_, _, _, rfl⟩, fun _ => fails⟩
  | complete response steps =>
      rcases finishes_executeTurn_complete showsOnly_parseOpenrouter
          readsSilently_readChatTurn
          (reports_parseStreamChunk standard (.openRouter config) text)
          success finished answer with
        ⟨undisturbed, received, polls, streaming, behind⟩ |
        ⟨disturbed, unanswered⟩
      · constructor
        · intro fails
          exact absurd (recordsAnswer_of_reads behind.reads) fails.unrecorded
        · rintro (⟨_, _, _, impossible⟩ | disturbed)
          · cases impossible
          · exact absurd disturbed undisturbed
      · exact ⟨fun _ => Or.inr disturbed,
          fun _ => fails_of_unanswered unanswered⟩

end Turns

/-! ## A text, an error and the end marker -/

/-- A packet with a part of an answer. -/
def partialPacket : Json :=
  .object
    [("choices",
      .array [.object [("delta", .object [("content", .string "Hel")])]])]

/-- A packet with an error. -/
def errorPacket : Json :=
  .object [("error", .object [("message", .string "overloaded")])]

def partialEvent : String :=
  "\x7b\"choices\":[\x7b\"delta\":\x7b\"content\":\"Hel\"\x7d\x7d]\x7d"

def errorEvent : String :=
  "\x7b\"error\":\x7b\"message\":\"overloaded\"\x7d\x7d"

/-- A text library that knows the two events. -/
def knownError : JsonText :=
  .knowing
    [⟨partialEvent, partialPacket, by decide +kernel⟩,
      ⟨errorEvent, errorPacket, by decide +kernel⟩]

/-- The two events and the end marker in one chunk. -/
def errorChunks : List TransferStep :=
  [.chunk (sentStream [partialEvent, errorEvent, "[DONE]"])]

/-- A provider that reports an error behind a part of its answer. -/
def reportsError : List AgentEvent → (op : AgentOp) → agents.Answer op
  | _, .send _ => Transfer.complete { status := 200 } errorChunks
  | _, op => quiet op

/-- A turn of OpenRouter, run against `reportsError`. -/
def errorRun : List AgentEvent × (Except Exception ModelTurn × Conversation) :=
  Program.scripted reportsError
    ((OpenRouterProvider.executeTurnRequest
      (networked knownError fun _ => "error") {} "key" "model" {}
      (hostCallbacks false false) (callerFlag false)).run.run {})
    []

/-- Whether a turn was returned that is ok. -/
def returnsOk : Except Exception ModelTurn → Bool
  | .ok turn => turn.ok
  | .error _ => false

theorem Fails.returnsOk
    {locals after : Conversation} {outcome : Except Exception ModelTurn}
    (fails : Fails locals outcome after) : returnsOk outcome = false := by
  cases outcome with
  | ok turn => exact fails.notOk turn rfl
  | error failure => rfl

theorem lastAnswer_errorRun :
    LastAnswer errorRun.1 (.complete { status := 200 } errorChunks) [] :=
  .of_only (by decide +kernel)

theorem reportsError_errorChunks :
    ReportsError knownError errorChunks
      [partialEvent, errorEvent, "[DONE]"] where
  lines := by
    have single : ∀ event ∈ [partialEvent, errorEvent, "[DONE]"],
        event ≠ "" ∧ '\n' ∉ event.toList ∧ '\r' ∉ event.toList := by
      decide +kernel
    intro event member
    obtain ⟨nonempty, noNewline, noReturn⟩ := single event member
    exact ⟨nonempty, noNewline, noReturn⟩
  sent := by
    have same : (chunksOf errorChunks).flatten =
        sentStream [partialEvent, errorEvent, "[DONE]"] := by
      simp [chunksOf, errorChunks]
    rw [same]
    exact .refl _
  error := by
    refine ⟨errorEvent, by simp, errorPacket, ?_, errorPacket, ?_, rfl⟩
    · exact JsonText.parse_knowing (by decide +kernel) (by simp)
    · exact List.mem_singleton_self _

/-- The stream of the run reports an error, and yet the turn does not fail. -/
theorem reported_error_succeeds :
    LastAnswer errorRun.1 (.complete { status := 200 } errorChunks) [] ∧
      ReportsError knownError errorChunks
        [partialEvent, errorEvent, "[DONE]"] ∧
      ¬ Fails {} errorRun.2.1 errorRun.2.2 := by
  refine ⟨lastAnswer_errorRun, reportsError_errorChunks, ?_⟩
  intro fails
  have succeeds : returnsOk errorRun.2.1 = true := by decide +kernel
  rw [fails.returnsOk] at succeeds
  cases succeeds

/-- The turn of the run does not fail, as nothing disturbs it. -/
theorem reported_error_fails_iff_errorRun :
    ¬ Fails {} errorRun.2.1 errorRun.2.2 := by
  have standard : StandardErrors knownError :=
    JsonText.parse_knowing_not_foreign
  have fails := reported_error_fails_iff standard
    (Program.runs_scripted_pair reportsError _) lastAnswer_errorRun rfl
  refine fails.not.mpr ?_
  rintro (⟨_, _, _, impossible⟩ | disturbed)
  · cases impossible
  · rcases disturbed with (early | last) | ⟨event, member, -⟩
    · simp [flagReads] at early
    · simp [flagReads] at last
    · cases member

end ArnCore.Provider.ErrorPackets
