import ArnCore.Provider.SentRequests

/-!
# The dialogue of a prompt

A prompt over a built-in provider is a dialogue with the model.  Every request
carries the conversation so far.  The answer that was streamed is recorded
behind it; its calls are executed, and their results are recorded behind the
answer before the next request.  `Dialogue` says this without the session and
the provider; a prompt is a dialogue whose first conversation is the trimmed
history with the prompt behind it.
-/

namespace ArnCore.Provider.PromptDialogue

open ArnCore.Agent
open ArnCore.Agent.Environment
open ArnCore.Agent.PromptCourse
open ArnCore.Interaction
open ArnCore.Interaction.Action
open ArnCore.Net
open ArnCore.Provider.BuiltInTurn
open ArnCore.Provider.FailedStart
open ArnCore.Provider.LastRequest
open ArnCore.Provider.ModelDiscovery
open ArnCore.Provider.ProviderSession
open ArnCore.Provider.RetriedTurn
open ArnCore.Provider.SentRequests
open ArnCore.Provider.SingleAttempt
open ArnCore.Provider.StreamedCalls
open ArnCore.Tool

/-! ## Prompting -/

/-- A session, its instruction, and what a prompt is given besides its text. -/
structure Prompting where
  setup : SessionSetup
  instruction : String
  text : Bool
  progress : Bool
  watch : Bool

namespace Prompting

variable (prompting : Prompting)

abbrev callbacks : StreamCallbacks agents :=
  hostCallbacks prompting.text prompting.progress

abbrev cancel : CancelFlag agents :=
  callerFlag prompting.watch

abbrev session : AgentSession agents Conversation :=
  prompting.setup.session prompting.instruction

/-- The payload of a request that carries a conversation. -/
abbrev payload (conversation : Conversation) : Json :=
  prompting.setup.payload prompting.instruction conversation

/-- The requests of one turn, with their retries. -/
abbrev streams (conversation : Conversation) :
    Action agents Conversation (HttpResult × Streaming TurnParts) :=
  streamTurn network
    (turnRequest prompting.setup.json network
      (prompting.setup.kind.parseStreamChunk prompting.setup.json
        (hostText prompting.text))
      (prompting.setup.kind.path prompting.setup.activeModel)
      (prompting.setup.kind.headers prompting.setup.apiKey)
      (prompting.payload conversation) prompting.cancel)
    prompting.callbacks prompting.cancel maxRequestAttempts

/-- The tools that are called for one answer. -/
abbrev executes (calls : List ToolCall) :
    Action agents Conversation (Option (List ToolResponse)) :=
  AgentSession.runCalls prompting.session prompting.setup.registry
    prompting.callbacks prompting.cancel calls []

end Prompting

/-! ## Dialogues -/

/-- How many requests are sent. -/
def requestCount (history : List AgentEvent) : Nat :=
  history.countP fun event => decide (IsSend event)

/-- The requests of a turn carry the conversation, and there are few of them. -/
structure Asking (prompting : Prompting) (conversation : Conversation)
    (history : List AgentEvent) : Prop where
  carries : ∀ event ∈ history,
    Sends (fun request => request.payload = prompting.payload conversation)
      event.op
  few : (requestCount history : Int) ≤ maxRequestAttempts

/-- A successful response to a request of the turn streamed these parts. -/
def Heard (prompting : Prompting) (conversation : Conversation)
    (history : List AgentEvent) (parts : TurnParts) : Prop :=
  ∃ before streamed behind response streaming,
    history = before ++ (streamed ++ behind) ∧
      Finishes (prompting.streams conversation) conversation streamed
        (.ok (.ok response, streaming)) conversation ∧
      isSuccess response.status = true ∧ streaming.parts = parts

/-- An answer of the model whose calls were executed, and what was recorded. -/
structure Exchange where
  asked : List AgentEvent
  parts : TurnParts
  entry : Json
  calls : List ToolCall
  executed : List AgentEvent
  responses : List ToolResponse
  answers : List Json

/-- What an exchange adds to the conversation. -/
def Exchange.entries (exchange : Exchange) : List Json :=
  exchange.entry :: exchange.answers

/-- The answer is heard, recorded and read, and its calls are answered. -/
structure Exchange.Holds (prompting : Prompting) (conversation : Conversation)
    (exchange : Exchange) : Prop where
  asks : Asking prompting conversation exchange.asked
  heard : Heard prompting conversation exchange.asked exchange.parts
  records :
    prompting.setup.kind.answerRecord? exchange.parts = some exchange.entry
  reads : prompting.setup.kind.readCalls prompting.setup.json exchange.parts =
    .ok exchange.calls
  pending : exchange.calls ≠ []
  executes : Finishes (prompting.executes exchange.calls)
    (extended conversation [exchange.entry]) exchange.executed
    (.ok (some exchange.responses)) (extended conversation [exchange.entry])
  unsent : Unsent exchange.executed
  answered : Answers prompting.setup exchange.responses exchange.answers

/--
What a dialogue leaves behind its last request: nothing, or the answer to it,
and behind that results of its calls when not all of them could be dumped.
-/
inductive Leftover (prompting : Prompting) (conversation : Conversation)
    (history : List AgentEvent) : List Json → Prop where
  | nothing : Leftover prompting conversation history []
  | answer {parts : TurnParts} {entry : Json} {responses : List ToolResponse}
      {answers : List Json} (heard : Heard prompting conversation history parts)
      (records : prompting.setup.kind.answerRecord? parts = some entry)
      (each : List.Forall₂ (AnsweredBy prompting.setup.json) responses
        answers) :
      Leftover prompting conversation history (entry :: answers)

/-- A result that is not ok, or an exception. -/
def NotOk (outcome : Except Exception ApiResult) : Prop :=
  ∀ result, outcome = .ok result → result.ok = false

/-- A dialogue from the conversation that its first request carries. -/
inductive Dialogue (prompting : Prompting) :
    Conversation → List Exchange → List AgentEvent →
      Except Exception ApiResult → Conversation → Prop where
  | answered {conversation : Conversation} {history : List AgentEvent}
      {parts : TurnParts} {entry : Json}
      (asks : Asking prompting conversation history)
      (heard : Heard prompting conversation history parts)
      (records : prompting.setup.kind.answerRecord? parts = some entry)
      (reads : prompting.setup.kind.readCalls prompting.setup.json parts =
        .ok []) :
      Dialogue prompting conversation [] history
        (.ok { ok := true, message := parts.text })
        (extended conversation [entry])
  | left {conversation : Conversation} {history : List AgentEvent}
      {outcome : Except Exception ApiResult} {recorded : List Json}
      (asks : Asking prompting conversation history) (failed : NotOk outcome)
      (leftover : Leftover prompting conversation history recorded) :
      Dialogue prompting conversation [] history outcome
        (extended conversation recorded)
  | exchanged {conversation after : Conversation} {exchange : Exchange}
      {exchanges : List Exchange} {later : List AgentEvent}
      {outcome : Except Exception ApiResult}
      (holds : exchange.Holds prompting conversation)
      (rest : Dialogue prompting (extended conversation exchange.entries)
        exchanges later outcome after) :
      Dialogue prompting conversation (exchange :: exchanges)
        (exchange.asked ++ (exchange.executed ++ later)) outcome after


/-! ## Parts of a dialogue -/

section Parts

variable {prompting : Prompting} {conversation : Conversation}
  {first later history : List AgentEvent} {parts : TurnParts}

theorem requestCount_append :
    requestCount (first ++ later) =
      requestCount first + requestCount later :=
  List.countP_append

theorem requestCount_eq_zero_iff :
    requestCount history = 0 ↔ Unsent history := by
  simp [requestCount, Unsent, List.countP_eq_zero]

theorem Asking.prepend
    (asks : Asking prompting conversation later) (unsent : Unsent first) :
    Asking prompting conversation (first ++ later) where
  carries := List.forall_mem_append.mpr ⟨unsent.sends, asks.carries⟩
  few := by
    rw [requestCount_append, requestCount_eq_zero_iff.mpr unsent, Nat.zero_add]
    exact asks.few

theorem Asking.append
    (asks : Asking prompting conversation first) (unsent : Unsent later) :
    Asking prompting conversation (first ++ later) where
  carries := List.forall_mem_append.mpr ⟨asks.carries, unsent.sends⟩
  few := by
    rw [requestCount_append, requestCount_eq_zero_iff.mpr unsent, Nat.add_zero]
    exact asks.few

theorem Heard.prepend
    (heard : Heard prompting conversation history parts) :
    Heard prompting conversation (first ++ history) parts := by
  obtain ⟨before, streamed, behind, response, streaming, rfl, streams⟩ := heard
  exact ⟨first ++ before, streamed, behind, response, streaming, by simp,
    streams⟩

theorem Heard.append
    (heard : Heard prompting conversation history parts) :
    Heard prompting conversation (history ++ later) parts := by
  obtain ⟨before, streamed, behind, response, streaming, rfl, streams⟩ := heard
  exact ⟨before, streamed, behind ++ later, response, streaming, by simp,
    streams⟩

theorem Leftover.prepend
    {recorded : List Json}
    (leftover : Leftover prompting conversation history recorded) :
    Leftover prompting conversation (first ++ history) recorded := by
  cases leftover with
  | nothing => exact .nothing
  | answer heard records each => exact .answer heard.prepend records each

theorem Leftover.append
    {recorded : List Json}
    (leftover : Leftover prompting conversation history recorded) :
    Leftover prompting conversation (history ++ later) recorded := by
  cases leftover with
  | nothing => exact .nothing
  | answer heard records each => exact .answer heard.append records each

theorem unsent_append
    (unsent : Unsent first) (also : Unsent later) : Unsent (first ++ later) :=
  List.forall_mem_append.mpr ⟨unsent, also⟩

/-- A check of the flag sends nothing. -/
theorem unsent_of_clear
    (clear : ∀ event ∈ history, FoundClear event) : Unsent history :=
  fun event member => not_isSend_of_foundClear (clear event member)

theorem unsent_set : Unsent [⟨AgentOp.load .cancelled, true⟩] := by
  intro event member
  rw [List.mem_singleton.mp member, isSend_iff]
  exact Bool.false_ne_true

/-- A check of the flag changes nothing and sends nothing. -/
theorem finishes_flag
    {Locals : Type} {locals after : Locals} {watch : Bool}
    {outcome : Except Exception Bool}
    (run : Finishes (isSet (callerFlag watch)) locals history outcome after) :
    after = locals ∧ Unsent history ∧ ∃ stop, outcome = .ok stop := by
  obtain ⟨same, ⟨rfl, clear⟩ | ⟨rfl, rfl⟩⟩ := finishes_check run
  · exact ⟨same, unsent_of_clear clear, false, rfl⟩
  · exact ⟨same, unsent_set, true, rfl⟩

/-- Calling tools sends nothing and leaves the conversation alone. -/
theorem finishes_executes
    {calls : List ToolCall} {after : Conversation}
    {outcome : Except Exception (Option (List ToolResponse))}
    (run : Finishes (prompting.executes calls) conversation history outcome
      after) :
    after = conversation ∧ Unsent history := by
  have undisturbed := @undisturbed (fun _ => True)
    (fun event => ¬ IsSend event) (· = conversation) (fun _ other => other)
    prompting.setup prompting.instruction prompting.text prompting.progress
    prompting.watch
  obtain ⟨unsent, same, -⟩ :=
    ensures_runCalls undisturbed rfl calls [] run fun _ _ => trivial
  exact ⟨same, unsent⟩

end Parts

/-! ## Single turns -/

/-- A request leaves the conversation alone, or its answer is recorded. -/
inductive Turned (prompting : Prompting) (conversation : Conversation)
    (history : List AgentEvent) :
    Except Exception ModelTurn → Conversation → Prop where
  | unanswered {outcome : Except Exception ModelTurn}
      (failed : ∀ turn, outcome = .ok turn → turn.ok = false) :
      Turned prompting conversation history outcome conversation
  | recorded {parts : TurnParts} {entry : Json}
      (heard : Heard prompting conversation history parts)
      (records : prompting.setup.kind.answerRecord? parts = some entry) :
      Turned prompting conversation history
        (BuiltIn.recordedOutcome parts.text
          (prompting.setup.kind.readCalls prompting.setup.json parts))
        (extended conversation [entry])

section Turns

variable {prompting : Prompting} {conversation after : Conversation}
  {first history : List AgentEvent}

section Counting

variable {json : JsonText} {onEvent : String → Walk agents} {path : String}
  {headers : List (String × String)} {payload : Json} {watch : Bool}

theorem unsent_of_around
    (around : ∀ event ∈ history, AroundRequests event) : Unsent history :=
  fun event member => not_isSend_of_around (around event member)

/-- An attempt sends one request at most. -/
theorem requestCount_single
    {outcome : Except Exception HttpResult} {streaming : Streaming TurnParts}
    (shows : ShowsOnly onEvent)
    (single : SingleRequest json onEvent path headers payload watch history
      outcome streaming) :
    requestCount history ≤ 1 := by
  rcases finishes_attemptRequest single.finishes with
    ⟨rfl, -⟩ | ⟨request, transfer, received, rfl, absorbs⟩
  · simp [requestCount]
  · have unsent : Unsent received := fun event member =>
      not_isSend_of_receiving (receiving_of_absorb shows absorbs event member)
    have rest := requestCount_eq_zero_iff.mpr unsent
    unfold requestCount at rest ⊢
    rw [List.countP_cons, rest]
    split_ifs <;> omega

/-- Around its attempt nothing is sent. -/
theorem requestCount_around
    {notice request decision : List AgentEvent}
    (around : ∀ event ∈ notice ++ decision, AroundRequests event)
    (few : requestCount request ≤ 1) :
    requestCount (notice ++ request ++ decision) ≤ 1 := by
  obtain ⟨before, behind⟩ := List.forall_mem_append.mp around
  rw [requestCount_append, requestCount_append,
    requestCount_eq_zero_iff.mpr (unsent_of_around before),
    requestCount_eq_zero_iff.mpr (unsent_of_around behind)]
  omega

theorem requestCount_endsWith
    {outcome : Except Exception HttpResult} {streaming : Streaming TurnParts}
    (shows : ShowsOnly onEvent)
    (ends : EndsWith json onEvent path headers payload watch history outcome
      streaming) :
    requestCount history ≤ 1 := by
  obtain ⟨notice, request, decision, rfl, around, ended⟩ := ends
  refine requestCount_around around ?_
  cases outcome with
  | ok response => exact requestCount_single shows ended
  | error failure =>
      rcases ended with ⟨rfl | ⟨_, _, single⟩, -⟩ | ⟨_, single⟩
      · simp [requestCount]
      · exact requestCount_single shows single
      · exact requestCount_single shows single

theorem requestCount_retried
    (shows : ShowsOnly onEvent) {retried : List Attempt}
    (each : ∀ attempt ∈ retried,
      Retried json onEvent path headers payload watch attempt) :
    requestCount (retried.map Attempt.events).flatten ≤ retried.length := by
  induction retried with
  | nil => simp [requestCount]
  | cons attempt retried induction =>
      obtain ⟨first, others⟩ := List.forall_mem_cons.mp each
      have one : requestCount attempt.events ≤ 1 :=
        requestCount_around first.around
          (requestCount_single shows first.single)
      have rest := induction others
      rw [List.map_cons, List.flatten_cons, requestCount_append,
        List.length_cons]
      omega

/-- A turn sends as many requests as it makes attempts. -/
theorem requestCount_streamTurn
    {Locals : Type} {locals left : Locals} {text progress : Bool}
    {outcome : Except Exception (HttpResult × Streaming TurnParts)}
    (shows : ShowsOnly onEvent)
    (run : Finishes (streamTurn network
      (turnRequest json network onEvent path headers payload
        (callerFlag watch))
      (hostCallbacks text progress) (callerFlag watch) maxRequestAttempts)
      locals history outcome left) :
    (requestCount history : Int) ≤ maxRequestAttempts := by
  obtain ⟨retried, last, rfl, bound, each, ends⟩ := finishes_streamTurn run
  have few := requestCount_retried shows each
  have one : requestCount last ≤ 1 := by
    cases outcome with
    | ok received =>
        obtain ⟨response, streaming⟩ := received
        have ended : EndsWith json onEvent path headers payload watch last
            (.ok response) streaming := ends
        exact requestCount_endsWith shows ended
    | error failure =>
        obtain ⟨streaming, ends⟩ := ends
        exact requestCount_endsWith shows ends
  rw [requestCount_append]
  change (retried.length : Int) + 1 ≤ max 1 3 at bound
  change ((_ : Nat) : Int) ≤ 3
  omega

end Counting

/-- A turn function sends what its attempts send. -/
theorem requestCount_request
    {outcome : Except Exception ModelTurn}
    (run : Finishes
      (request prompting.setup prompting.instruction prompting.text
        prompting.progress prompting.watch) conversation history outcome
      after) :
    (requestCount history : Int) ≤ maxRequestAttempts := by
  rw [request, BuiltIn.executeTurnRequest_eq] at run
  have shows := @showsOnly_parseStreamChunk prompting.setup.kind
    prompting.setup.json prompting.text
  have between : ∀ {check streamed recheck : List AgentEvent}, Unsent check →
      Unsent recheck → (requestCount streamed : Int) ≤ maxRequestAttempts →
        (requestCount (check ++ (streamed ++ recheck)) : Int) ≤
          maxRequestAttempts := by
    intro check streamed recheck before behind few
    rw [requestCount_append, requestCount_append,
      requestCount_eq_zero_iff.mpr before, requestCount_eq_zero_iff.mpr behind]
    simpa using few
  cases exit_of_executeTurn run with
  | uninitialized => exact Int.le_of_lt_add_one (by decide)
  | stopped => exact Int.le_of_lt_add_one (by decide)
  | threw client clear streams =>
      cases client
      have nothing : Unsent [] := by simp [Unsent]
      simpa using between (unsent_of_clear clear) nothing
        (requestCount_streamTurn shows streams)
  | cancelled client clear streams =>
      cases client
      exact between (unsent_of_clear clear) unsent_set
        (requestCount_streamTurn shows streams)
  | unsuccessful client clear streams failed =>
      cases client
      obtain ⟨before, behind⟩ := List.forall_mem_append.mp clear
      exact between (unsent_of_clear before) (unsent_of_clear behind)
        (requestCount_streamTurn shows streams)
  | answered client answered reads =>
      cases client
      obtain ⟨before, behind⟩ := List.forall_mem_append.mp answered.clear
      obtain ⟨rfl, -⟩ := BuiltIn.finishes_readTurn reads
      rw [List.append_nil]
      exact between (unsent_of_clear before) (unsent_of_clear behind)
        (requestCount_streamTurn shows answered.streams)

theorem Turned.prepend
    {outcome : Except Exception ModelTurn}
    (turned : Turned prompting conversation history outcome after) :
    Turned prompting conversation (first ++ history) outcome after := by
  cases turned with
  | unanswered failed => exact .unanswered failed
  | recorded heard records => exact .recorded heard.prepend records

/-- A turn that is ok was recorded, and its calls were read. -/
theorem Turned.of_ok
    {turn : ModelTurn} (ok : turn.ok = true)
    (turned : Turned prompting conversation history (.ok turn) after) :
    ∃ parts entry, Heard prompting conversation history parts ∧
      prompting.setup.kind.answerRecord? parts = some entry ∧
      prompting.setup.kind.readCalls prompting.setup.json parts =
        .ok turn.toolCalls ∧
      turn.text = parts.text ∧ after = extended conversation [entry] := by
  generalize ended : (.ok turn : Except Exception ModelTurn) = outcome at turned
  cases turned with
  | unanswered failed =>
      rw [failed turn ended.symm] at ok
      cases ok
  | @recorded parts entry heard records =>
      cases read : prompting.setup.kind.readCalls prompting.setup.json
        parts with
      | ok calls =>
          rw [read] at ended
          cases ended
          exact ⟨parts, entry, heard, records, read, rfl, rfl⟩
      | error failure =>
          rw [read] at ended
          cases failure with
          | standard what =>
              cases ended
              cases ok
          | foreign => cases ended

/-- What a turn leaves when nothing follows it. -/
theorem Turned.leftover
    {outcome : Except Exception ModelTurn}
    (turned : Turned prompting conversation history outcome after) :
    ∃ recorded, after = extended conversation recorded ∧
      Leftover prompting conversation history recorded := by
  cases turned with
  | unanswered failed =>
      exact ⟨[], by simp [extended], .nothing⟩
  | recorded heard records => exact ⟨_, rfl, .answer heard records .nil⟩

/-- A request carries the conversation, and its answer is recorded behind it. -/
theorem turned_of_request
    {outcome : Except Exception ModelTurn}
    (run : Finishes
      (request prompting.setup prompting.instruction prompting.text
        prompting.progress prompting.watch) conversation history outcome
      after) :
    Asking prompting conversation history ∧
      Turned prompting conversation history outcome after := by
  refine ⟨⟨carries_executeTurnRequest run, requestCount_request run⟩, ?_⟩
  rw [request, BuiltIn.executeTurnRequest_eq] at run
  rcases finishes_executeTurn run with
    unanswered |
    ⟨transport, check, streamed, recheck, reading, response, streaming,
      client, rfl, answered, reads⟩
  · rw [unanswered.unchanged]
    exact .unanswered unanswered.failed
  cases client
  obtain ⟨-, read⟩ := BuiltIn.finishes_readTurn reads
  cases records : prompting.setup.kind.answerRecord? streaming.parts with
  | none =>
      rw [records] at read
      obtain ⟨rfl, rfl⟩ := read
      refine .unanswered ?_
      rintro turn ⟨⟩
      rfl
  | some entry =>
      rw [records] at read
      obtain ⟨rfl, rfl⟩ := read
      exact .recorded ⟨check, streamed, _, response, streaming, rfl,
        answered.streams, answered.success, rfl⟩ records

/-- Some providers check the flag before a turn. -/
theorem finishes_afterCheck
    {body : Action agents Conversation ModelTurn}
    {outcome : Except Exception ModelTurn}
    (run : Finishes (prompting.setup.kind.afterCheck prompting.cancel body)
      conversation history outcome after) :
    ∃ check rest, history = check ++ rest ∧ Unsent check ∧
      (outcome = .ok cancelledTurn ∧ after = conversation ∧ rest = [] ∨
        Finishes body conversation rest outcome after) := by
  unfold BuiltIn.afterCheck at run
  cases checks : prompting.setup.kind.checksFirst with
  | false =>
      rw [checks, if_neg Bool.false_ne_true] at run
      exact ⟨[], history, rfl, by simp [Unsent], Or.inr run⟩
  | true =>
      rw [checks, if_pos rfl] at run
      obtain ⟨check, rest, stop, between, rfl, checked, continued⟩ :=
        finishes_isSet_bind.mp run
      obtain ⟨rfl, unsent, -⟩ := finishes_flag checked
      refine ⟨check, rest, rfl, unsent, ?_⟩
      cases stop with
      | true =>
          obtain ⟨rfl, rfl, rfl⟩ := finishes_pure.mp continued
          exact Or.inl ⟨rfl, rfl, rfl⟩
      | false => exact Or.inr continued

/-- How `continue_turn` ends, and what it has recorded by then. -/
inductive Resumed (prompting : Prompting) (conversation : Conversation)
    (responses : List ToolResponse) (history : List AgentEvent) :
    Except Exception ModelTurn → Conversation → Prop where
  | stopped (unsent : Unsent history) :
      Resumed prompting conversation responses history (.ok cancelledTurn)
        conversation
  | undumped {failure : Exception} {answered : List ToolResponse}
      {answers : List Json} (unsent : Unsent history)
      (each : List.Forall₂ (AnsweredBy prompting.setup.json) answered answers) :
      Resumed prompting conversation responses history (.error failure)
        (extended conversation answers)
  | requested {answers : List Json} {outcome : Except Exception ModelTurn}
      {after : Conversation}
      (answered : Answers prompting.setup responses answers)
      (asks : Asking prompting (extended conversation answers) history)
      (turned : Turned prompting (extended conversation answers) history
        outcome after) :
      Resumed prompting conversation responses history outcome after

theorem resumed_of_continueTurn
    {responses : List ToolResponse} {outcome : Except Exception ModelTurn}
    (run : Finishes
      ((prompting.setup.kind.provider prompting.setup.endpoint).continueTurn
        prompting.setup.apiKey prompting.setup.activeModel
        prompting.instruction responses prompting.setup.registry
        prompting.callbacks prompting.cancel) conversation history outcome
      after) :
    Resumed prompting conversation responses history outcome after := by
  rw [continueTurn_eq] at run
  obtain ⟨check, rest, rfl, unsent, ⟨rfl, rfl, rfl⟩ | body⟩ :=
    finishes_afterCheck run
  · rw [List.append_nil]
    exact .stopped unsent
  -- Recording the responses performs no operation.
  have records := @ensures_recordResponses (fun _ => True) (fun _ => False)
    prompting.setup
  rcases finishes_bind.mp body with
    ⟨failure, rfl, thrown⟩ | ⟨earlier, later, value, between, rfl, recorded, asked⟩
  · obtain ⟨none, ⟨impossible, -⟩ | ⟨-, chat, answered, answers, -, -, each,
      rfl⟩⟩ := records responses thrown fun _ _ => trivial
    · cases impossible
    · obtain rfl := List.eq_nil_iff_forall_not_mem.mpr none
      rw [List.append_nil]
      exact .undumped unsent each
  · obtain ⟨none, ⟨-, answers, answered, rfl⟩ | ⟨⟨failure, impossible⟩, -⟩⟩ :=
      records responses recorded fun _ _ => trivial
    · obtain rfl := List.eq_nil_iff_forall_not_mem.mpr none
      obtain ⟨asks, turned⟩ := turned_of_request asked
      exact .requested answered (asks.prepend unsent) turned.prepend
    · cases impossible

end Turns

/-! ## The rounds of a prompt -/

/-- A dialogue with a bounded number of exchanges. -/
def Converses (prompting : Prompting) (limit : Nat)
    (conversation : Conversation) (history : List AgentEvent)
    (outcome : Except Exception ApiResult) (after : Conversation) : Prop :=
  ∃ exchanges : List Exchange, exchanges.length ≤ limit ∧
    Dialogue prompting conversation exchanges history outcome after

/-- A turn that was recorded with its calls. -/
structure Replied (prompting : Prompting) (conversation : Conversation)
    (history : List AgentEvent) (turn : ModelTurn) (entry : Json) : Prop where
  asks : Asking prompting conversation history
  recorded : ∃ parts, Heard prompting conversation history parts ∧
    prompting.setup.kind.answerRecord? parts = some entry ∧
    prompting.setup.kind.readCalls prompting.setup.json parts =
      .ok turn.toolCalls ∧
    turn.text = parts.text

section Rounds

variable {prompting : Prompting} {conversation after : Conversation}
  {asked history : List AgentEvent} {turn : ModelTurn} {entry : Json}
  {outcome : Except Exception ApiResult} {limit : Nat}

theorem notOk_error {failure : Exception} : NotOk (.error failure) :=
  nofun

theorem notOk_of
    {result : ApiResult} (failed : result.ok = false) : NotOk (.ok result) := by
  rintro _ ⟨⟩
  exact failed

theorem Replied.append
    (replied : Replied prompting conversation asked turn entry)
    (unsent : Unsent history) :
    Replied prompting conversation (asked ++ history) turn entry := by
  obtain ⟨asks, parts, heard, rest⟩ := replied
  exact ⟨asks.append unsent, parts, heard.append, rest⟩

/-- A dialogue may end behind any turn. -/
theorem Replied.left
    (replied : Replied prompting conversation asked turn entry)
    (unsent : Unsent history) (failed : NotOk outcome)
    {responses : List ToolResponse} {answers : List Json}
    (each : List.Forall₂ (AnsweredBy prompting.setup.json) responses answers) :
    Converses prompting limit conversation (asked ++ history) outcome
      (extended (extended conversation [entry]) answers) := by
  obtain ⟨asks, parts, heard, records, -⟩ := replied.append unsent
  refine ⟨[], Nat.zero_le _, ?_⟩
  have left := Dialogue.left asks failed (.answer heard records each)
  simpa [extended] using left

theorem Replied.ends
    (replied : Replied prompting conversation asked turn entry)
    (unsent : Unsent history) (failed : NotOk outcome) :
    Converses prompting limit conversation (asked ++ history) outcome
      (extended conversation [entry]) := by
  have left : Converses prompting limit conversation (asked ++ history)
      outcome (extended (extended conversation [entry]) []) :=
    replied.left unsent failed .nil
  simpa [extended] using left

/-- Behind a turn the flag is checked, and a failed turn is the last. -/
theorem converses_of_checked
    {next : ModelTurn} {between : Conversation}
    {loop : Action agents Conversation ApiResult}
    (asks : Asking prompting conversation asked)
    (turned : Turned prompting conversation asked (.ok next) between)
    (goesOn : ∀ {entry asked history outcome after},
      Replied prompting conversation asked next entry →
      Finishes loop (extended conversation [entry]) history outcome after →
        Converses prompting limit conversation (asked ++ history) outcome
          after)
    (run : Finishes
      (do
        let stop ← isSet prompting.cancel
        if stop then
          pure AgentSession.requestCancelled
        else if next.ok then
          loop
        else
          pure (AgentSession.turnFailed next))
      between history outcome after) :
    Converses prompting limit conversation (asked ++ history) outcome
      after := by
  obtain ⟨check, rest, stop, between, rfl, checked, continued⟩ :=
    finishes_isSet_bind.mp run
  obtain ⟨rfl, unsent, -⟩ := finishes_flag checked
  have leaves : ∀ {result : ApiResult}, result.ok = false →
      Finishes (pure result) between rest outcome after →
        Converses prompting limit conversation (asked ++ (check ++ rest))
          outcome after := by
    intro result failed returned
    obtain ⟨rfl, rfl, rfl⟩ := finishes_pure.mp returned
    obtain ⟨recorded, rfl, leftover⟩ := turned.leftover
    rw [List.append_nil]
    exact ⟨[], Nat.zero_le _, .left (asks.append unsent)
      (notOk_of failed) leftover.append⟩
  cases stop with
  | true => exact leaves rfl continued
  | false =>
      rw [if_neg Bool.false_ne_true] at continued
      cases ok : next.ok with
      | false =>
          rw [if_neg (by simp [ok])] at continued
          exact leaves rfl continued
      | true =>
          rw [if_pos ok] at continued
          obtain ⟨parts, entry, heard, records, reads, text, rfl⟩ :=
            turned.of_ok ok
          have replied : Replied prompting conversation asked next entry :=
            ⟨asks, parts, heard, records, reads, text⟩
          rw [← List.append_assoc]
          exact goesOn (replied.append unsent) continued

/-- An exchange begins with a turn whose calls were executed. -/
theorem Replied.exchange
    {executed : List AgentEvent} {responses : List ToolResponse}
    {answers : List Json}
    (replied : Replied prompting conversation asked turn entry)
    (pending : turn.toolCalls ≠ [])
    (executes : Finishes (prompting.executes turn.toolCalls)
      (extended conversation [entry]) executed (.ok (some responses))
      (extended conversation [entry]))
    (answered : Answers prompting.setup responses answers)
    (rest : Converses prompting limit
      (extended (extended conversation [entry]) answers) history outcome
      after) :
    Converses prompting (limit + 1) conversation
      (asked ++ (executed ++ history)) outcome after := by
  obtain ⟨asks, parts, heard, records, reads, -⟩ := replied
  obtain ⟨exchanges, bounded, dialogue⟩ := rest
  let exchange : Exchange :=
    { asked := asked
      parts := parts
      entry := entry
      calls := turn.toolCalls
      executed := executed
      responses := responses
      answers := answers }
  have holds : exchange.Holds prompting conversation :=
    { asks := asks
      heard := heard
      records := records
      reads := reads
      pending := pending
      executes := executes
      unsent := (finishes_executes executes).2
      answered := answered }
  refine ⟨exchange :: exchanges, Nat.succ_le_succ bounded,
    .exchanged holds ?_⟩
  simpa [extended, Exchange.entries, exchange] using dialogue

/-- Behind a turn that was stopped by its own check nothing is done. -/
theorem finishes_stopped
    {loop : Action agents Conversation ApiResult}
    (run : Finishes
      (do
        let stop ← isSet prompting.cancel
        if stop then
          pure AgentSession.requestCancelled
        else if cancelledTurn.ok then
          loop
        else
          pure (AgentSession.turnFailed cancelledTurn))
      conversation history outcome after) :
    after = conversation ∧ Unsent history ∧ NotOk outcome := by
  obtain ⟨check, rest, stop, between, rfl, checked, returned⟩ :=
    finishes_isSet_bind.mp run
  obtain ⟨rfl, unsent, -⟩ := finishes_flag checked
  cases stop with
  | true =>
      obtain ⟨rfl, rfl, rfl⟩ := finishes_pure.mp returned
      rw [List.append_nil]
      exact ⟨rfl, unsent, notOk_of rfl⟩
  | false =>
      obtain ⟨rfl, rfl, rfl⟩ := finishes_pure.mp returned
      rw [List.append_nil]
      exact ⟨rfl, unsent, notOk_of rfl⟩

/-- Behind the tools the next turn is requested, or the dialogue ends. -/
theorem converses_of_resumed
    {executed check : List AgentEvent} {responses : List ToolResponse}
    {loop : ModelTurn → Action agents Conversation ApiResult}
    (replied : Replied prompting conversation asked turn entry)
    (pending : turn.toolCalls ≠ [])
    (executes : Finishes (prompting.executes turn.toolCalls)
      (extended conversation [entry]) executed (.ok (some responses))
      (extended conversation [entry]))
    (checked : Unsent check)
    (goesOn : ∀ {next entry conversation asked history outcome after},
      Replied prompting conversation asked next entry →
      Finishes (loop next) (extended conversation [entry]) history outcome
        after →
        Converses prompting limit conversation (asked ++ history) outcome
          after)
    (run : Finishes
      (do
        let next ←
          (prompting.setup.kind.provider prompting.setup.endpoint).continueTurn
            prompting.setup.apiKey prompting.setup.activeModel
            prompting.instruction responses prompting.setup.registry
            prompting.callbacks prompting.cancel
        let stop ← isSet prompting.cancel
        if stop then
          pure AgentSession.requestCancelled
        else if next.ok then
          loop next
        else
          pure (AgentSession.turnFailed next))
      (extended conversation [entry]) history outcome after) :
    Converses prompting (limit + 1) conversation
      (asked ++ (executed ++ (check ++ history))) outcome after := by
  have silent := (finishes_executes executes).2
  rcases finishes_bind.mp run with
    ⟨failure, rfl, thrown⟩ |
    ⟨resumed, rest, next, between, rfl, resumes, continued⟩
  · generalize ended : (.error failure : Except Exception ModelTurn) = outcome
      at thrown
    cases resumed_of_continueTurn thrown with
    | stopped unsent => cases ended
    | undumped unsent each =>
        exact replied.left
          (unsent_append silent (unsent_append checked unsent)) notOk_error each
    | requested answered asks turned =>
        refine replied.exchange pending executes answered ?_
        obtain ⟨recorded, rfl, leftover⟩ := turned.leftover
        exact ⟨[], Nat.zero_le _, .left (asks.prepend checked)
          notOk_error leftover.prepend⟩
  · generalize ended : (.ok next : Except Exception ModelTurn) = outcome
      at resumes
    cases resumed_of_continueTurn resumes with
    | stopped unsent =>
        cases ended
        obtain ⟨rfl, clear, failed⟩ := finishes_stopped continued
        exact replied.ends (unsent_append silent (unsent_append checked
          (unsent_append unsent clear))) failed
    | undumped unsent each => cases ended
    | requested answered asks turned =>
        cases ended
        refine replied.exchange pending executes answered ?_
        rw [← List.append_assoc]
        exact converses_of_checked (asks.prepend checked) turned.prepend
          goesOn continued

/-- Behind a turn that was ok, the prompt goes on as a dialogue. -/
theorem converses_of_turnLoop
    {round : Int}
    (replied : Replied prompting conversation asked turn entry)
    (run : Finishes
      (AgentSession.turnLoop prompting.session
        (prompting.setup.kind.provider prompting.setup.endpoint)
        prompting.setup.registry prompting.callbacks prompting.cancel round
        turn) (extended conversation [entry]) history outcome after) :
    Converses prompting (prompting.setup.maxToolRounds - round).toNat
      conversation (asked ++ history) outcome after := by
  induction remaining : (prompting.setup.maxToolRounds - round).toNat
    using Nat.strong_induction_on
      generalizing round turn entry conversation asked history outcome
        after with
  | _ rounds induction =>
      rw [AgentSession.turnLoop] at run
      split_ifs at run with settled exhausted
      · obtain ⟨rfl, rfl, rfl⟩ := finishes_pure.mp run
        obtain ⟨asks, parts, heard, records, reads, text⟩ := replied
        rw [settled] at reads
        rw [List.append_nil, text]
        exact ⟨[], Nat.zero_le _, .answered asks heard records reads⟩
      · obtain ⟨rfl, rfl, rfl⟩ := finishes_pure.mp run
        exact replied.ends (by simp [Unsent]) (notOk_of rfl)
      rcases finishes_bind.mp run with
        ⟨failure, rfl, thrown⟩ |
        ⟨executed, rest, collected, between, rfl, executes, continued⟩
      · obtain ⟨rfl, unsent⟩ := finishes_executes thrown
        exact replied.ends unsent notOk_error
      obtain ⟨rfl, silent⟩ := finishes_executes executes
      cases collected with
      | none =>
          obtain ⟨rfl, rfl, rfl⟩ := finishes_pure.mp continued
          rw [List.append_nil]
          exact replied.ends silent (notOk_of rfl)
      | some responses =>
          obtain ⟨check, rest, stop, between, rfl, checked, resumes⟩ :=
            finishes_isSet_bind.mp continued
          obtain ⟨rfl, unsent, -⟩ := finishes_flag checked
          cases stop with
          | true =>
              obtain ⟨rfl, rfl, rfl⟩ := finishes_pure.mp resumes
              rw [List.append_nil]
              exact replied.ends (unsent_append silent unsent) (notOk_of rfl)
          | false =>
              have once : (prompting.setup.maxToolRounds - round).toNat =
                  (prompting.setup.maxToolRounds - (round + 1)).toNat + 1 := by
                change ¬ round + 1 > prompting.setup.maxToolRounds at exhausted
                omega
              have fewer :
                  (prompting.setup.maxToolRounds - (round + 1)).toNat <
                    rounds := by omega
              rw [← remaining, once]
              refine converses_of_resumed replied settled executes unsent ?_
                resumes
              intro next entry conversation asked history outcome after replied
                run
              exact induction _ fewer replied run rfl

end Rounds

end ArnCore.Provider.PromptDialogue
