import ArnCore.Provider.StreamedCalls

/-!
# The turns of the built-in providers

The three providers record the prompt or the responses, run one turn request
and read what it streamed.  A turn request either leaves the history as it is
and is not ok, or a complete 2xx response was streamed and is read.
-/

namespace ArnCore.Provider.BuiltInTurn

open ArnCore.Agent.Environment
open ArnCore.Collections
open ArnCore.Interaction
open ArnCore.Net
open ArnCore.Provider.ChatStream
open ArnCore.Provider.SingleAttempt
open ArnCore.Tool

/-- The providers that come with the library. -/
inductive BuiltIn where
  | chat (chat : ChatProvider)
  | gemini

variable {signature : Signature}

namespace BuiltIn

/-- The provider over an endpoint. -/
def provider (kind : BuiltIn) (endpoint : Endpoint signature) :
    IModelProvider signature Conversation :=
  match kind with
  | .chat .deepSeek => deepSeekProvider endpoint
  | .chat (.openRouter config) => openRouterProvider endpoint config
  | .gemini => geminiProvider endpoint

/-- The stream-chunk parser of a provider. -/
def parseStreamChunk (kind : BuiltIn) (json : JsonText)
    (onText : TextStreamCallback signature) : String → Walk signature :=
  match kind with
  | .chat chatProvider => chatProvider.parseStreamChunk json onText
  | .gemini => parseGeminiStreamChunk json onText

/-- What a provider makes of the parts of a complete response. -/
def readTurn (kind : BuiltIn) (endpoint : Endpoint signature) :
    TurnParts → Action signature Conversation ModelTurn :=
  match kind with
  | .chat _ => readChatTurn endpoint
  | .gemini => GeminiProvider.readTurn

/-- `execute_turn_request` of a provider. -/
def executeTurnRequest (kind : BuiltIn) (endpoint : Endpoint signature)
    (apiKey model systemInstruction : String)
    (tools : ToolRegistry signature Conversation)
    (callbacks : StreamCallbacks signature) (cancel : CancelFlag signature) :
    Action signature Conversation ModelTurn :=
  match kind with
  | .chat chatProvider =>
      chatProvider.executeTurnRequest endpoint apiKey model tools callbacks cancel
  | .gemini =>
      GeminiProvider.executeTurnRequest endpoint apiKey model
        systemInstruction tools callbacks cancel

/-- The name of a provider in its messages. -/
def name : BuiltIn → String
  | .chat .deepSeek => "DeepSeek"
  | .chat (.openRouter _) => "OpenRouter"
  | .gemini => "Gemini"

/-- The path of a turn request. -/
def path (kind : BuiltIn) (model : String) : String :=
  match kind with
  | .chat .deepSeek => "/chat/completions"
  | .chat (.openRouter config) =>
      joinApiPath config.apiPathPrefix "/chat/completions"
  | .gemini => "/v1beta/models/" ++ model ++ ":streamGenerateContent?alt=sse"

/-- The headers of a turn request. -/
def headers (kind : BuiltIn) (apiKey : String) : List (String × String) :=
  match kind with
  | .chat .deepSeek => [("Authorization", "Bearer " ++ apiKey)]
  | .chat (.openRouter config) =>
      OpenRouterProvider.requestHeaders config apiKey
  | .gemini => [("x-goog-api-key", apiKey)]

/-- The payload of a turn request. -/
def payload (kind : BuiltIn) (model systemInstruction : String)
    (tools : ToolRegistry signature Conversation)
    (conversation : Conversation) : Json :=
  match kind with
  | .chat .deepSeek => buildDeepseekPayload model conversation.entries tools
  | .chat (.openRouter _) =>
      buildOpenrouterPayload model conversation.entries tools
        (OpenRouterProvider.capabilitiesOf conversation model).supportsTools
  | .gemini =>
      buildGeminiPayload systemInstruction conversation.entries tools

/-- Every provider runs the same turn on its own stream. -/
theorem executeTurnRequest_eq
    (kind : BuiltIn) (endpoint : Endpoint signature)
    (apiKey model systemInstruction : String)
    (tools : ToolRegistry signature Conversation)
    (callbacks : StreamCallbacks signature) (cancel : CancelFlag signature) :
    kind.executeTurnRequest endpoint apiKey model systemInstruction tools
        callbacks cancel =
      executeTurn endpoint kind.name (kind.path model) (kind.headers apiKey)
        (kind.parseStreamChunk endpoint.json callbacks.onText)
        (kind.payload model systemInstruction tools)
        (kind.readTurn endpoint) callbacks cancel := by
  rcases kind with ⟨_ | config⟩ | _
  · rfl
  · rfl
  · rfl

/-! ## Recording the prompt -/

/-- Whether the turn functions look at the flag before they record anything. -/
def checksFirst : BuiltIn → Bool
  | .chat (.openRouter ..) => true
  | _ => false

/-- The capabilities a provider of chat completions knows for a model. -/
def capabilities (chatProvider : ChatProvider) (conversation : Conversation)
    (model : String) : ModelCapabilities :=
  match chatProvider with
  | .deepSeek => {}
  | .openRouter _ => OpenRouterProvider.capabilitiesOf conversation model

/-- The system message of the first prompt of a history. -/
def systemEntries (chatProvider : ChatProvider) (conversation : Conversation)
    (model systemInstruction : String) : List Json :=
  if conversation.entries = [] ∧ systemInstruction ≠ "" ∧
      (capabilities chatProvider conversation model).supportsSystemInstruction =
        true then
    [chatMessage "system" systemInstruction]
  else
    []

/-- What a prompt adds to the history before its request. -/
def promptEntries (kind : BuiltIn) (conversation : Conversation)
    (model systemInstruction userPrompt : String) : List Json :=
  match kind with
  | .chat chatProvider =>
      let system := systemEntries chatProvider conversation model systemInstruction
      system ++
        [chatMessage "user"
          (OpenRouterProvider.promptText
            (capabilities chatProvider conversation model)
            (conversation.entries ++ system) systemInstruction userPrompt)]
  | .gemini => [GeminiProvider.contentEntry "user" (textPart userPrompt)]

/-- `start_turn` behind the check some providers begin with. -/
def recordPrompt (kind : BuiltIn) (endpoint : Endpoint signature)
    (apiKey model systemInstruction userPrompt : String)
    (tools : ToolRegistry signature Conversation)
    (callbacks : StreamCallbacks signature) (cancel : CancelFlag signature) :
    Action signature Conversation ModelTurn := do
  modify fun conversation =>
    { conversation with
      entries := conversation.entries ++
        kind.promptEntries conversation model systemInstruction userPrompt }
  kind.executeTurnRequest endpoint apiKey model systemInstruction tools
    callbacks cancel

/-- A turn function that may look at the flag first. -/
def afterCheck (kind : BuiltIn) (cancel : CancelFlag signature)
    (body : Action signature Conversation ModelTurn) :
    Action signature Conversation ModelTurn :=
  if kind.checksFirst then do
    let stop ← isSet cancel
    if stop then pure cancelledTurn else body
  else
    body

/-- The system and the user message are pushed one after the other. -/
theorem pushEntry_system_user
    {condition : Prop} [Decidable condition] (system : Json)
    (user : List Json → Json)
    {rest : Action signature Conversation ModelTurn}
    (conversation : Conversation) :
    ExceptT.run
        (do
          (if condition then pushEntry system else pure ())
          let between ← get
          pushEntry (user between.entries)
          rest) conversation =
      rest.run
        { conversation with
          entries :=
            let recorded := if condition then [system] else []
            conversation.entries ++
              (recorded ++ [user (conversation.entries ++ recorded)]) } := by
  by_cases recorded : condition
  · rw [if_pos recorded, if_pos recorded, ← List.append_assoc]
    rfl
  · rw [if_neg recorded, if_neg recorded]
    simp only [List.nil_append, List.append_nil]
    rfl

/-- Variables that are looked at first. -/
theorem run_get_bind
    {Locals Value : Type} {rest : Locals → Action signature Locals Value}
    (locals : Locals) :
    ExceptT.run
        (do
          let found ← get
          rest found) locals =
      (rest locals).run locals := rfl

theorem startTurn_eq
    (kind : BuiltIn) (endpoint : Endpoint signature)
    (apiKey model systemInstruction userPrompt : String)
    (tools : ToolRegistry signature Conversation)
    (callbacks : StreamCallbacks signature) (cancel : CancelFlag signature) :
    (kind.provider endpoint).startTurn apiKey model systemInstruction
        userPrompt tools callbacks cancel =
      kind.afterCheck cancel
        (kind.recordPrompt endpoint apiKey model systemInstruction userPrompt
          tools callbacks cancel) := by
  rcases kind with ⟨_ | config⟩ | _
  · apply ExceptT.ext
    funext conversation
    have recorded : promptEntries (.chat .deepSeek) conversation model
        systemInstruction userPrompt =
          (if conversation.entries = [] ∧ systemInstruction ≠ "" then
            [chatMessage "system" systemInstruction] else []) ++
            [chatMessage "user" userPrompt] := by
      simp [promptEntries, systemEntries, capabilities,
        OpenRouterProvider.promptText]
    refine (pushEntry_system_user _ (fun _ => chatMessage "user" userPrompt)
      conversation).trans ?_
    simp only [← recorded]
    rfl
  · refine congrArg (isSet cancel >>= ·) ?_
    funext stop
    cases stop with
    | true => rfl
    | false =>
        apply ExceptT.ext
        funext conversation
        rw [if_neg Bool.false_ne_true, if_neg Bool.false_ne_true, run_get_bind]
        exact pushEntry_system_user (chatMessage "system" systemInstruction)
          (fun entries => chatMessage "user"
            (OpenRouterProvider.promptText
              (OpenRouterProvider.capabilitiesOf conversation model) entries
              systemInstruction userPrompt)) conversation
  · rfl

/-! ## Reading the parts -/

/-- The calls a provider reads from the parts of a turn. -/
def readCalls (kind : BuiltIn) (json : JsonText) (parts : TurnParts) :
    Except Exception (List ToolCall) :=
  match kind with
  | .chat _ => parts.calls.mapM (readCall json)
  | .gemini => parts.calls.mapM GeminiProvider.readFunctionCall

/-- The entry a provider records for the parts of a turn. -/
def answerRecord? (kind : BuiltIn) (parts : TurnParts) : Option Json :=
  match kind with
  | .chat _ => some (assistantMessage parts)
  | .gemini =>
      if parts.responseParts = [] then
        none
      else
        some (GeminiProvider.contentEntry "model" (.array parts.responseParts))

/-- How a turn ends whose entry was recorded, when its calls are read. -/
def recordedOutcome (text : String) :
    Except Exception (List ToolCall) → Except Exception ModelTurn
  | .ok calls => .ok { ok := true, text := text, toolCalls := calls }
  | .error (.standard what) =>
      .ok { errorMessage := "Could not read the API response: " ++ what }
  | .error .foreign => .error .foreign

section Reading

variable {kind : BuiltIn} {endpoint : Endpoint signature} {parts : TurnParts}
  {locals after : Conversation} {history : List (Event signature)}
  {outcome : Except Exception ModelTurn}

/-- An entry is recorded before its calls are read. -/
theorem finishes_recorded
    {entry : Json} {calls : Except Exception (List ToolCall)} {text : String}
    (run : Action.Finishes
      (tryCatch
        (do
          pushEntry entry
          let calls ← Action.ofExcept calls
          pure { ok := true, text := text, toolCalls := calls } :
            Action signature Conversation ModelTurn)
        unreadable) locals history outcome after) :
    history = [] ∧ outcome = recordedOutcome text calls ∧
      after = { locals with entries := locals.entries ++ [entry] } := by
  rcases calls with (what | _) | calls
  · exact Action.finishes_pure.mp run
  · exact Action.finishes_throw.mp run
  · exact Action.finishes_pure.mp run

/-- Reading the parts records them and performs no operation. -/
theorem finishes_readTurn
    (run : Action.Finishes (tryCatch (kind.readTurn endpoint parts) unreadable)
      locals history outcome after) :
    history = [] ∧
      match kind.answerRecord? parts with
      | none =>
          outcome = .ok
            { errorMessage :=
                "Gemini returned an empty streamed response." } ∧
          after = locals
      | some entry =>
          outcome = recordedOutcome parts.text
            (kind.readCalls endpoint.json parts) ∧
          after = { locals with entries := locals.entries ++ [entry] } := by
  cases kind with
  | chat chatProvider => exact finishes_recorded run
  | gemini =>
      by_cases empty : parts.responseParts = []
      · simp only [readTurn, GeminiProvider.readTurn, empty, if_true] at run
        simp only [answerRecord?, empty, if_true]
        exact Action.finishes_pure.mp run
      · simp only [readTurn, GeminiProvider.readTurn, empty, if_false] at run
        simp only [answerRecord?, empty, if_false]
        exact finishes_recorded run

end Reading

end BuiltIn

/-! ## One turn request -/

section Turns

variable {watch : Bool} {history : List AgentEvent}

/-- The flag is loaded and found clear. -/
def FoundClear (event : AgentEvent) : Prop :=
  event = ⟨AgentOp.load .cancelled, false⟩

/-- A check finds the flag clear or set. -/
theorem finishes_check
    {Locals : Type} {locals after : Locals} {outcome : Except Exception Bool}
    (run : Action.Finishes (isSet (callerFlag watch)) locals history outcome
      after) :
    after = locals ∧
      (outcome = .ok false ∧ (∀ event ∈ history, FoundClear event) ∨
        outcome = .ok true ∧
          history = [⟨AgentOp.load .cancelled, true⟩]) := by
  cases watch with
  | false =>
      obtain ⟨rfl, rfl, rfl⟩ := Action.finishes_pure.mp run
      exact ⟨rfl, Or.inl ⟨rfl, by simp⟩⟩
  | true =>
      obtain ⟨stop, rfl, rfl, rfl⟩ := finishes_always.mp run
      cases stop with
      | false => exact ⟨rfl, Or.inl ⟨rfl, by simp [FoundClear]⟩⟩
      | true => exact ⟨rfl, Or.inr ⟨rfl, rfl⟩⟩

/--
A turn request that was answered: both of its checks found the flag clear, and
a 2xx response was streamed between them.
-/
structure Answered (transport : Transport agents)
    (request : Action agents (Streaming TurnParts) HttpResult)
    (callbacks : StreamCallbacks agents) (watch : Bool)
    (locals : Conversation) (check streamed recheck : List AgentEvent)
    (response : HttpResponse) (streaming : Streaming TurnParts) : Prop where
  clear : ∀ event ∈ check ++ recheck, FoundClear event
  streams : Action.Finishes
    (streamTurn transport request callbacks (callerFlag watch)
      maxRequestAttempts)
    locals streamed (.ok (.ok response, streaming)) locals
  success : isSuccess response.status = true

/-- A turn request that was not answered: nothing changed, nothing is ok. -/
structure Unanswered (locals : Conversation) (history : List AgentEvent)
    (outcome : Except Exception ModelTurn) (after : Conversation) : Prop where
  unchanged : after = locals
  failed : ∀ turn, outcome = .ok turn → turn.ok = false
  cancelled : ∀ turn, outcome = .ok turn → turn.cancelled = true →
    ∃ event ∈ history, FoundSet event

theorem Unanswered.of_error
    {locals : Conversation} {failure : Exception} :
    Unanswered locals history (.error failure) locals :=
  ⟨rfl, nofun, nofun⟩

theorem Unanswered.of_message
    {locals : Conversation} {message : String} :
    Unanswered locals history (.ok { errorMessage := message }) locals where
  unchanged := rfl
  failed := by
    rintro turn ⟨⟩
    rfl
  cancelled := by
    rintro turn ⟨⟩ cancelled
    cases cancelled

theorem Unanswered.of_foundSet
    {locals : Conversation}
    (found : (⟨AgentOp.load .cancelled, true⟩ : AgentEvent) ∈ history) :
    Unanswered locals history (.ok cancelledTurn) locals where
  unchanged := rfl
  failed := by
    rintro turn ⟨⟩
    rfl
  cancelled := fun _ _ _ => ⟨_, found, rfl⟩

variable {endpoint : Endpoint agents} {provider path : String}
  {headers : List (String × String)} {parse : String → Walk agents}
  {payload : Conversation → Json}
  {read : TurnParts → Action agents Conversation ModelTurn}
  {callbacks : StreamCallbacks agents} {locals after : Conversation}
  {outcome : Except Exception ModelTurn}

/-- The streaming part of a turn keeps the history in its own variables. -/
theorem eq_of_finishes_streamTurn
    {Locals : Type} {locals after : Locals} {transport : Transport agents}
    {request : Action agents (Streaming TurnParts) HttpResult}
    {cancel : CancelFlag agents} {maxAttempts : Int}
    {outcome : Except Exception (HttpResult × Streaming TurnParts)}
    (run : Action.Finishes
      (streamTurn transport request callbacks cancel maxAttempts) locals
      history outcome after) :
    after = locals :=
  (Action.finishes_withLocals.mp run).1

/-- The exits of a turn request over an endpoint, in the order of the source. -/
inductive TurnExit (endpoint : Endpoint agents)
    (request : Transport agents →
      Action agents (Streaming TurnParts) HttpResult)
    (read : TurnParts → Action agents Conversation ModelTurn)
    (callbacks : StreamCallbacks agents) (watch : Bool)
    (locals : Conversation) :
    List AgentEvent → Except Exception ModelTurn → Conversation → Prop where
  | uninitialized :
      TurnExit endpoint request read callbacks watch locals []
        (.ok { errorMessage := "Client not initialized." }) locals
  | stopped :
      TurnExit endpoint request read callbacks watch locals
        [⟨AgentOp.load .cancelled, true⟩] (.ok cancelledTurn) locals
  | threw {transport : Transport agents} {check streamed : List AgentEvent}
      {failure : Exception}
      (client : endpoint.client = some transport)
      (clear : ∀ event ∈ check, FoundClear event)
      (streams : Action.Finishes
        (streamTurn transport (request transport) callbacks
          (callerFlag watch) maxRequestAttempts)
        locals streamed (.error failure) locals) :
      TurnExit endpoint request read callbacks watch locals
        (check ++ streamed) (.error failure) locals
  | cancelled {transport : Transport agents}
      {check streamed : List AgentEvent}
      {received : HttpResult × Streaming TurnParts}
      (client : endpoint.client = some transport)
      (clear : ∀ event ∈ check, FoundClear event)
      (streams : Action.Finishes
        (streamTurn transport (request transport) callbacks
          (callerFlag watch) maxRequestAttempts)
        locals streamed (.ok received) locals) :
      TurnExit endpoint request read callbacks watch locals
        (check ++ (streamed ++ [⟨AgentOp.load .cancelled, true⟩]))
        (.ok cancelledTurn) locals
  | unsuccessful {transport : Transport agents}
      {check streamed recheck : List AgentEvent}
      {received : HttpResult × Streaming TurnParts} {message : String}
      (client : endpoint.client = some transport)
      (clear : ∀ event ∈ check ++ recheck, FoundClear event)
      (streams : Action.Finishes
        (streamTurn transport (request transport) callbacks
          (callerFlag watch) maxRequestAttempts)
        locals streamed (.ok received) locals)
      (failed : ∀ response, received.1 = .ok response →
        isSuccess response.status = false) :
      TurnExit endpoint request read callbacks watch locals
        (check ++ (streamed ++ recheck)) (.ok { errorMessage := message })
        locals
  | answered {transport : Transport agents}
      {check streamed recheck reading : List AgentEvent}
      {response : HttpResponse} {streaming : Streaming TurnParts}
      {outcome : Except Exception ModelTurn} {after : Conversation}
      (client : endpoint.client = some transport)
      (answered : Answered transport (request transport) callbacks watch
        locals check streamed recheck response streaming)
      (reads : Action.Finishes (tryCatch (read streaming.parts) unreadable)
        locals reading outcome after) :
      TurnExit endpoint request read callbacks watch locals
        (check ++ (streamed ++ (recheck ++ reading))) outcome after

/-- Every finished turn request took one of its exits. -/
theorem exit_of_executeTurn
    (run : Action.Finishes
      (executeTurn endpoint provider path headers parse payload read callbacks
        (callerFlag watch)) locals history outcome after) :
    TurnExit endpoint
      (fun transport => turnRequest endpoint.json transport parse path headers
        (payload locals) (callerFlag watch))
      read callbacks watch locals history outcome after := by
  unfold executeTurn at run
  cases client : endpoint.client with
  | none =>
      rw [client] at run
      obtain ⟨rfl, rfl, rfl⟩ := Action.finishes_pure.mp run
      exact .uninitialized
  | some transport =>
      rw [client] at run
      obtain ⟨check, rest, stop, between, rfl, checked, continued⟩ :=
        finishes_isSet_bind.mp run
      obtain ⟨rfl, ⟨same, clear⟩ | ⟨same, rfl⟩⟩ := finishes_check checked
      · cases same
        rcases Action.finishes_bind.mp (Action.finishes_get_bind.mp continued)
          with
          ⟨failure, rfl, thrown⟩ |
          ⟨streamed, rest, received, between, rfl, streams, concluded⟩
        · obtain rfl := eq_of_finishes_streamTurn thrown
          exact .threw client clear thrown
        obtain rfl := eq_of_finishes_streamTurn streams
        obtain ⟨recheck, reading, stop, between, rfl, rechecked, ends⟩ :=
          finishes_isSet_bind.mp concluded
        obtain ⟨rfl, ⟨same, reclear⟩ | ⟨same, rfl⟩⟩ := finishes_check rechecked
        · cases same
          have allClear := List.forall_mem_append.mpr ⟨clear, reclear⟩
          rcases received with ⟨error | response, streaming⟩
          · obtain ⟨rfl, rfl, rfl⟩ := Action.finishes_pure.mp ends
            rw [List.append_nil]
            exact .unsuccessful client allClear streams nofun
          by_cases success : isSuccess response.status = true
          · simp only [concludeTurn, success, if_true] at ends
            exact .answered client ⟨allClear, streams, success⟩ ends
          · simp only [concludeTurn, success] at ends
            obtain ⟨rfl, rfl, rfl⟩ := Action.finishes_pure.mp ends
            rw [List.append_nil]
            refine .unsuccessful client allClear streams ?_
            rintro other ⟨⟩
            exact Bool.eq_false_iff.mpr success
        · cases same
          obtain ⟨rfl, rfl, rfl⟩ := Action.finishes_pure.mp ends
          exact .cancelled client clear streams
      · cases same
        obtain ⟨rfl, rfl, rfl⟩ := Action.finishes_pure.mp continued
        exact .stopped

/-- A turn request is left unanswered, or its answer is read. -/
theorem finishes_executeTurn
    (run : Action.Finishes
      (executeTurn endpoint provider path headers parse payload read callbacks
        (callerFlag watch)) locals history outcome after) :
    Unanswered locals history outcome after ∨
      ∃ transport check streamed recheck reading response streaming,
        endpoint.client = some transport ∧
        history = check ++ (streamed ++ (recheck ++ reading)) ∧
        Answered transport
          (turnRequest endpoint.json transport parse path headers
            (payload locals) (callerFlag watch))
          callbacks watch locals check streamed recheck response streaming ∧
        Action.Finishes (tryCatch (read streaming.parts) unreadable) locals
          reading outcome after := by
  cases exit_of_executeTurn run with
  | uninitialized => exact Or.inl .of_message
  | stopped => exact Or.inl (.of_foundSet (by simp))
  | threw client clear streams => exact Or.inl .of_error
  | cancelled client clear streams => exact Or.inl (.of_foundSet (by simp))
  | unsuccessful client clear streams failed => exact Or.inl .of_message
  | answered client answered reads =>
      exact Or.inr ⟨_, _, _, _, _, _, _, client, rfl, answered, reads⟩

end Turns

end ArnCore.Provider.BuiltInTurn
