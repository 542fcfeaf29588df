import ArnCore.Provider.Payload

/-!
# The built-in providers

`DeepSeekProvider`, `OpenRouterProvider` and `GeminiProvider`.  The history of a
provider (`messages_`, `contents_`) and the discovered capabilities are the
local variables of its actions.  One turn streams into variables of its own and
then reads them; the first two providers record a turn in the same way.
-/

namespace ArnCore.Provider

open ArnCore.Collections
open ArnCore.Interaction
open ArnCore.Net
open ArnCore.Tool

/-- What a built-in provider remembers between its turns. -/
structure Conversation where
  entries : List Json := []
  capabilities : List (String × ModelCapabilities) := []

/-- The members of a provider that no turn changes; a moved-from client is null. -/
structure Endpoint (signature : Signature) where
  json : JsonText
  client : Option (Transport signature)
  errorText : HttpError → String

/-- `max_request_attempts` -/
def maxRequestAttempts : Int := 3

variable {signature : Signature} {Locals : Type}

/-! ## History -/

/-- `push_back` on the history. -/
def pushEntry (entry : Json) : Action signature Conversation Unit :=
  modify fun conversation =>
    { conversation with entries := conversation.entries ++ [entry] }

/-- `reset_session` -/
def clearEntries : Action signature Conversation Unit :=
  modify fun conversation => { conversation with entries := [] }

/--
Erase the entry at `keepFrom` while there are too many; `none` when there is no
entry at that position.
-/
def eraseDown (keepFrom maxEntries : Nat) (entries : List Json) :
    Option (List Json) :=
  if entries.length ≤ maxEntries then
    some entries
  else if keepFrom < entries.length then
    eraseDown keepFrom maxEntries (entries.eraseIdx keepFrom)
  else
    none
termination_by entries.length
decreasing_by
  rw [List.length_eraseIdx]
  split_ifs
  omega

/-- The loop of `trim_history`; past the end nothing is known of the source. -/
def trimEntries (keepFrom maxEntries : Nat) :
    Action signature Conversation Unit := do
  let conversation ← get
  match eraseDown keepFrom maxEntries conversation.entries with
  | some entries => set { conversation with entries := entries }
  | none => throw .foreign

/-- `trim_history` of the providers that keep a leading system message. -/
def trimMessages (maxEntries : Nat) :
    Action signature Conversation Unit := do
  let conversation ← get
  match conversation.entries with
  | [] => trimEntries 0 maxEntries
  | first :: _ => do
      let role ← Action.ofExcept (first.valueOr Json.getString "role" "")
      trimEntries (if role = "system" then 1 else 0) maxEntries

/-! ## One turn -/

/-- The turn of every cancellation exit. -/
def cancelledTurn : ModelTurn where
  errorMessage := "Request cancelled."
  cancelled := true

/-- The request that is repeated: it serializes its payload every time. -/
def turnRequest (json : JsonText) (transport : Transport signature)
    (parse : String → Walk signature) (path : String)
    (headers : List (String × String)) (payload : Json)
    (cancel : CancelFlag signature) :
    Action signature (Streaming TurnParts) HttpResult := do
  let body ← Action.ofExcept (json.dump payload)
  streamPost transport parse cancel path headers payload body

/-- The streaming part of a turn, in the variables of the turn. -/
def streamTurn (transport : Transport signature)
    (request : Action signature (Streaming TurnParts) HttpResult)
    (callbacks : StreamCallbacks signature) (cancel : CancelFlag signature)
    (maxAttempts : Int) :
    Action signature Locals (HttpResult × Streaming TurnParts) :=
  Action.withLocals { parts := {} } do
    let response ← executeStreamWithRetry transport cancel request
      callbacks.onProgress maxAttempts 0
    let streaming ← get
    pure (response, streaming)

/-- `catch (const std::exception& exception)` of a turn. -/
def unreadable (failure : Exception) :
    Action signature Conversation ModelTurn :=
  match failure with
  | .standard what =>
      pure { errorMessage := "Could not read the API response: " ++ what }
  | .foreign => throw .foreign

section Turns

variable (endpoint : Endpoint signature)

/-- What a turn makes of the response of its last attempt. -/
def concludeTurn (provider : String)
    (read : TurnParts → Action signature Conversation ModelTurn)
    (received : HttpResult × Streaming TurnParts) :
    Action signature Conversation ModelTurn :=
  match received.1 with
  | .error error =>
      pure
        { errorMessage :=
            "Network request failed: " ++ endpoint.errorText error }
  | .ok response =>
      if isSuccess response.status then
        tryCatch (read received.2.parts) unreadable
      else
        pure
          { errorMessage :=
              parseError endpoint.json response.status provider
                received.2.errorBody }

/-- `execute_turn_request`, as far as the three providers agree. -/
def executeTurn (provider path : String) (headers : List (String × String))
    (parse : String → Walk signature) (payload : Conversation → Json)
    (read : TurnParts → Action signature Conversation ModelTurn)
    (callbacks : StreamCallbacks signature) (cancel : CancelFlag signature) :
    Action signature Conversation ModelTurn :=
  match endpoint.client with
  | none => pure { errorMessage := "Client not initialized." }
  | some transport => do
      let stop ← isSet cancel
      if stop then
        pure cancelledTurn
      else do
        let conversation ← get
        let received ← streamTurn transport
          (turnRequest endpoint.json transport parse path headers
            (payload conversation) cancel)
          callbacks cancel maxRequestAttempts
        let stop ← isSet cancel
        if stop then
          pure cancelledTurn
        else
          concludeTurn endpoint provider read received

/-! ## Chat completions -/

/-- The message recorded for an answer. -/
def assistantMessage (parts : TurnParts) : Json :=
  .ofMembers
    ([("role", .string "assistant"),
      ("content",
        if parts.text = "" then .null else .string parts.text)] ++
      (if parts.calls = [] then []
      else [("tool_calls", .array parts.calls)]))

/-- The arguments of a call; text that is no JSON gives an empty object. -/
def readArguments (json : JsonText) (call : Json) : Except Exception Json :=
  let arguments := do
    let function ← call.atKey "function"
    let text ← function.atKey "arguments"
    let text ← text.getString
    json.parse text
  match arguments with
  | .ok value => .ok value
  | .error (.standard _) => .ok (.object [])
  | .error .foreign => .error .foreign

/-- One element of the loop over the accumulated calls. -/
def readCall (json : JsonText) (call : Json) : Except Exception ToolCall := do
  let arguments ← readArguments json call
  let id ← call.valueOr Json.getString "id" ""
  let function ← call.atKey "function"
  let name ← function.atKey "name"
  let name ← name.getString
  pure { id := id, name := name, arguments := arguments }

/-- Record the answer and read its calls. -/
def readChatTurn (parts : TurnParts) :
    Action signature Conversation ModelTurn := do
  pushEntry (assistantMessage parts)
  let calls ← Action.ofExcept (parts.calls.mapM (readCall endpoint.json))
  pure { ok := true, text := parts.text, toolCalls := calls }

/-- Reading an answer performs no operation. -/
theorem safe_concludeTurn_readChatTurn
    {State : Type} {world : World signature State}
    {allowed : State → signature.Op → Prop} (provider : String)
    (received : HttpResult × Streaming TurnParts) :
    Action.Safe world allowed
      (concludeTurn endpoint provider (readChatTurn endpoint) received) := by
  unfold concludeTurn
  cases received.1 with
  | error error => exact .pure _
  | ok response =>
      by_cases success : isSuccess response.status = true
      · simp only [success, if_true]
        refine .tryCatch (.bind (.modify _) fun _ => .bind (.ofExcept _)
          fun calls => .pure _) fun failure => ?_
        cases failure with
        | standard what => exact .pure _
        | foreign => exact .throw _
      · simp only [success]
        exact .pure _

/-- `{{"role", role}, {"content", text}}` -/
def chatMessage (role text : String) : Json :=
  .ofMembers [("role", .string role), ("content", .string text)]

/-- The message answering one call. -/
def toolMessage (callId content : String) : Json :=
  .ofMembers
    [("role", .string "tool"),
      ("tool_call_id", .string callId),
      ("content", .string content)]

/-- The loop over the responses in `continue_turn`. -/
def pushToolMessages :
    List ToolResponse → Action signature Conversation Unit
  | [] => pure ()
  | response :: responses => do
      let content ← Action.ofExcept (endpoint.json.dump response.result)
      pushEntry (toolMessage response.callId content)
      pushToolMessages responses

end Turns

/-! ## DeepSeek -/

namespace DeepSeekProvider

variable (endpoint : Endpoint signature)

def executeTurnRequest (apiKey model : String)
    (tools : ToolRegistry signature Conversation)
    (callbacks : StreamCallbacks signature) (cancel : CancelFlag signature) :
    Action signature Conversation ModelTurn :=
  executeTurn endpoint "DeepSeek" "/chat/completions"
    [("Authorization", "Bearer " ++ apiKey)]
    (parseDeepseekStreamChunk endpoint.json callbacks.onText)
    (fun conversation =>
      buildDeepseekPayload model conversation.entries tools)
    (readChatTurn endpoint) callbacks cancel

def startTurn (apiKey model systemInstruction userPrompt : String)
    (tools : ToolRegistry signature Conversation)
    (callbacks : StreamCallbacks signature) (cancel : CancelFlag signature) :
    Action signature Conversation ModelTurn := do
  let conversation ← get
  (if conversation.entries = [] ∧ systemInstruction ≠ "" then
    pushEntry (chatMessage "system" systemInstruction)
  else
    pure ())
  pushEntry (chatMessage "user" userPrompt)
  executeTurnRequest endpoint apiKey model tools callbacks cancel

def continueTurn (apiKey model : String) (responses : List ToolResponse)
    (tools : ToolRegistry signature Conversation)
    (callbacks : StreamCallbacks signature) (cancel : CancelFlag signature) :
    Action signature Conversation ModelTurn := do
  pushToolMessages endpoint responses
  executeTurnRequest endpoint apiKey model tools callbacks cancel

end DeepSeekProvider

/-! ## OpenRouter -/

/-- `OpenRouterConfig`, without the address of the client. -/
structure OpenRouterConfig where
  apiPathPrefix : String := "/api/v1"
  httpReferer : String := ""
  appTitle : String := ""
deriving DecidableEq, Repr

/-- `join_api_path` -/
def joinApiPath (pathPrefix path : String) : String :=
  if pathPrefix = "" then
    path
  else if path = "" then
    pathPrefix
  else if pathPrefix.toList.getLast? = some '/' ∧
      path.toList.head? = some '/' then
    String.ofList pathPrefix.toList.dropLast ++ path
  else if pathPrefix.toList.getLast? ≠ some '/' ∧
      path.toList.head? ≠ some '/' then
    pathPrefix ++ "/" ++ path
  else
    pathPrefix ++ path

namespace OpenRouterProvider

variable (endpoint : Endpoint signature) (config : OpenRouterConfig)

/-- The capabilities discovered for a model, or those of an unknown model. -/
def capabilitiesOf (conversation : Conversation) (model : String) :
    ModelCapabilities :=
  (OrderedMap.find? model conversation.capabilities).getD {}

/-- `model_capabilities` -/
def modelCapabilities (model : String) :
    Action signature Conversation ModelCapabilities := do
  let conversation ← get
  pure (capabilitiesOf conversation model)

/-- The headers of every request; empty settings are left out. -/
def requestHeaders (apiKey : String) : List (String × String) :=
  [("Authorization", "Bearer " ++ apiKey)] ++
    (if config.httpReferer = "" then []
    else [("HTTP-Referer", config.httpReferer)]) ++
    (if config.appTitle = "" then [] else [("X-Title", config.appTitle)])

def executeTurnRequest (apiKey model : String)
    (tools : ToolRegistry signature Conversation)
    (callbacks : StreamCallbacks signature) (cancel : CancelFlag signature) :
    Action signature Conversation ModelTurn :=
  executeTurn endpoint "OpenRouter"
    (joinApiPath config.apiPathPrefix "/chat/completions")
    (requestHeaders config apiKey)
    (parseOpenrouterStreamChunk endpoint.json callbacks.onText)
    (fun conversation =>
      buildOpenrouterPayload model conversation.entries tools
        (capabilitiesOf conversation model).supportsTools)
    (readChatTurn endpoint) callbacks cancel

/-- The text of the user message once the system message has been recorded. -/
def promptText (capabilities : ModelCapabilities) (entries : List Json)
    (systemInstruction userPrompt : String) : String :=
  if capabilities.supportsSystemInstruction = false ∧
      systemInstruction ≠ "" ∧ entries = [] then
    systemInstruction ++ "\n\n" ++ userPrompt
  else
    userPrompt

def startTurn (apiKey model systemInstruction userPrompt : String)
    (tools : ToolRegistry signature Conversation)
    (callbacks : StreamCallbacks signature) (cancel : CancelFlag signature) :
    Action signature Conversation ModelTurn := do
  let stop ← isSet cancel
  if stop then
    pure cancelledTurn
  else do
    let conversation ← get
    let capabilities := capabilitiesOf conversation model
    (if conversation.entries = [] ∧ systemInstruction ≠ "" ∧
        capabilities.supportsSystemInstruction = true then
      pushEntry (chatMessage "system" systemInstruction)
    else
      pure ())
    let conversation ← get
    pushEntry (chatMessage "user"
      (promptText capabilities conversation.entries systemInstruction
        userPrompt))
    executeTurnRequest endpoint config apiKey model tools callbacks cancel

def continueTurn (apiKey model : String) (responses : List ToolResponse)
    (tools : ToolRegistry signature Conversation)
    (callbacks : StreamCallbacks signature) (cancel : CancelFlag signature) :
    Action signature Conversation ModelTurn := do
  let stop ← isSet cancel
  if stop then
    pure cancelledTurn
  else do
    pushToolMessages endpoint responses
    executeTurnRequest endpoint config apiKey model tools callbacks cancel

end OpenRouterProvider

/-! ## Gemini -/

namespace GeminiProvider

variable (endpoint : Endpoint signature)

/-- `{{"role", role}, {"parts", parts}}` -/
def contentEntry (role : String) (parts : Json) : Json :=
  .ofMembers [("role", .string role), ("parts", parts)]

/-- The part answering one call. -/
def responsePart (response : ToolResponse) : Json :=
  .ofMembers
    [("functionResponse",
      .ofMembers
        [("name", .string response.name),
          ("id", .string response.callId),
          ("response", response.result)])]

/-- One element of the loop over the function calls. -/
def readFunctionCall (call : Json) : Except Exception ToolCall := do
  let id ← call.valueOr Json.getString "id" ""
  let name ← call.atKey "name"
  let name ← name.getString
  let arguments ← call.valueOr Except.ok "args" (.object [])
  pure { id := id, name := name, arguments := arguments }

/-- Record the answer and read its calls. -/
def readTurn (parts : TurnParts) : Action signature Conversation ModelTurn :=
  if parts.responseParts = [] then
    pure { errorMessage := "Gemini returned an empty streamed response." }
  else do
    pushEntry (contentEntry "model" (.array parts.responseParts))
    let calls ← Action.ofExcept (parts.calls.mapM readFunctionCall)
    pure { ok := true, text := parts.text, toolCalls := calls }

def executeTurnRequest (apiKey model systemInstruction : String)
    (tools : ToolRegistry signature Conversation)
    (callbacks : StreamCallbacks signature) (cancel : CancelFlag signature) :
    Action signature Conversation ModelTurn :=
  executeTurn endpoint "Gemini"
    ("/v1beta/models/" ++ model ++ ":streamGenerateContent?alt=sse")
    [("x-goog-api-key", apiKey)]
    (parseGeminiStreamChunk endpoint.json callbacks.onText)
    (fun conversation =>
      buildGeminiPayload systemInstruction conversation.entries tools)
    readTurn callbacks cancel

def startTurn (apiKey model systemInstruction userPrompt : String)
    (tools : ToolRegistry signature Conversation)
    (callbacks : StreamCallbacks signature) (cancel : CancelFlag signature) :
    Action signature Conversation ModelTurn := do
  pushEntry (contentEntry "user" (textPart userPrompt))
  executeTurnRequest endpoint apiKey model systemInstruction tools callbacks
    cancel

def continueTurn (apiKey model systemInstruction : String)
    (responses : List ToolResponse)
    (tools : ToolRegistry signature Conversation)
    (callbacks : StreamCallbacks signature) (cancel : CancelFlag signature) :
    Action signature Conversation ModelTurn := do
  pushEntry (contentEntry "user" (.array (responses.map responsePart)))
  executeTurnRequest endpoint apiKey model systemInstruction tools callbacks
    cancel

end GeminiProvider

/-! ## The interface -/

/-- `cancel_active_request` -/
def stopClient (endpoint : Endpoint signature) :
    Action signature Conversation Unit :=
  match endpoint.client with
  | none => pure ()
  | some transport => Action.ofHost transport.stop

/-- `DeepSeekProvider` as an `IModelProvider`. -/
def deepSeekProvider (endpoint : Endpoint signature) :
    IModelProvider signature Conversation where
  modelCapabilities _ := pure {}
  startTurn := DeepSeekProvider.startTurn endpoint
  continueTurn apiKey model _ responses tools callbacks cancel :=
    DeepSeekProvider.continueTurn endpoint apiKey model responses tools
      callbacks cancel
  trimHistory := trimMessages
  cancelActiveRequest := stopClient endpoint
  resetSession := clearEntries

/-- `OpenRouterProvider` as an `IModelProvider`. -/
def openRouterProvider (endpoint : Endpoint signature)
    (config : OpenRouterConfig) :
    IModelProvider signature Conversation where
  modelCapabilities := OpenRouterProvider.modelCapabilities
  startTurn := OpenRouterProvider.startTurn endpoint config
  continueTurn apiKey model _ responses tools callbacks cancel :=
    OpenRouterProvider.continueTurn endpoint config apiKey model responses
      tools callbacks cancel
  trimHistory := trimMessages
  cancelActiveRequest := stopClient endpoint
  resetSession := clearEntries

/-- `GeminiProvider` as an `IModelProvider`. -/
def geminiProvider (endpoint : Endpoint signature) :
    IModelProvider signature Conversation where
  modelCapabilities _ := pure {}
  startTurn := GeminiProvider.startTurn endpoint
  continueTurn := GeminiProvider.continueTurn endpoint
  trimHistory := trimEntries 0
  cancelActiveRequest := stopClient endpoint
  resetSession := clearEntries

end ArnCore.Provider
