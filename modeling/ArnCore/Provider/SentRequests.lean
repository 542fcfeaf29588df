import ArnCore.Provider.ModelList
import ArnCore.Provider.ProviderSession

/-!
# The requests that are sent

A turn of a built-in provider and a listing send requests of one kind only.
What a request consists of is known before anything is sent: its path, its
headers and its payload are those of the provider, the key and the model.
-/

namespace ArnCore.Provider.SentRequests

open ArnCore.Agent
open ArnCore.Agent.Environment
open ArnCore.Agent.PromptCourse
open ArnCore.Interaction
open ArnCore.Interaction.Action
open ArnCore.Net
open ArnCore.Provider.BuiltInTurn
open ArnCore.Provider.LastRequest
open ArnCore.Provider.ProviderSession
open ArnCore.Provider.StreamedCalls
open ArnCore.Tool

variable {Locals Value : Type} {allowed : HttpRequest → Prop}

/-- Whatever an operation sends is allowed. -/
def Sends (allowed : HttpRequest → Prop) (op : AgentOp) : Prop :=
  ∀ request, op = .send request → allowed request

/-- An action sends nothing but what is allowed. -/
def SendsOnly (allowed : HttpRequest → Prop)
    (action : Action agents Locals Value) : Prop :=
  Safe (permitting fun _ => True) (fun _ => Sends allowed) action

/-- Nothing is sent. -/
def Unsent (history : List AgentEvent) : Prop :=
  ∀ event ∈ history, ¬ IsSend event

theorem Unsent.sends
    {history : List AgentEvent} (unsent : Unsent history)
    {allowed : HttpRequest → Prop} :
    ∀ event ∈ history, Sends allowed event.op :=
  fun event member request same => absurd ⟨request, same⟩ (unsent event member)

theorem sends_other
    {op : AgentOp} (other : ∀ request, op ≠ .send request) : Sends allowed op :=
  fun request same => absurd same (other request)

/-- Every request in a run is allowed. -/
theorem SendsOnly.of_finishes
    {action : Action agents Locals Value} (sends : SendsOnly allowed action)
    {locals after : Locals} {history : List AgentEvent}
    {outcome : Except Exception Value}
    (run : Finishes action locals history outcome after) :
    ∀ event ∈ history, Sends allowed event.op :=
  (Holds.finishes (sends locals ()) run fun _ _ => trivial).1

theorem SendsOnly.ensures
    {action : Action agents Locals Value} (sends : SendsOnly allowed action)
    {post : Except Exception Value → Locals → Prop} {locals : Locals}
    (holds : ∀ outcome after, post outcome after) :
    Ensures (fun _ => True) (fun event => Sends allowed event.op) post action
      locals :=
  fun _ _ _ run _ => ⟨sends.of_finishes run, holds _ _⟩

section Operations

theorem always_sendsOnly
    (op : AgentOp) (other : ∀ request, op ≠ .send request) :
    SendsOnly allowed
      (ofHost (always op) : Action agents Locals (agents.Answer op)) :=
  .ofHost fun _ => ⟨sends_other other, fun _ _ _ => trivial⟩

theorem isSet_sendsOnly (watch : Bool) :
    SendsOnly allowed
      (isSet (callerFlag watch) : Action agents Locals Bool) := by
  cases watch with
  | false => exact .pure false
  | true => exact always_sendsOnly (.load .cancelled) nofun

theorem notify_sendsOnly (progress : Bool) (message : String) :
    SendsOnly allowed
      (notify (hostProgress progress) message : Action agents Locals Unit) := by
  cases progress with
  | false => exact .pure ()
  | true => exact .ofHost fun _ => ⟨sends_other nofun, fun _ _ _ => trivial⟩

end Operations

/-! ## Turns -/

section Turns

variable {kind : BuiltIn} {json : JsonText} {errorText : HttpError → String}
  {text progress watch : Bool}

/-- The headers that a request for a stream has besides those of its provider. -/
def streamHeaders : List (String × String) :=
  [("Accept", "text/event-stream"), ("Content-Type", "application/json")]

/-- A request of a turn, whose body is its payload. -/
structure TurnRequest (json : JsonText) (path : String)
    (headers : List (String × String)) (payload : Json → Prop)
    (request : HttpRequest) : Prop where
  path : request.path = path
  headers : request.headers = headers ++ streamHeaders
  payload : payload request.payload
  body : json.dump request.payload = .ok request.body

/-- One attempt sends its request, and nothing else. -/
theorem turnRequest_sendsOnly
    {path : String} {headers : List (String × String)} {payload : Json}
    {known : Json → Prop} (knows : known payload) :
    SendsOnly (TurnRequest json path headers known)
      (turnRequest json network (kind.parseStreamChunk json (hostText text))
        path headers payload (callerFlag watch)) := by
  unfold turnRequest
  cases dumped : json.dump payload with
  | error failure => exact .throw failure
  | ok body =>
      show SendsOnly _
        (streamPost network (kind.parseStreamChunk json (hostText text))
          (callerFlag watch) path headers payload body)
      refine .bind (.modify _) fun _ => .bind ?_ fun transfer =>
        safe_absorb ?_ (isSet_sendsOnly watch) transfer
      · refine .ofHost fun _ => ⟨?_, fun _ _ _ => trivial⟩
        rintro request ⟨⟩
        exact ⟨rfl, rfl, knows, dumped⟩
      · intro event parts state
        refine (showsOnly_parseStreamChunk event parts state).mono ?_
          fun _ _ _ post => post
        rintro - op ⟨delta, rfl⟩
        exact sends_other nofun

/-- All attempts send what one of them sends. -/
theorem streamTurn_sendsOnly
    {request : Action agents (Streaming TurnParts) HttpResult}
    (requests : SendsOnly allowed request) (maxAttempts : Int) :
    SendsOnly allowed
      (streamTurn network request (hostCallbacks text progress)
        (callerFlag watch) maxAttempts :
          Action agents Locals (HttpResult × Streaming TurnParts)) := by
  refine .withLocals (.bind (safe_executeStreamWithRetry requests ?_ ?_ ?_ ?_
    maxAttempts 0) fun response => .bind .get fun streaming => .pure _)
  · exact notify_sendsOnly progress
  · exact isSet_sendsOnly watch
  · exact always_sendsOnly .jitter nofun
  · exact fun delay => always_sendsOnly (.pollsBefore delay) nofun

/-- Reading the parts of a response sends nothing. -/
theorem readTurn_sendsOnly
    {endpoint : Endpoint agents} (parts : TurnParts) :
    SendsOnly allowed (kind.readTurn endpoint parts) := by
  cases kind with
  | chat chat =>
      exact .bind (.modify _) fun _ => .bind (.ofExcept _) fun _ => .pure _
  | gemini =>
      show Safe _ _ (GeminiProvider.readTurn parts)
      unfold GeminiProvider.readTurn
      split_ifs
      · exact .pure _
      · exact .bind (.modify _) fun _ => .bind (.ofExcept _) fun _ => .pure _

theorem concludeTurn_sendsOnly
    {endpoint : Endpoint agents} (provider : String)
    (received : HttpResult × Streaming TurnParts) :
    SendsOnly allowed
      (concludeTurn endpoint provider (kind.readTurn endpoint) received) := by
  unfold concludeTurn
  cases received.1 with
  | error error => exact .pure _
  | ok response =>
      dsimp only
      split_ifs
      · refine .tryCatch (readTurn_sendsOnly _) fun failure => ?_
        cases failure with
        | standard what => exact .pure _
        | foreign => exact .throw _
      · exact .pure _

theorem executeTurnRequest_sendsOnly
    (apiKey model systemInstruction : String)
    (tools : ToolRegistry agents Conversation) :
    SendsOnly
      (TurnRequest json (kind.path model) (kind.headers apiKey) fun payload =>
        ∃ conversation,
          payload = kind.payload model systemInstruction tools conversation)
      (kind.executeTurnRequest (networked json errorText) apiKey model
        systemInstruction tools (hostCallbacks text progress)
        (callerFlag watch)) := by
  rw [BuiltIn.executeTurnRequest_eq]
  refine .bind (isSet_sendsOnly watch) fun stop => ?_
  cases stop with
  | true => exact .pure _
  | false =>
      refine .bind .get fun conversation =>
        .bind (streamTurn_sendsOnly (turnRequest_sendsOnly ⟨conversation, rfl⟩)
          _) fun received => .bind (isSet_sendsOnly watch) fun stop => ?_
      cases stop with
      | true => exact .pure _
      | false => exact concludeTurn_sendsOnly _ received

/-- What a session with this key, model and instruction asks for. -/
abbrev AskedTurn (json : JsonText) (kind : BuiltIn)
    (apiKey model systemInstruction : String)
    (tools : ToolRegistry agents Conversation) : HttpRequest → Prop :=
  TurnRequest json (kind.path model) (kind.headers apiKey) fun payload =>
    ∃ conversation,
      payload = kind.payload model systemInstruction tools conversation

theorem startTurn_sendsOnly
    (apiKey model systemInstruction userPrompt : String)
    (tools : ToolRegistry agents Conversation) :
    SendsOnly (AskedTurn json kind apiKey model systemInstruction tools)
      ((kind.provider (networked json errorText)).startTurn apiKey model
        systemInstruction userPrompt tools (hostCallbacks text progress)
        (callerFlag watch)) := by
  have records : SendsOnly
      (AskedTurn json kind apiKey model systemInstruction tools)
      (kind.recordPrompt (networked json errorText) apiKey model
        systemInstruction userPrompt tools (hostCallbacks text progress)
        (callerFlag watch)) :=
    .bind (.modify _) fun _ => executeTurnRequest_sendsOnly _ _ _ _
  rw [BuiltIn.startTurn_eq]
  unfold BuiltIn.afterCheck
  split_ifs
  · refine .bind (isSet_sendsOnly watch) fun stop => ?_
    cases stop with
    | true => exact .pure _
    | false => exact records
  · exact records

/-- Recording responses sends nothing. -/
theorem pushToolMessages_sendsOnly
    {endpoint : Endpoint agents} (responses : List ToolResponse) :
    SendsOnly allowed (pushToolMessages endpoint responses) := by
  induction responses with
  | nil => exact .pure _
  | cons response responses induction =>
      exact .bind (.ofExcept _) fun _ => .bind (.modify _) fun _ => induction

theorem continueTurn_sendsOnly
    (apiKey model systemInstruction : String) (responses : List ToolResponse)
    (tools : ToolRegistry agents Conversation) :
    SendsOnly (AskedTurn json kind apiKey model systemInstruction tools)
      ((kind.provider (networked json errorText)).continueTurn apiKey model
        systemInstruction responses tools (hostCallbacks text progress)
        (callerFlag watch)) := by
  have requests : SendsOnly
      (AskedTurn json kind apiKey model systemInstruction tools)
      (kind.executeTurnRequest (networked json errorText) apiKey model
        systemInstruction tools (hostCallbacks text progress)
        (callerFlag watch)) :=
    executeTurnRequest_sendsOnly _ _ _ _
  rcases kind with ⟨_ | config⟩ | _
  · exact .bind (pushToolMessages_sendsOnly responses) fun _ => requests
  · refine .bind (isSet_sendsOnly watch) fun stop => ?_
    cases stop with
    | true => exact .pure _
    | false =>
        exact .bind (pushToolMessages_sendsOnly responses) fun _ => requests
  · exact .bind (.modify _) fun _ => requests

end Turns

/-! ## Prompts -/

theorem trimEntries_sendsOnly (keepFrom maxEntries : Nat) :
    SendsOnly allowed (trimEntries keepFrom maxEntries) := by
  refine .bind .get fun conversation => ?_
  cases eraseDown keepFrom maxEntries conversation.entries with
  | none => exact .throw _
  | some entries => exact .modify _

theorem trimHistory_sendsOnly
    {kind : BuiltIn} {endpoint : Endpoint agents} (maxEntries : Nat) :
    SendsOnly allowed ((kind.provider endpoint).trimHistory maxEntries) := by
  have trims : SendsOnly allowed
      (trimMessages maxEntries : Action agents Conversation Unit) := by
    refine .bind .get fun conversation => ?_
    cases conversation.entries with
    | nil => exact trimEntries_sendsOnly _ _
    | cons first rest =>
        exact .bind (.ofExcept _) fun role => trimEntries_sendsOnly _ _
  rcases kind with ⟨_ | config⟩ | _
  · exact trims
  · exact trims
  · exact trimEntries_sendsOnly _ _

/-- Every request of a prompt is a turn of the session it is given to. -/
theorem prompt_sends
    (setup : SessionSetup) (instruction input : String)
    (text progress watch : Bool) {locals : Conversation} :
    Ensures (fun _ => True)
      (fun event =>
        Sends
          (AskedTurn setup.json setup.kind setup.apiKey setup.activeModel
            instruction setup.registry) event.op)
      (fun _ _ => True)
      ((setup.session instruction).prompt (hostCallbacks text progress)
        (callerFlag watch) input) locals := by
  have others : ∀ event : AgentEvent, ¬ IsSend event →
      Sends
        (AskedTurn setup.json setup.kind setup.apiKey setup.activeModel
          instruction setup.registry) event.op :=
    fun event silent => sends_other fun request same => silent ⟨request, same⟩
  refine @PromptCourse.ensures_prompt _ _ _ _ _ _ _ _ (fun _ _ => True)
    (fun _ _ => True) _ (fun _ => True) (fun _ => True) rfl ?_ ?_ locals trivial
  · constructor
    case locks => exact maintains_op others (.lock .session) nofun
    case refuses => exact fun _ _ _ => trivial
    case cancels => exact fun _ _ _ => trivial
    case fails => exact fun _ _ _ => trivial
    case polls => exact maintains_isSet others watch
    case trims =>
      refine fun _ _ => (trimHistory_sendsOnly _).ensures fun outcome _ => ?_
      cases outcome <;> trivial
    case publishes => exact maintains_op others (.publish .activeProvider) nofun
    case unpublished => exact fun _ _ _ => trivial
    case starts =>
      refine fun _ _ => (startTurn_sendsOnly _ _ _ _ _).ensures
        fun outcome _ => ?_
      cases outcome <;> trivial
    case clears =>
      exact fun _ => maintains_op others (.clear .activeProvider) nofun
    case unlocks => exact fun _ => maintains_op others (.unlock .session) nofun
  · constructor
    case undisturbed =>
      exact fun _ => undisturbed others setup instruction text progress watch
    case goesOn =>
      refine fun _ _ _ _ _ _ _ => (continueTurn_sendsOnly _ _ _ _ _).ensures
        fun outcome _ => ?_
      cases outcome <;> trivial
    case leaves => exact fun _ _ _ _ _ => trivial

/-! ## Listings -/

section Listings

variable {json : JsonText} {errorText : HttpError → String} {watch : Bool}

/-- The path of a listing. -/
def listPath : BuiltIn → String
  | .chat .deepSeek => "/models"
  | .chat (.openRouter config) => joinApiPath config.apiPathPrefix "/models"
  | .gemini => "/v1beta/models?pageSize=1000"

/-- The request of a listing. -/
def listRequest (kind : BuiltIn) (apiKey : String) : HttpRequest where
  path := listPath kind
  headers := kind.headers apiKey
  payload := .null
  body := ""

theorem executeWithRetry_sendsOnly
    {request : Host agents HttpResult}
    (requests : ∀ {Locals : Type}, SendsOnly allowed
      (ofHost request : Action agents Locals HttpResult))
    (maxAttempts : Int) (attempt : Nat) :
    SendsOnly allowed
      (executeWithRetry network (callerFlag watch) request maxAttempts
        attempt : Action agents Locals HttpResult) := by
  have draws : SendsOnly allowed
      (ofHost network.jitter : Action agents Locals (Fin 251)) :=
    always_sendsOnly .jitter nofun
  have waits : ∀ delay, SendsOnly allowed
      (ofHost (network.pollsBefore delay) : Action agents Locals Nat) :=
    fun delay => always_sendsOnly (.pollsBefore delay) nofun
  induction remaining : (maxAttempts - attempt).toNat
    using Nat.strong_induction_on generalizing attempt with
  | _ remaining induction =>
      rw [executeWithRetry]
      refine .bind requests fun response =>
        .bind (isSet_sendsOnly watch) fun stop => ?_
      split
      · exact .pure _
      · rename_i final
        simp only [Bool.or_eq_true, decide_eq_true_eq, not_or] at final
        refine .bind (safe_retryDelay draws response attempt) fun delay =>
          .bind (waits delay) fun polls =>
            .bind (safe_waitUntil (isSet_sendsOnly watch) polls)
              fun cancelled => ?_
        cases cancelled with
        | true => exact .pure _
        | false => exact induction _ (by omega) (attempt + 1) rfl

theorem get_sendsOnly (path : String) (headers : List (String × String)) :
    SendsOnly
      (· = { path := path, headers := headers, payload := .null, body := "" })
      (ofHost (get network path headers) : Action agents Locals _) := by
  refine .ofHost fun _ => ⟨?_, fun answer _ _ => ?_⟩
  · rintro request ⟨⟩
    rfl
  · cases answer <;> trivial

theorem unreadableList_sendsOnly
    (verified : String) (read : Except Exception (List String)) :
    SendsOnly allowed
      (unreadableList verified read : Action agents Locals ApiResult) := by
  rcases read with (what | _) | models
  · exact .pure _
  · exact .throw _
  · exact .pure _

theorem concludeListing_sendsOnly
    {endpoint : Endpoint agents} (received : HttpResult) :
    SendsOnly allowed
      (OpenRouterProvider.concludeListing endpoint received) := by
  unfold OpenRouterProvider.concludeListing
  cases received with
  | error error => exact .pure _
  | ok response =>
      dsimp only
      split
      · unfold OpenRouterProvider.readCatalog
        cases parseOpenrouterModelCatalog endpoint.json response.body with
        | ok entries => exact .bind (.modify _) fun _ => .pure _
        | error failure =>
            cases failure with
            | standard what => exact .pure _
            | foreign => exact .throw _
      · exact .pure _

theorem listModels_sendsOnly (kind : BuiltIn) (apiKey : String) :
    SendsOnly (· = listRequest kind apiKey)
      (kind.listModels (networked json errorText) apiKey
        (callerFlag watch)) := by
  have receives : ∀ path,
      SendsOnly
        (· =
          { path := path
            headers := kind.headers apiKey
            payload := .null
            body := "" })
        (executeWithRetry network (callerFlag watch)
          (get network path (kind.headers apiKey)) maxRequestAttempts 0 :
            Action agents Conversation HttpResult) :=
    fun path => executeWithRetry_sendsOnly (get_sendsOnly path _) _ _
  have lists : ∀ provider verified path gemini,
      SendsOnly
        (· =
          { path := path
            headers := kind.headers apiKey
            payload := .null
            body := "" })
        (listCatalog (networked json errorText) provider verified path
          (kind.headers apiKey) gemini (callerFlag watch) :
            Action agents Conversation ApiResult) := by
    intro provider verified path gemini
    refine .bind (receives path) fun received => ?_
    cases received with
    | error error => exact .pure _
    | ok response =>
        dsimp only
        split
        · exact unreadableList_sendsOnly verified _
        · exact .pure _
  rcases kind with ⟨_ | config⟩ | _
  · exact lists _ _ _ _
  · refine .bind (isSet_sendsOnly watch) fun stop => ?_
    cases stop with
    | true => exact .pure _
    | false =>
        refine .bind (receives _) fun received =>
          .bind (isSet_sendsOnly watch) fun stop => ?_
        split
        · exact .pure _
        · exact concludeListing_sendsOnly received
  · exact lists _ _ _ _

end Listings

end ArnCore.Provider.SentRequests
