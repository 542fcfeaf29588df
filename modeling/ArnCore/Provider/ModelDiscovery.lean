import ArnCore.Provider.LastRequest
import ArnCore.Provider.ModelCatalog

/-!
# Discovered capabilities

What OpenRouter offers with a request is decided by the last catalog that was
read.  A listing that fails leaves the map of the capabilities alone, and so
does every turn; hence the map reflects that catalog in every state a provider
can reach.
-/

namespace ArnCore.Provider.ModelDiscovery

open ArnCore.Agent.Environment
open ArnCore.Collections
open ArnCore.Interaction
open ArnCore.Net
open ArnCore.Provider.BuiltInTurn
open ArnCore.Provider.LastRequest
open ArnCore.Provider.RetriedTurn
open ArnCore.Provider.SingleAttempt
open ArnCore.Provider.StreamedCalls
open ArnCore.Tool

/-! ## Requests without a stream -/

section Requests

variable {Locals : Type} {locals after : Locals} {history : List AgentEvent}
  {path : String} {headers : List (String × String)} {watch : Bool}

/-- One request is sent; its response is that of a complete transfer. -/
theorem finishes_get
    {outcome : Except Exception HttpResult}
    (run : Action.Finishes (Action.ofHost (get network path headers)) locals
      history outcome after) :
    after = locals ∧ ∃ received, outcome = .ok received ∧
      ∀ response, received = .ok response →
        ∃ steps, LastAnswer history (.complete response steps) [] := by
  obtain ⟨⟨transfer, later, rfl, finished⟩, rfl⟩ :=
    Action.finishes_ofHost.mp run
  refine ⟨rfl, ?_⟩
  cases transfer with
  | failed error =>
      obtain ⟨rfl, rfl⟩ := finished
      exact ⟨_, rfl, nofun⟩
  | broken status steps error =>
      obtain ⟨rfl, rfl⟩ := finished
      exact ⟨_, rfl, nofun⟩
  | complete response steps =>
      obtain ⟨rfl, rfl⟩ := finished
      refine ⟨_, rfl, ?_⟩
      rintro other ⟨⟩
      exact ⟨steps, ⟨[], _, rfl⟩, by simp⟩

theorem not_isSend_of_around_event
    (around : ∀ event ∈ history, AroundRequests event) :
    ∀ event ∈ history, ¬ IsSend event :=
  fun event member => not_isSend_of_around (around event member)

/-- The response of a repeated request answers the last one that was sent. -/
theorem finishes_executeWithRetry
    {maxAttempts : Int} {attempt : Nat}
    {outcome : Except Exception HttpResult}
    (run : Action.Finishes
      (executeWithRetry network (callerFlag watch)
        (get network path headers) maxAttempts attempt)
      locals history outcome after) :
    after = locals ∧
      ∀ response, outcome = .ok (.ok response) →
        ∃ steps later, LastAnswer history (.complete response steps) later := by
  induction remaining : (maxAttempts - attempt).toNat
    using Nat.strong_induction_on generalizing attempt history with
  | _ remaining induction =>
      rw [executeWithRetry] at run
      rcases Action.finishes_bind.mp run with
        ⟨failure, -, thrown⟩ |
        ⟨request, rest, received, between, rfl, responded, continued⟩
      · obtain ⟨-, received, impossible, -⟩ := finishes_get thrown
        cases impossible
      obtain ⟨rfl, answered, same, answers⟩ := finishes_get responded
      cases same
      obtain ⟨check, decision, stop, between, rfl, checked, decided⟩ :=
        finishes_isSet_bind.mp continued
      obtain ⟨rfl, found, same, split⟩ := finishes_isSet checked
      cases same
      have polls : ∀ event ∈ check, ¬ IsSend event := by
        rw [split]
        exact not_isSend_of_around_event (around_of_isPoll isPoll_of_check)
      -- Behind the request that was answered nothing is sent.
      have last : ∀ silent : List AgentEvent,
          (∀ event ∈ silent, ¬ IsSend event) →
          ∀ response, received = .ok response →
            ∃ steps later, LastAnswer (request ++ (check ++ silent))
              (.complete response steps) later := by
        intro silent quiet response same
        obtain ⟨steps, answer⟩ := answers response same
        exact ⟨steps, _, answer.append_silent
          (List.forall_mem_append.mpr ⟨polls, quiet⟩)⟩
      split_ifs at decided with final
      · obtain ⟨rfl, rfl, rfl⟩ := Action.finishes_pure.mp decided
        refine ⟨rfl, ?_⟩
        rintro response ⟨⟩
        exact last [] (by simp) response rfl
      · -- Without a callback the notice of the back-off is silent.
        rcases @finishes_backOff _ _ _ _ false watch received attempt
            (fun _ => "") outcome _ decided with
          ⟨left, rfl, around⟩ | ⟨wait, again, rfl, waited, more⟩
        · refine ⟨rfl, ?_⟩
          rintro response rfl
          rcases left with ⟨failure, impossible, -⟩ | same
          · cases impossible
          · cases same
            exact last decision (not_isSend_of_around_event around) response
              rfl
        · simp only [Bool.or_eq_true, decide_eq_true_eq, not_or] at final
          obtain ⟨same, answered⟩ := induction _ (by omega) more rfl
          refine ⟨same, ?_⟩
          intro response returned
          obtain ⟨steps, later, answer⟩ := answered response returned
          refine ⟨steps, later, ?_⟩
          simp only [← List.append_assoc]
          exact answer.append_left

end Requests

/-! ## One listing -/

section Listing

variable {json : JsonText} {errorText : HttpError → String}
  {config : OpenRouterConfig} {apiKey : String} {watch : Bool}
  {locals after : Conversation} {history : List AgentEvent}
  {outcome : Except Exception ApiResult}

/-- The last request of a history was answered with a catalog. -/
def Received (json : JsonText) (history : List AgentEvent)
    (items : List Json) : Prop :=
  ∃ response steps later document,
    LastAnswer history (.complete response steps) later ∧
      isSuccess response.status = true ∧
      json.parse response.body = .ok document ∧
      catalogItems document = items

/-- A history received at most one catalog last. -/
theorem Received.unique
    {items others : List Json}
    (received : Received json history items)
    (same : Received json history others) : items = others := by
  obtain ⟨response, steps, later, document, answer, -, read, rfl⟩ := received
  obtain ⟨response', steps', later', document', answer', -, read', rfl⟩ := same
  cases answer.unique answer'
  rw [Except.ok.inj (read.symm.trans read')]

/-- A listing that left the capabilities alone. -/
def Unlisted (locals : Conversation) (outcome : Except Exception ApiResult)
    (after : Conversation) : Prop :=
  after = locals ∧ ∀ result, outcome = .ok result → result.ok = false

theorem Unlisted.of_result
    {result : ApiResult} (failed : result.ok = false) :
    Unlisted locals (.ok result) locals := by
  refine ⟨rfl, ?_⟩
  rintro same ⟨⟩
  exact failed

/-- A listing that rebuilt the capabilities from the catalog it received. -/
structure Listed (json : JsonText) (locals : Conversation)
    (history : List AgentEvent) (result : ApiResult) (after : Conversation)
    (document : Json) (entries : List OpenRouterModelEntry) : Prop where
  ok : result.ok = true
  received : Received json history (catalogItems document)
  parsed : ∃ body, json.parse body = .ok document ∧
    parseOpenrouterModelCatalog json body = .ok entries
  models : result.models = entries.map OpenRouterModelEntry.id
  rebuilt : after =
    { locals with capabilities := entries.foldl emplace [] }

/-- What a listing makes of a response. -/
theorem finishes_concludeListing
    {received : HttpResult}
    (run : Action.Finishes
      (OpenRouterProvider.concludeListing (networked json errorText) received)
      locals history outcome after) :
    history = [] ∧
      (Unlisted locals outcome after ∨
        ∃ response entries result,
          received = .ok response ∧ isSuccess response.status = true ∧
          parseOpenrouterModelCatalog json response.body = .ok entries ∧
          outcome = .ok result ∧ result.ok = true ∧
          result.models = entries.map OpenRouterModelEntry.id ∧
          after = { locals with capabilities := entries.foldl emplace [] }) := by
  cases received with
  | error error =>
      obtain ⟨rfl, rfl, rfl⟩ := Action.finishes_pure.mp run
      exact ⟨rfl, Or.inl (.of_result rfl)⟩
  | ok response =>
      by_cases success : isSuccess response.status = true
      · simp only [OpenRouterProvider.concludeListing, success, if_true] at run
        unfold OpenRouterProvider.readCatalog at run
        cases parsed : parseOpenrouterModelCatalog (networked json errorText).json
            response.body with
        | ok entries =>
            rw [parsed] at run
            have rebuilt := Action.finishes_modify_bind.mp run
            obtain ⟨rfl, rfl, rfl⟩ := Action.finishes_pure.mp rebuilt
            exact ⟨rfl, Or.inr
              ⟨response, entries, _, rfl, success, parsed, rfl, rfl, rfl, rfl⟩⟩
        | error failure =>
            rw [parsed] at run
            cases failure with
            | standard what =>
                obtain ⟨rfl, rfl, rfl⟩ := Action.finishes_pure.mp run
                exact ⟨rfl, Or.inl (.of_result rfl)⟩
            | foreign =>
                obtain ⟨rfl, rfl, rfl⟩ := Action.finishes_throw.mp run
                exact ⟨rfl, Or.inl ⟨rfl, nofun⟩⟩
      · simp only [OpenRouterProvider.concludeListing, success] at run
        obtain ⟨rfl, rfl, rfl⟩ := Action.finishes_pure.mp run
        exact ⟨rfl, Or.inl (.of_result rfl)⟩

/-- A listing fails without a trace, or it rebuilds the capabilities. -/
theorem finishes_listModels
    (run : Action.Finishes
      (OpenRouterProvider.listModels (networked json errorText) config apiKey
        (callerFlag watch)) locals history outcome after) :
    Unlisted locals outcome after ∨
      ∃ result document entries, outcome = .ok result ∧
        Listed json locals history result after document entries := by
  obtain ⟨check, rest, stop, between, rfl, checked, continued⟩ :=
    finishes_isSet_bind.mp run
  obtain ⟨rfl, ⟨same, clear⟩ | ⟨same, -⟩⟩ := finishes_check checked
  · cases same
    rcases Action.finishes_bind.mp continued with
      ⟨failure, rfl, thrown⟩ |
      ⟨requests, rest, received, between, rfl, responded, recheck⟩
    · obtain ⟨rfl, -⟩ := finishes_executeWithRetry thrown
      exact Or.inl ⟨rfl, nofun⟩
    obtain ⟨rfl, answered⟩ := finishes_executeWithRetry responded
    obtain ⟨again, reading, stop, between, rfl, rechecked, concluded⟩ :=
      finishes_isSet_bind.mp recheck
    obtain ⟨rfl, ⟨same, reclear⟩ | ⟨same, -⟩⟩ := finishes_check rechecked
    · cases same
      obtain ⟨rfl, unlisted |
        ⟨response, entries, result, rfl, success, parsed, rfl, ok, models,
          rebuilt⟩⟩ := finishes_concludeListing concluded
      · exact Or.inl unlisted
      obtain ⟨steps, later, answer⟩ := answered response rfl
      obtain ⟨document, found, read, listed, sorted⟩ :=
        parseOpenrouterModelCatalog_eq_ok.mp parsed
      have last : LastAnswer (check ++ (requests ++ again))
          (.complete response steps) (later ++ again) :=
        (answer.append_silent fun event member =>
          not_isSend_of_foundClear (reclear event member)).append_left
      rw [List.append_nil]
      exact Or.inr ⟨result, document, entries, rfl, ok,
        ⟨response, steps, _, document, last, success, read, rfl⟩,
        ⟨response.body, read, parsed⟩, models, rebuilt⟩
    · cases same
      obtain ⟨rfl, rfl, rfl⟩ := Action.finishes_pure.mp concluded
      exact Or.inl (.of_result rfl)
  · cases same
    obtain ⟨rfl, rfl, rfl⟩ := Action.finishes_pure.mp continued
    exact Or.inl (.of_result rfl)

end Listing

/-! ## One turn -/

section Turns

variable {json : JsonText} {errorText : HttpError → String}
  {apiKey model systemInstruction : String}
  {tools : ToolRegistry agents Conversation} {text progress watch : Bool}
  {locals after : Conversation} {history : List AgentEvent}
  {outcome : Except Exception ModelTurn}

/-- Whatever an operation sends carries this payload. -/
def Carries (payload : Json) (op : AgentOp) : Prop :=
  ∀ request, op = .send request → request.payload = payload

theorem carries_callback {payload : Json} {op : AgentOp}
    (other : ∀ request, op ≠ .send request) : Carries payload op :=
  fun request same => absurd same (other request)

/-- One attempt sends its payload, and nothing else. -/
theorem carries_turnRequest
    (kind : BuiltIn) (path : String) (headers : List (String × String))
    (payload : Json) :
    Action.Safe (permitting fun _ => True) (fun _ => Carries payload)
      (turnRequest json network
        (kind.parseStreamChunk json (hostText text)) path headers payload
        (callerFlag watch)) := by
  refine .bind (.ofExcept _) fun body => .bind (.modify _) fun _ => .bind ?_
    fun transfer => safe_absorb ?_ ?_ transfer
  · refine .ofHost fun _ => ⟨?_, fun _ _ _ => trivial⟩
    rintro request ⟨⟩
    rfl
  · intro event parts state
    refine (showsOnly_parseStreamChunk event parts state).mono ?_
      fun _ _ _ post => post
    rintro - op ⟨delta, rfl⟩
    exact carries_callback nofun
  · cases watch with
    | false => exact .pure false
    | true =>
        exact .ofHost fun _ => ⟨carries_callback nofun, fun _ _ _ => trivial⟩

/-- Every request of a turn carries the payload the turn began with. -/
theorem carries_streamTurn
    {Locals : Type} {locals after : Locals}
    {kind : BuiltIn} {path : String} {headers : List (String × String)}
    {payload : Json} {maxAttempts : Int}
    {outcome : Except Exception (HttpResult × Streaming TurnParts)}
    (run : Action.Finishes
      (streamTurn network
        (turnRequest json network
          (kind.parseStreamChunk json (hostText text)) path headers payload
          (callerFlag watch))
        (hostCallbacks text progress) (callerFlag watch) maxAttempts)
      locals history outcome after) :
    ∀ event ∈ history, Carries payload event.op := by
  have asks : ∀ {Locals : Type} (op : AgentOp),
      (∀ request, op ≠ .send request) →
      Action.Safe (permitting fun _ => True) (fun _ => Carries payload)
        (Action.ofHost (always op) :
          Action agents Locals (agents.Answer op)) :=
    fun op other => .ofHost fun _ =>
      ⟨carries_callback other, fun _ _ _ => trivial⟩
  have sends : Action.Safe (permitting fun _ => True)
      (fun _ => Carries payload)
      (streamTurn network
        (turnRequest json network
          (kind.parseStreamChunk json (hostText text)) path headers payload
          (callerFlag watch))
        (hostCallbacks text progress) (callerFlag watch) maxAttempts :
          Action agents Locals _) := by
    refine .withLocals (.bind (safe_executeStreamWithRetry
      (carries_turnRequest kind path headers payload) ?_ ?_
      (asks .jitter nofun) (fun delay => asks (.pollsBefore delay) nofun)
      maxAttempts 0) fun response =>
        .bind .get fun streaming => .pure _)
    · intro message
      cases progress with
      | false => exact .pure ()
      | true =>
          exact .ofHost fun _ =>
            ⟨carries_callback nofun, fun _ _ _ => trivial⟩
    · cases watch with
      | false => exact .pure false
      | true => exact asks (.load .cancelled) nofun
  exact (Action.Holds.finishes (sends locals ()) run (by simp)).1

/-- A turn request sends the payload of the history it was started with. -/
theorem carries_executeTurnRequest
    {kind : BuiltIn}
    (run : Action.Finishes
      (kind.executeTurnRequest (networked json errorText) apiKey model
        systemInstruction tools (hostCallbacks text progress)
        (callerFlag watch)) locals history outcome after) :
    ∀ event ∈ history,
      Carries (kind.payload model systemInstruction tools locals)
        event.op := by
  rw [BuiltIn.executeTurnRequest_eq] at run
  have checks : ∀ {event : AgentEvent}, FoundClear event →
      Carries (kind.payload model systemInstruction tools locals)
        event.op := by
    rintro event rfl
    exact carries_callback nofun
  cases exit_of_executeTurn run with
  | uninitialized => simp
  | stopped =>
      intro event member
      cases List.mem_singleton.mp member
      exact carries_callback nofun
  | threw client clear streams =>
      cases client
      exact List.forall_mem_append.mpr
        ⟨fun event member => checks (clear event member),
          carries_streamTurn streams⟩
  | cancelled client clear streams =>
      cases client
      simp only [List.forall_mem_append, List.forall_mem_singleton]
      exact ⟨fun event member => checks (clear event member),
        carries_streamTurn streams, carries_callback nofun⟩
  | unsuccessful client clear streams failed =>
      cases client
      rw [List.forall_mem_append] at clear
      simp only [List.forall_mem_append]
      exact ⟨fun event member => checks (clear.1 event member),
        carries_streamTurn streams,
        fun event member => checks (clear.2 event member)⟩
  | answered client answered reads =>
      cases client
      obtain ⟨rfl, -⟩ := BuiltIn.finishes_readTurn reads
      have clear := List.forall_mem_append.mp answered.clear
      rw [List.append_nil]
      simp only [List.forall_mem_append]
      exact ⟨fun event member => checks (clear.1 event member),
        carries_streamTurn answered.streams,
        fun event member => checks (clear.2 event member)⟩

/-- A turn request changes the entries at most. -/
theorem capabilities_of_executeTurnRequest
    {kind : BuiltIn} {endpoint : Endpoint agents}
    {callbacks : StreamCallbacks agents}
    (run : Action.Finishes
      (kind.executeTurnRequest endpoint apiKey model systemInstruction tools
        callbacks (callerFlag watch)) locals history outcome after) :
    after.capabilities = locals.capabilities := by
  rw [BuiltIn.executeTurnRequest_eq] at run
  rcases finishes_executeTurn run with
    unanswered |
    ⟨transport, check, streamed, recheck, reading, response, streaming,
      client, rfl, answered, reads⟩
  · rw [unanswered.unchanged]
  obtain ⟨-, read⟩ := BuiltIn.finishes_readTurn reads
  cases entry : kind.answerRecord? streaming.parts with
  | none =>
      rw [entry] at read
      rw [read.2]
  | some entry' =>
      rw [entry] at read
      rw [read.2]

/-- Recording responses performs no operation. -/
theorem finishes_pushToolMessages
    {endpoint : Endpoint agents} {responses : List ToolResponse}
    {outcome : Except Exception Unit}
    (run : Action.Finishes (pushToolMessages endpoint responses) locals history
      outcome after) :
    history = [] ∧ after.capabilities = locals.capabilities := by
  induction responses generalizing locals history with
  | nil =>
      obtain ⟨rfl, -, rfl⟩ := Action.finishes_pure.mp run
      exact ⟨rfl, rfl⟩
  | cons response responses induction =>
      rcases Action.finishes_bind.mp run with
        ⟨failure, -, thrown⟩ |
        ⟨first, rest, content, between, rfl, dumped, pushed⟩
      · obtain ⟨rfl, -, rfl⟩ := Action.finishes_ofExcept.mp thrown
        exact ⟨rfl, rfl⟩
      · obtain ⟨rfl, -, rfl⟩ := Action.finishes_ofExcept.mp dumped
        obtain ⟨rfl, same⟩ := induction (Action.finishes_modify_bind.mp pushed)
        exact ⟨rfl, same⟩

/-- A turn of the provider for a model, with the tools that are registered. -/
inductive Turn (json : JsonText) (errorText : HttpError → String)
    (config : OpenRouterConfig) (model : String)
    (tools : ToolRegistry agents Conversation) (locals : Conversation)
    (history : List AgentEvent) (outcome : Except Exception ModelTurn)
    (after : Conversation) : Prop where
  | started {apiKey systemInstruction userPrompt : String}
      {text progress watch : Bool}
      (run : Action.Finishes
        ((openRouterProvider (networked json errorText) config).startTurn
          apiKey model systemInstruction userPrompt tools
          (hostCallbacks text progress) (callerFlag watch))
        locals history outcome after)
  | continued {apiKey systemInstruction : String}
      {responses : List ToolResponse} {text progress watch : Bool}
      (run : Action.Finishes
        ((openRouterProvider (networked json errorText) config).continueTurn
          apiKey model systemInstruction responses tools
          (hostCallbacks text progress) (callerFlag watch))
        locals history outcome after)

/-- A turn keeps the capabilities, and it sends what they allow. -/
theorem Turn.frame
    {config : OpenRouterConfig}
    (turn : Turn json errorText config model tools locals history outcome
      after) :
    after.capabilities = locals.capabilities ∧
      ∀ event ∈ history, ∀ request, event.op = .send request →
        ∃ entries, request.payload =
          buildOpenrouterPayload model entries tools
            (OpenRouterProvider.capabilitiesOf locals model).supportsTools := by
  -- Both turn functions request after a check, on more entries than before.
  have requested : ∀ (systemInstruction : String) {apiKey : String}
      {text progress watch : Bool} {recorded : Conversation}
      {check later : List AgentEvent},
      recorded.capabilities = locals.capabilities →
      (∀ event ∈ check, FoundClear event) →
      Action.Finishes
        (BuiltIn.executeTurnRequest (.chat (.openRouter config))
          (networked json errorText) apiKey model systemInstruction tools
          (hostCallbacks text progress) (callerFlag watch))
        recorded later outcome after →
      after.capabilities = locals.capabilities ∧
        ∀ event ∈ check ++ later, ∀ request, event.op = .send request →
          ∃ entries, request.payload =
            buildOpenrouterPayload model entries tools
              (OpenRouterProvider.capabilitiesOf locals
                model).supportsTools := by
    intro systemInstruction apiKey text progress watch recorded check later
      same clear run
    refine ⟨(capabilities_of_executeTurnRequest run).trans same, ?_⟩
    intro event member request sends
    rcases List.mem_append.mp member with checked | sent
    · exact absurd ⟨request, sends⟩
        (not_isSend_of_foundClear (clear event checked))
    · have payload := carries_executeTurnRequest run event sent request sends
      refine ⟨recorded.entries, payload.trans ?_⟩
      simp only [BuiltIn.payload, OpenRouterProvider.capabilitiesOf, same]
  cases turn with
  | @started apiKey systemInstruction userPrompt text progress watch run =>
      have started := (BuiltIn.startTurn_eq (.chat (.openRouter config))
        (networked json errorText) apiKey model systemInstruction userPrompt
        tools (hostCallbacks text progress) (callerFlag watch)) ▸ run
      obtain ⟨check, later, stop, between, rfl, checked, continued⟩ :=
        finishes_isSet_bind.mp started
      obtain ⟨rfl, ⟨same, clear⟩ | ⟨same, rfl⟩⟩ := finishes_check checked
      · cases same
        have recorded := Action.finishes_modify_bind.mp continued
        refine requested systemInstruction ?_ clear recorded
        rfl
      · cases same
        obtain ⟨rfl, rfl, rfl⟩ := Action.finishes_pure.mp continued
        exact ⟨rfl, by simp⟩
  | continued run =>
      obtain ⟨check, later, stop, between, rfl, checked, continued⟩ :=
        finishes_isSet_bind.mp run
      obtain ⟨rfl, ⟨same, clear⟩ | ⟨same, rfl⟩⟩ := finishes_check checked
      · cases same
        rcases Action.finishes_bind.mp continued with
          ⟨failure, rfl, thrown⟩ |
          ⟨first, rest, value, recorded, rfl, pushed, requests⟩
        · obtain ⟨rfl, kept⟩ := finishes_pushToolMessages thrown
          refine ⟨kept, ?_⟩
          intro event member request sends
          rw [List.append_nil] at member
          exact absurd ⟨request, sends⟩
            (not_isSend_of_foundClear (clear event member))
        · obtain ⟨rfl, kept⟩ := finishes_pushToolMessages pushed
          exact requested "" kept clear requests
      · cases same
        obtain ⟨rfl, rfl, rfl⟩ := Action.finishes_pure.mp continued
        exact ⟨rfl, by simp⟩

end Turns

/-! ## Every sequence of listings and turns -/

section Sequences

variable {json : JsonText} {errorText : HttpError → String}
  {config : OpenRouterConfig}

/-- Trimming the history leaves the capabilities alone. -/
theorem capabilities_of_trimHistory
    {maxEntries : Nat} {locals after : Conversation}
    {history : List AgentEvent} {outcome : Except Exception Unit}
    (run : Action.Finishes
      ((openRouterProvider (networked json errorText) config).trimHistory
        maxEntries) locals history outcome after) :
    after.capabilities = locals.capabilities := by
  have erased : ∀ {keepFrom : Nat} {history : List AgentEvent},
      Action.Finishes (trimEntries keepFrom maxEntries) locals history outcome
        after → after.capabilities = locals.capabilities := by
    intro keepFrom history trims
    have kept := Action.finishes_get_bind.mp trims
    cases trimmed : eraseDown keepFrom maxEntries locals.entries with
    | none =>
        rw [trimmed] at kept
        obtain ⟨-, -, rfl⟩ := Action.finishes_throw.mp kept
        rfl
    | some entries =>
        rw [trimmed] at kept
        obtain ⟨-, -, rfl⟩ := Action.finishes_modify.mp kept
        rfl
  have trims := Action.finishes_get_bind.mp run
  cases recorded : locals.entries with
  | nil =>
      rw [recorded] at trims
      exact erased trims
  | cons first rest =>
      rw [recorded] at trims
      rcases Action.finishes_bind.mp trims with
        ⟨failure, -, thrown⟩ |
        ⟨check, later, role, between, rfl, read, continued⟩
      · obtain ⟨-, -, rfl⟩ := Action.finishes_ofExcept.mp thrown
        rfl
      · obtain ⟨-, -, rfl⟩ := Action.finishes_ofExcept.mp read
        exact erased continued

/--
The states of a provider, each with the last catalog that was read from a
listing.  The ids of a catalog are distinct.
-/
inductive Reached (json : JsonText) (errorText : HttpError → String)
    (config : OpenRouterConfig) : Option (List Json) → Conversation → Prop where
  | created : Reached json errorText config none {}
  | listed {catalog : Option (List Json)} {conversation after : Conversation}
      {apiKey : String} {watch : Bool} {history : List AgentEvent}
      {result : ApiResult} {items : List Json}
      (before : Reached json errorText config catalog conversation)
      (run : Action.Finishes
        (OpenRouterProvider.listModels (networked json errorText) config apiKey
          (callerFlag watch)) conversation history (.ok result) after)
      (ok : result.ok = true)
      (received : Received json history items)
      (distinct : (catalogIds items).Nodup) :
      Reached json errorText config (some items) after
  | unlisted {catalog : Option (List Json)} {conversation after : Conversation}
      {apiKey : String} {watch : Bool} {history : List AgentEvent}
      {outcome : Except Exception ApiResult}
      (before : Reached json errorText config catalog conversation)
      (run : Action.Finishes
        (OpenRouterProvider.listModels (networked json errorText) config apiKey
          (callerFlag watch)) conversation history outcome after)
      (failed : ∀ result, outcome = .ok result → result.ok = false) :
      Reached json errorText config catalog after
  | turned {catalog : Option (List Json)} {conversation after : Conversation}
      {model : String} {tools : ToolRegistry agents Conversation}
      {history : List AgentEvent} {outcome : Except Exception ModelTurn}
      (before : Reached json errorText config catalog conversation)
      (turn : Turn json errorText config model tools conversation history
        outcome after) :
      Reached json errorText config catalog after
  | trimmed {catalog : Option (List Json)} {conversation after : Conversation}
      {maxEntries : Nat} {history : List AgentEvent}
      {outcome : Except Exception Unit}
      (before : Reached json errorText config catalog conversation)
      (run : Action.Finishes
        ((openRouterProvider (networked json errorText) config).trimHistory
          maxEntries) conversation history outcome after) :
      Reached json errorText config catalog after
  | cleared {catalog : Option (List Json)} {conversation after : Conversation}
      {history : List AgentEvent} {outcome : Except Exception Unit}
      (before : Reached json errorText config catalog conversation)
      (run : Action.Finishes
        (openRouterProvider (networked json errorText) config).resetSession
        conversation history outcome after) :
      Reached json errorText config catalog after

/-- The map reflects the last catalog in every state a provider reaches. -/
theorem reflects_of_reached
    {catalog : Option (List Json)} {conversation : Conversation}
    (reached : Reached json errorText config catalog conversation) :
    Reflects catalog conversation.capabilities := by
  induction reached with
  | created => exact reflects_none
  | listed before run ok received distinct induction =>
      rcases finishes_listModels run with
        unlisted | ⟨result, document, entries, same, listed⟩
      · rw [unlisted.2 _ rfl] at ok
        cases ok
      · obtain rfl := received.unique listed.received
        obtain ⟨body, read, parsed⟩ := listed.parsed
        rw [listed.rebuilt]
        exact (emplaced_of_parsed read parsed distinct).2.2
  | unlisted before run failed induction =>
      rcases finishes_listModels run with
        unlisted | ⟨result, document, entries, rfl, listed⟩
      · rw [unlisted.1]
        exact induction
      · have impossible := failed result rfl
        rw [listed.ok] at impossible
        cases impossible
  | turned before turn induction =>
      rw [turn.frame.1]
      exact induction
  | trimmed before run induction =>
      rw [capabilities_of_trimHistory run]
      exact induction
  | cleared before run induction =>
      obtain ⟨-, -, rfl⟩ := Action.finishes_modify.mp run
      exact induction

/-- Tools are offered together with the choice among them. -/
theorem contains_buildOpenrouterPayload
    {model member : String} {entries : List Json}
    {tools : ToolRegistry agents Conversation} {supportsTools : Bool}
    (choice : member ∈ ["tools", "tool_choice"]) :
    (buildOpenrouterPayload model entries tools supportsTools).contains
        member = true ↔
      supportsTools = true ∧ tools.empty = false := by
  rw [buildOpenrouterPayload, Json.contains_ofMembers]
  by_cases offered : (supportsTools && !tools.empty) = true
  · have both := offered
    rw [Bool.and_eq_true, Bool.not_eq_true'] at both
    rw [chatToolMembers, if_pos offered]
    refine iff_of_true ?_ both
    simp only [List.mem_cons, List.not_mem_nil, or_false] at choice
    rcases choice with rfl | rfl
    · exact ⟨("tools", serializeChatTools tools), by simp, rfl⟩
    · exact ⟨("tool_choice", .string "auto"), by simp, rfl⟩
  · have neither := offered
    rw [Bool.and_eq_true, Bool.not_eq_true'] at neither
    rw [chatToolMembers, if_neg offered]
    refine iff_of_false ?_ neither
    simp only [List.mem_cons, List.not_mem_nil, or_false] at choice
    rcases choice with rfl | rfl
    · simp
    · simp

/--
A listing leaves the provider as it was, or its map has the listed models as
keys, in increasing order.  A request offers tools exactly when some are
registered and the last catalog does not list the model without them.
-/
theorem discovery_governs_requests
    {catalog : Option (List Json)} {conversation : Conversation}
    (reached : Reached json errorText config catalog conversation) :
    (∀ apiKey watch history outcome after,
      Action.Finishes
        (OpenRouterProvider.listModels (networked json errorText) config apiKey
          (callerFlag watch)) conversation history outcome after →
      ((∀ result, outcome = .ok result → result.ok = false) →
        after = conversation) ∧
      ∀ result, outcome = .ok result → result.ok = true →
        ∃ items, Received json history items ∧
          ((catalogIds items).Nodup →
            after.capabilities.map Prod.fst = result.models ∧
              result.models.Pairwise (· < ·))) ∧
    ∀ model tools history outcome after,
      Turn json errorText config model tools conversation history outcome
        after →
      ∀ event ∈ history, ∀ request, event.op = .send request →
        ∀ member ∈ ["tools", "tool_choice"],
          (request.payload.contains member = true ↔
            tools.empty = false ∧
              ∀ items, catalog = some items →
                ∀ item ∈ items, Lists item model → OffersTools item) := by
  constructor
  · intro apiKey watch history outcome after run
    rcases finishes_listModels run with
      unlisted | ⟨result, document, entries, rfl, listed⟩
    · refine ⟨fun _ => unlisted.1, ?_⟩
      rintro result rfl ok
      rw [unlisted.2 result rfl] at ok
      cases ok
    · constructor
      · intro failed
        have impossible := failed result rfl
        rw [listed.ok] at impossible
        cases impossible
      · rintro same ⟨⟩ -
        refine ⟨_, listed.received, ?_⟩
        intro distinct
        obtain ⟨body, read, parsed⟩ := listed.parsed
        obtain ⟨increasing, keys, -⟩ := emplaced_of_parsed read parsed distinct
        rw [listed.rebuilt, listed.models]
        exact ⟨keys, increasing⟩
  · intro model tools history outcome after turn event member request sends
      choice chosen
    obtain ⟨entries, payload⟩ := turn.frame.2 event member request sends
    rw [payload, contains_buildOpenrouterPayload chosen, and_comm]
    exact and_congr Iff.rfl (reflects_of_reached reached model)

end Sequences

/-! ## A catalog with a model for images -/

/-- A model for text without tools. -/
def textItem : Json :=
  .object
    [("id", .string "text"),
      ("supported_parameters", .array [.string "temperature"])]

/-- A model that makes images of images, without tools. -/
def imageItem : Json :=
  .object
    [("architecture", .object [("modality", .string "image->image")]),
      ("id", .string "image"),
      ("supported_parameters", .array [.string "temperature"])]

def servedCatalog : Json :=
  .object [("data", .array [textItem, imageItem])]

def helloPacket : Json :=
  .object
    [("choices",
      .array [.object [("delta", .object [("content", .string "Hi")])]])]

/-- A text library that knows the catalog and an answer. -/
def knownCatalog : JsonText :=
  .knowing [.ofValue servedCatalog, .ofValue helloPacket]

/-- A provider that serves the catalog, and answers every turn. -/
def servesCatalog : List AgentEvent → (op : AgentOp) → agents.Answer op
  | _, .send request =>
      if request.path = "/api/v1/models" then
        Transfer.complete
          { status := 200, body := servedCatalog.compact } []
      else
        Transfer.complete { status := 200 }
          [.chunk (EventStream.sentStream [helloPacket.compact, "[DONE]"])]
  | _, op => quiet op

/-- A listing, run against `servesCatalog`. -/
def listingRun : List AgentEvent ×
    (Except Exception ApiResult × Conversation) :=
  Program.scripted servesCatalog
    ((OpenRouterProvider.listModels (networked knownCatalog fun _ => "error")
      {} "key" (callerFlag false)).run.run {})
    []

/-- A registry with one tool. -/
def oneTool : ToolRegistry agents Conversation where
  tools :=
    [("f", anyTool
      { name := "f", description := "", parameterSchema := .null } false)]

/-- A turn for a model behind the listing. -/
def turnRun (model : String) : List AgentEvent ×
    (Except Exception ModelTurn × Conversation) :=
  Program.scripted servesCatalog
    (((openRouterProvider (networked knownCatalog fun _ => "error")
      {}).startTurn "key" model "" "Hello" oneTool (hostCallbacks false false)
      (callerFlag false)).run.run listingRun.2.2)
    []

/-- The models a listing returned. -/
def listedModels : Except Exception ApiResult → List String
  | .ok result => if result.ok then result.models else []
  | .error _ => []

theorem ok_of_listedModels
    {outcome : Except Exception ApiResult}
    (listed : listedModels outcome ≠ []) :
    ∃ result, outcome = .ok result ∧ result.ok = true := by
  cases outcome with
  | error failure => exact absurd rfl listed
  | ok result =>
      refine ⟨result, rfl, ?_⟩
      by_contra failed
      simp [listedModels, failed] at listed

theorem parse_servedCatalog :
    knownCatalog.parse servedCatalog.compact = .ok servedCatalog :=
  JsonText.parse_knowing (by decide +kernel) List.mem_cons_self

theorem received_listingRun :
    Received knownCatalog listingRun.1 [textItem, imageItem] := by
  have answer : LastAnswer listingRun.1
      (.complete { status := 200, body := servedCatalog.compact } []) [] :=
    .of_only (by decide +kernel)
  refine ⟨{ status := 200, body := servedCatalog.compact }, [], [],
    servedCatalog, answer, rfl, ?_, rfl⟩
  exact parse_servedCatalog

/-- The listing of the catalog succeeded. -/
theorem reached_listingRun :
    Reached knownCatalog (fun _ => "error") {}
      (some [textItem, imageItem]) listingRun.2.2 := by
  have run : Action.Finishes
      (OpenRouterProvider.listModels
        (networked knownCatalog fun _ => "error") {} "key" (callerFlag false))
      {} listingRun.1 listingRun.2.1 listingRun.2.2 :=
    Action.finishes_scripted servesCatalog _ _
  have models : listedModels listingRun.2.1 = ["text"] := by decide +kernel
  obtain ⟨result, listed, ok⟩ := ok_of_listedModels (by rw [models]; simp)
  rw [listed] at run
  exact .listed .created run ok received_listingRun (by decide)

/-- The payload of the only request of a run. -/
def onlyPayload? : List AgentEvent → Option Json
  | [⟨.send request, _⟩] => some request.payload
  | _ => none

theorem send_of_onlyPayload?
    {history : List AgentEvent} {payload : Json}
    (only : onlyPayload? history = some payload) :
    ∃ event ∈ history, ∃ request, event.op = .send request ∧
      request.payload = payload := by
  unfold onlyPayload? at only
  split at only
  · cases only
    exact ⟨_, List.mem_singleton_self _, _, rfl, rfl⟩
  · cases only

/-- The turn of a model, behind the listing. -/
theorem turn_turnRun (model : String) :
    Turn knownCatalog (fun _ => "error") {} model oneTool listingRun.2.2
      (turnRun model).1 (turnRun model).2.1 (turnRun model).2.2 :=
  .started (Action.finishes_scripted servesCatalog _ _)

/-- A model of the catalog that lists no tools may be offered them. -/
theorem discovery_skips_image_models :
    ¬ ∀ (json : JsonText) (errorText : HttpError → String)
      (config : OpenRouterConfig) (items : List Json)
      (conversation : Conversation) (model : String)
      (tools : ToolRegistry agents Conversation)
      (history : List AgentEvent) (outcome : Except Exception ModelTurn)
      (after : Conversation),
      Reached json errorText config (some items) conversation →
      Turn json errorText config model tools conversation history outcome
        after →
      ∀ event ∈ history, ∀ request, event.op = .send request →
        (request.payload.contains "tools" = true ↔
          tools.empty = false ∧
            ∀ item ∈ items, itemId? item = some model → OffersTools item) := by
  intro governed
  have sent : ((onlyPayload? (turnRun "image").1).map
      fun payload => payload.contains "tools") = some true := by
    decide +kernel
  obtain ⟨payload, only, offered⟩ := Option.map_eq_some_iff.mp sent
  obtain ⟨event, member, request, sends, rfl⟩ := send_of_onlyPayload? only
  obtain ⟨-, offers⟩ := (governed _ _ _ _ _ _ _ _ _ _ reached_listingRun
    (turn_turnRun "image") event member request sends).mp offered
  rcases offers imageItem (by simp) rfl _ rfl with empty | listed
  · cases empty
  · simp at listed

/-- Behind the listing a request for the model of the catalog offers none. -/
theorem discovery_governs_requests_turnRun :
    (onlyPayload? (turnRun "text").1).isSome = true ∧
      ∀ event ∈ (turnRun "text").1, ∀ request, event.op = .send request →
        request.payload.contains "tools" = false := by
  refine ⟨by decide +kernel, fun event member request sends => ?_⟩
  refine Bool.eq_false_iff.mpr fun offered => ?_
  obtain ⟨-, offers⟩ := ((discovery_governs_requests reached_listingRun).2
    "text" oneTool _ _ _ (turn_turnRun "text") event member request sends
    "tools" (by simp)).mp offered
  rcases offers _ rfl textItem (by simp) ⟨rfl, by simp, rfl⟩ _ rfl with
    empty | listed
  · cases empty
  · simp at listed

end ArnCore.Provider.ModelDiscovery
