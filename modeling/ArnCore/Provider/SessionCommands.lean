import ArnCore.Interaction.Focus
import ArnCore.Provider.ModelList
import ArnCore.Provider.ProviderSession

/-!
# The calls of a session

A session is configured, inspected and prompted by one call after the other.
What its calls do to its members is `perform`; one of them, configuring, is
also what `AgentSession.configureProvider` does, without the history of the
provider.
-/

namespace ArnCore.Provider.SessionCommands

open ArnCore.Agent
open ArnCore.Agent.Environment
open ArnCore.Interaction
open ArnCore.Net
open ArnCore.Provider.BuiltInTurn
open ArnCore.Provider.ProviderSession
open ArnCore.Provider.StreamedCalls
open ArnCore.Tool

/-! ## Providers -/

inductive ProviderType where
  | none
  | deepseek
  | gemini
  | openrouter
  | custom
deriving DecidableEq, Repr

/-- `create_provider`; the providers begin with an empty history. -/
def createProvider : ProviderType → Option BuiltIn
  | .gemini => some .gemini
  | .deepseek => some (.chat .deepSeek)
  | .openrouter => some (.chat (.openRouter {}))
  | .none => none
  | .custom => none

/-- `IModelProvider::type` of a built-in provider. -/
def providerType : BuiltIn → ProviderType
  | .gemini => .gemini
  | .chat .deepSeek => .deepseek
  | .chat (.openRouter _) => .openrouter

/-- A provider, and the history it has already. -/
structure Supplied where
  kind : BuiltIn
  conversation : Conversation := {}

/-! ## The members -/

/-- The members of `AgentSession::Impl`, and those of its provider. -/
structure SessionState where
  config : AgentConfig := {}
  tools : Option (List (ToolDefinition × Bool)) := none
  hasHandler : Bool := false
  provider : Option BuiltIn := none
  apiKey : String := ""
  activeModel : String := ""
  availableModels : List String := []
  conversation : Conversation := {}

namespace SessionState

/-- A session as it is constructed with a configuration. -/
def created (config : AgentConfig) : SessionState where
  config := config

/-- The variables of the provider. -/
def provided : Lens SessionState Conversation where
  get state := state.conversation
  put conversation state := { state with conversation := conversation }
  get_put _ _ := rfl
  put_get _ := rfl

/-- A session with a provider consists of these parts. -/
def setup (state : SessionState) (kind : BuiltIn) (json : JsonText)
    (errorText : HttpError → String) : SessionSetup where
  kind := kind
  json := json
  errorText := errorText
  apiKey := state.apiKey
  activeModel := state.activeModel
  maxToolRounds := state.config.maxToolRounds
  maxHistoryEntries := state.config.maxHistoryEntries
  tools := state.tools
  hasHandler := state.hasHandler

/-- The session as its functions find it. -/
def session (state : SessionState) (json : JsonText)
    (errorText : HttpError → String) : AgentSession agents Conversation where
  config := state.config
  tools := state.tools.map nativeRegistry
  confirmHandler := hostConfirm state.hasHandler
  provider :=
    state.provider.map fun kind => kind.provider (networked json errorText)
  apiKey := state.apiKey
  activeModel := state.activeModel
  mutex := mutex .session
  activeProvider := pointer .activeProvider

/-- The members that a provider brings with it. -/
def supply (state : SessionState) (provider : Option Supplied)
    (apiKey : String) : SessionState :=
  { state with
    provider := provider.map Supplied.kind
    conversation := (provider.map Supplied.conversation).getD {}
    apiKey := apiKey }

end SessionState

/-! ## The calls -/

/-- What a host calls. -/
inductive Command where
  | setSystemInstruction (instruction : String)
  | setTools (tools : Option (List (ToolDefinition × Bool)))
  | setConfirmationHandler (attached : Bool)
  | configureProvider (provider : Option Supplied) (apiKey : String)
      (watch : Bool)
  | configureType (type : ProviderType) (apiKey : String) (watch : Bool)
  | setProvider (provider : Option Supplied) (apiKey : String)
  | availableModels
  | preferredModel
  | selectModel (model : String)
  | activeModel
  | modelCapabilities
  | prompt (input : String) (text progress watch : Bool)
  | cancelActiveRequest
  | resetSession
  | sessionEntries
  | activeProvider

/-- What a call returns. -/
inductive Reply where
  | done
  | result (result : ApiResult)
  | models (models : List String)
  | model (model : String)
  | capabilities (capabilities : ModelCapabilities)
  | entries (count : Nat)
  | type (type : ProviderType)

section Calls

variable (json : JsonText) (errorText : HttpError → String)

/-- `std::lock_guard lock(mutex)` -/
def locked {Value : Type} (body : Action agents SessionState Value) :
    Action agents SessionState Value :=
  (mutex .session).guarded body

/-- Assign to the members under the mutex. -/
def assign (update : SessionState → SessionState) :
    Action agents SessionState Reply := do
  locked (modify update)
  pure .done

/-- Look at the members under the mutex. -/
def inspect (look : SessionState → Reply) : Action agents SessionState Reply :=
  locked do
    let state ← get
    pure (look state)

/-- `AgentSession::Impl::configure_provider` -/
def configureProvider (provider : Option Supplied) (apiKey : String)
    (watch : Bool) : Action agents SessionState Reply :=
  locked do
    modify fun state =>
      { state.supply provider apiKey with
        activeModel := ""
        availableModels := [] }
    match provider with
    | none => pure (.result { message := "Provider cannot be null." })
    | some provider => do
        let result ← Action.within SessionState.provided
          (provider.kind.listModels (networked json errorText) apiKey
            (callerFlag watch))
        if result.ok then do
          modify fun state =>
            { state with
              availableModels := result.models
              activeModel := provider.kind.preferredModel result.models }
          pure (.result result)
        else
          pure (.result result)

/-- A call that works on the provider of the session. -/
def onSession {Value : Type} (reply : Value → Reply)
    (call : AgentSession agents Conversation →
      Action agents Conversation Value) :
    Action agents SessionState Reply := do
  let state ← get
  let value ← Action.within SessionState.provided
    (call (state.session json errorText))
  pure (reply value)

/-- The preferred model of the provider, if there is one. -/
def preferredOf (provider : Option BuiltIn) (models : List String) : String :=
  match provider with
  | none => ""
  | some kind => kind.preferredModel models

/-- The functions of `AgentSession`. -/
def perform : Command → Action agents SessionState Reply
  | .setSystemInstruction instruction =>
      assign fun state =>
        { state with
          config := { state.config with systemInstruction := instruction } }
  | .setTools tools => assign fun state => { state with tools := tools }
  | .setConfirmationHandler attached =>
      assign fun state => { state with hasHandler := attached }
  | .configureProvider provider apiKey watch =>
      configureProvider json errorText provider apiKey watch
  | .configureType type apiKey watch =>
      match createProvider type with
      | none => pure (.result { message := "Select a provider first." })
      | some kind =>
          configureProvider json errorText (some { kind := kind }) apiKey
            watch
  | .setProvider provider apiKey =>
      assign fun state => state.supply provider apiKey
  | .availableModels => inspect fun state => .models state.availableModels
  | .preferredModel =>
      inspect fun state =>
        .model (preferredOf state.provider state.availableModels)
  | .selectModel model =>
      assign fun state => { state with activeModel := model }
  | .activeModel => inspect fun state => .model state.activeModel
  | .modelCapabilities =>
      onSession json errorText .capabilities AgentSession.modelCapabilities
  | .prompt input text progress watch =>
      onSession json errorText .result fun session =>
        session.prompt (hostCallbacks text progress) (callerFlag watch) input
  | .cancelActiveRequest =>
      onSession json errorText (fun _ => .done)
        AgentSession.cancelActiveRequest
  | .resetSession =>
      onSession json errorText (fun _ => .done) AgentSession.resetSession
  | .sessionEntries =>
      inspect fun state =>
        .entries (if state.provider.isSome then
          state.conversation.entries.length else 0)
  | .activeProvider =>
      inspect fun state =>
        .type ((state.provider.map providerType).getD .none)

/-- A call, what happened in it and how it ended. -/
structure Entry where
  command : Command
  history : List AgentEvent
  outcome : Except Exception Reply

/-- One call of the host. -/
def Step (before : SessionState) (entry : Entry) (after : SessionState) :
    Prop :=
  Action.Finishes (perform json errorText entry.command) before entry.history
    entry.outcome after

/-! ## The calls without the history of the provider -/

/-- A provider that is being configured; its history is its own. -/
def Supplied.source (supplied : Supplied) :
    IModelSource agents ProviderMembers where
  listModels key cancel :=
    Action.withLocals supplied.conversation
      (supplied.kind.listModels (networked json errorText) key cancel)
  preferredModel models := pure (supplied.kind.preferredModel models)

/-- The members that `AgentSession.configureProvider` assigns. -/
def SessionState.members (state : SessionState) : ProviderMembers where
  hasProvider := state.provider.isSome
  apiKey := state.apiKey
  activeModel := state.activeModel
  availableModels := state.availableModels

variable {json : JsonText} {errorText : HttpError → String}
  {before after : SessionState} {history : List AgentEvent}
  {outcome : Except Exception Reply} {provider : Option Supplied}
  {apiKey : String} {watch : Bool}

/-- Configuring does what `AgentSession.configureProvider` does. -/
theorem configureProvider_refines
    (run : Action.Finishes
      (configureProvider json errorText provider apiKey watch) before history
      outcome after) :
    ∃ result, outcome = result.map .result ∧
      Action.Finishes
        (AgentSession.configureProvider (mutex .session)
          (provider.map (Supplied.source json errorText)) apiKey
          (callerFlag watch)) before.members history result
        after.members := by
  obtain ⟨inner, rfl, configures⟩ := finishes_guarded.mp run
  have configures := Action.finishes_modify_bind.mp configures
  cases provider with
  | none =>
      obtain ⟨rfl, rfl, rfl⟩ := Action.finishes_pure.mp configures
      exact ⟨.ok { message := "Provider cannot be null." }, rfl,
        finishes_guarded.mpr ⟨[], rfl, Action.finishes_pure.mpr
          ⟨rfl, rfl, rfl⟩⟩⟩
  | some supplied =>
      have configured : ∀ {result : Except Exception ApiResult},
          Action.Finishes
            (do
              let listed ← (supplied.source json errorText).listModels apiKey
                (callerFlag watch)
              if listed.ok then do
                modify fun members : ProviderMembers =>
                  { members with availableModels := listed.models }
                let preferred ←
                  (supplied.source json errorText).preferredModel listed.models
                modify fun members =>
                  { members with activeModel := preferred }
                pure listed
              else
                pure listed)
            { hasProvider := true, apiKey := apiKey } inner result
            after.members →
          Action.Finishes
            (AgentSession.configureProvider (mutex .session)
              ((some supplied).map (Supplied.source json errorText)) apiKey
              (callerFlag watch)) before.members
            (⟨.lock .session, ()⟩ :: (inner ++ [⟨.unlock .session, ()⟩]))
            result after.members :=
        fun finished => finishes_guarded.mpr ⟨inner, rfl, finished⟩
      rcases Action.finishes_bind.mp configures with
        ⟨failure, rfl, thrown⟩ |
        ⟨listed, rest, result, between, rfl, returned, settled⟩
      · obtain ⟨conversation, ran, rfl⟩ := Action.finishes_within.mp thrown
        refine ⟨.error failure, rfl, configured ?_⟩
        exact Action.finishes_bind.mpr (Or.inl ⟨failure, rfl,
          Action.finishes_withLocals.mpr ⟨rfl, conversation, ran⟩⟩)
      · obtain ⟨conversation, ran, rfl⟩ := Action.finishes_within.mp returned
        have replied : rest = [] ∧ outcome = .ok (.result result) ∧
            Action.Finishes
              (if result.ok then do
                modify fun members : ProviderMembers =>
                  { members with availableModels := result.models }
                let preferred ←
                  (supplied.source json errorText).preferredModel result.models
                modify fun members =>
                  { members with activeModel := preferred }
                pure result
              else
                pure result)
              { hasProvider := true, apiKey := apiKey } [] (.ok result)
              after.members := by
          cases ok : result.ok with
          | true =>
              rw [ok, if_pos rfl] at settled
              obtain ⟨rfl, same⟩ := settled
              cases same
              exact ⟨rfl, rfl, rfl, rfl⟩
          | false =>
              rw [ok, if_neg Bool.false_ne_true] at settled
              obtain ⟨rfl, same⟩ := settled
              cases same
              exact ⟨rfl, rfl, rfl, rfl⟩
        obtain ⟨rfl, rfl, continued⟩ := replied
        refine ⟨.ok result, rfl, configured ?_⟩
        exact Action.finishes_bind.mpr (Or.inr ⟨_, [], result, _, rfl,
          Action.finishes_withLocals.mpr ⟨rfl, conversation, ran⟩, continued⟩)

end Calls

end ArnCore.Provider.SessionCommands
