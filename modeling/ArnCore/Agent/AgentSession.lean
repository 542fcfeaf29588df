import ArnCore.Agent.Data
import ArnCore.Interaction.SharedObject

/-!
# The session: one prompt and its tool rounds

`AgentSession::Impl::prompt` follows the source statement by statement.  The
`for` loop over the calls of a turn is `runCalls`, the `while` loop over turns
is `turnLoop`; both leave early where the source returns.
-/

namespace ArnCore.Agent

open ArnCore.Interaction
open ArnCore.Provider
open ArnCore.Tool

structure AgentConfig where
  systemInstruction : String := ""
  maxToolRounds : Int := 12
  maxHistoryEntries : Nat := 40
deriving DecidableEq, Repr

/-- The members of `AgentSession::Impl`. -/
structure AgentSession (signature : Signature) (Locals : Type) where
  config : AgentConfig
  tools : Option (ToolRegistry signature Locals) := none
  confirmHandler : ConfirmationFn signature Locals := none
  provider : Option (IModelProvider signature Locals) := none
  apiKey : String := ""
  activeModel : String := ""
  mutex : Mutex signature
  activeProvider : Pointer signature

/-- What a session asks of a provider that is being configured. -/
structure IModelSource (signature : Signature) (Locals : Type) where
  listModels :
    String → CancelFlag signature → Action signature Locals ApiResult
  preferredModel : List String → Action signature Locals String

/-- The members of a session that change with its provider. -/
structure ProviderMembers where
  hasProvider : Bool := false
  apiKey : String := ""
  activeModel : String := ""
  availableModels : List String := []

namespace AgentSession

variable {signature : Signature} {Locals : Type}

/-- The result of every cancellation exit. -/
def requestCancelled : ApiResult where
  message := "Request cancelled."
  cancelled := true

/-- The result of a turn that was not ok. -/
def turnFailed (turn : ModelTurn) : ApiResult where
  message := turn.errorMessage
  cancelled := turn.cancelled

section Prompt

variable (session : AgentSession signature Locals)
  (provider : IModelProvider signature Locals)
  (registry : ToolRegistry signature Locals)
  (callbacks : StreamCallbacks signature)
  (cancel : CancelFlag signature)

/--
The loop over the tool calls of one turn, with the responses collected so far;
`none` when the loop is left because the flag is set.
-/
def runCalls : List ToolCall → List ToolResponse →
    Action signature Locals (Option (List ToolResponse))
  | [], responses => pure (some responses)
  | call :: calls, responses => do
      let stop ← isSet cancel
      if stop then
        pure none
      else do
        notify callbacks.onProgress ("Running project tool: " ++ call.name)
        let execution ← registry.execute call.name call.arguments
          { cancelRequested := cancel
            confirm := session.confirmHandler }
        runCalls calls
          (responses ++
            [{ callId := call.id
               name := call.name
               result := execution.result }])

/-- The loop over turns; `round` counts the rounds of tool calls started. -/
def turnLoop (round : Int) (turn : ModelTurn) :
    Action signature Locals ApiResult :=
  if turn.toolCalls = [] then
    pure { ok := true, message := turn.text }
  else if round + 1 > session.config.maxToolRounds then
    pure { message := "Stopped after too many tool calls." }
  else do
    let collected ← runCalls session registry callbacks cancel
      turn.toolCalls []
    match collected with
    | none => pure requestCancelled
    | some responses => do
        let stop ← isSet cancel
        if stop then
          pure requestCancelled
        else do
          let next ← provider.continueTurn session.apiKey
            session.activeModel session.config.systemInstruction
            responses registry callbacks cancel
          let stop ← isSet cancel
          if stop then
            pure requestCancelled
          else if next.ok then
            turnLoop (round + 1) next
          else
            pure (turnFailed next)
termination_by (session.config.maxToolRounds - round).toNat

/-- From the first turn to the end of `prompt`. -/
def runTurns (text : String) : Action signature Locals ApiResult := do
  let turn ← provider.startTurn session.apiKey session.activeModel
    session.config.systemInstruction text registry callbacks cancel
  let stop ← isSet cancel
  if stop then
    pure requestCancelled
  else if turn.ok then
    turnLoop session provider registry callbacks cancel 0 turn
  else
    pure (turnFailed turn)

/-- The body of `prompt` under the session mutex. -/
def promptLocked (text : String) : Action signature Locals ApiResult :=
  match session.provider with
  | none => pure { message := "Select a provider first." }
  | some provider =>
      if session.apiKey = "" then
        pure { message := "No API key is set." }
      else if session.activeModel = "" then
        pure { message := "No model is selected." }
      else do
        let stop ← isSet cancel
        if stop then
          pure requestCancelled
        else do
          provider.trimHistory session.config.maxHistoryEntries
          Action.ofHost session.activeProvider.publish
          Action.scopeGuard
            (runTurns session provider (session.tools.getD {})
              callbacks cancel text)
            (Action.ofHost session.activeProvider.clear)

/-- `AgentSession::prompt` -/
def prompt (text : String) : Action signature Locals ApiResult :=
  session.mutex.guarded (promptLocked session callbacks cancel text)

end Prompt

section Control

variable (session : AgentSession signature Locals)

/-- `AgentSession::reset_session` -/
def resetSession : Action signature Locals Unit :=
  session.mutex.guarded
    (match session.provider with
    | none => pure ()
    | some provider => provider.resetSession)

/-- `AgentSession::model_capabilities` -/
def modelCapabilities : Action signature Locals ModelCapabilities :=
  session.mutex.guarded
    (match session.provider with
    | none => pure {}
    | some provider => provider.modelCapabilities session.activeModel)

/--
`AgentSession::cancel_active_request`; the pointer refers to the provider of
the session.
-/
def cancelActiveRequest : Action signature Locals Unit := do
  let active ← Action.ofHost session.activeProvider.present
  let cancelProvider : Action signature Locals Unit :=
    match session.provider with
    | none => pure ()
    | some provider => provider.cancelActiveRequest
  if active then
    cancelProvider
  else
    session.mutex.guarded cancelProvider

end Control

/-! ## Configuring a provider -/

/-- `AgentSession::Impl::configure_provider` -/
def configureProvider (mutex : Mutex signature)
    (provider : Option (IModelSource signature ProviderMembers))
    (key : String) (cancel : CancelFlag signature) :
    Action signature ProviderMembers ApiResult :=
  mutex.guarded do
    set
      { hasProvider := provider.isSome
        apiKey := key : ProviderMembers }
    match provider with
    | none => pure { message := "Provider cannot be null." }
    | some source => do
        let result ← source.listModels key cancel
        if result.ok then do
          modify fun members => { members with availableModels := result.models }
          let preferred ← source.preferredModel result.models
          modify fun members => { members with activeModel := preferred }
          pure result
        else
          pure result

end AgentSession

end ArnCore.Agent
