import ArnCore.Agent.Environment

/-!
# Calls with a beginning and an end

A session calls its provider, its callbacks and its tools, and a flag or a
pointer may change while such a call lasts.  Here every call is two operations,
one where it is entered and one where it is left, so that a history tells which
calls were open at any moment.  What happens inside a call is a program of the
callee: it may use what it was given, and nothing else is known about it.
-/

namespace ArnCore.Agent.BracketedCalls

open ArnCore.Interaction
open ArnCore.Provider
open ArnCore.Tool
open ArnCore.Agent.Environment (StartTurn ContinueTurn)

/-! ## Calls -/

/-- The calls that leave the session. -/
inductive Call where
  | listModels (apiKey : String)
  | preferredModel (models : List String)
  | modelCapabilities (model : String)
  | trimHistory (maxEntries : Nat)
  | startTurn (request : StartTurn)
  | continueTurn (request : ContinueTurn)
  | cancelProvider
  | resetProvider
  | onText (delta : String)
  | onProgress (message : String)
  | confirm (request : ConfirmationRequest)
  | tool (name : String) (arguments : Json)

/-- What a call returns. -/
def Call.Result : Call → Type
  | .listModels _ => ApiResult
  | .preferredModel _ => String
  | .modelCapabilities _ => ModelCapabilities
  | .startTurn _ | .continueTurn _ => ModelTurn
  | .confirm _ => Bool
  | .tool _ _ => ToolResult
  | _ => Unit

/-- What a provider can do with its arguments during a turn. -/
inductive TurnOp where
  | onText (delta : String)
  | onProgress (message : String)
  | cancelRequested

/-- The outcome of a callback is what the provider sees of it. -/
def turns : Signature where
  Op := TurnOp
  Answer
    | .onText _ | .onProgress _ => Except Exception Unit
    | .cancelRequested => Bool

/-- What a tool can do with its context. -/
inductive ContextOp where
  | confirm (request : ConfirmationRequest)
  | cancelRequested

/-- A confirmation without a handler is answered by `none`. -/
def contexts : Signature where
  Op := ContextOp
  Answer
    | .confirm _ => Option (Except Exception Bool)
    | .cancelRequested => Bool

/-! ## Operations -/

inductive CallOp where
  | load
  | lock
  | unlock
  | publish
  | clear
  | present
  | enter (call : Call)
  | leave (call : Call)

/-- What is done inside a call; callbacks of the host use nothing. -/
def Inside : Call → Type
  | .startTurn _ | .continueTurn _ => Program turns Unit
  | .tool _ _ => Program contexts Unit
  | _ => Unit

/-- The callee decides what is done inside a call, and how it is left. -/
def calls : Signature where
  Op := CallOp
  Answer
    | .load | .present => Bool
    | .lock | .unlock | .publish | .clear => Unit
    | .enter call => Inside call
    | .leave call => Except Exception call.Result

/-- The histories of a session and its callees. -/
abbrev CallEvent := Event calls

/-- The calls that were entered and not left, innermost first. -/
def opened (stack : List Call) : CallOp → List Call
  | .enter call => call :: stack
  | .leave _ => stack.tail
  | _ => stack

/-- The calls that are open behind a history. -/
def openCalls (history : List CallEvent) : List Call :=
  history.foldl (fun stack event => opened stack event.op) []

/-- An environment in which nothing happens: no flag is set, nothing throws. -/
def quiet : (op : CallOp) → calls.Answer op
  | .load | .present => false
  | .lock | .unlock | .publish | .clear => ()
  | .enter (.startTurn _) | .enter (.continueTurn _) => .done ()
  | .enter (.tool _ _) => .done ()
  | .enter (.listModels _) | .enter (.preferredModel _) => ()
  | .enter (.modelCapabilities _) | .enter (.trimHistory _) => ()
  | .enter .cancelProvider | .enter .resetProvider => ()
  | .enter (.onText _) | .enter (.onProgress _) | .enter (.confirm _) => ()
  | .leave (.listModels _) => .ok { ok := true }
  | .leave (.preferredModel _) => .ok ""
  | .leave (.modelCapabilities _) => .ok {}
  | .leave (.startTurn _) | .leave (.continueTurn _) => .ok { ok := true }
  | .leave (.confirm _) => .ok true
  | .leave (.tool _ _) => .ok (.success .null)
  | .leave (.trimHistory _) => .ok ()
  | .leave .cancelProvider | .leave .resetProvider => .ok ()
  | .leave (.onText _) | .leave (.onProgress _) => .ok ()

/-! ## Callees -/

variable {Locals : Type}

/-- Perform an operation that cannot throw. -/
def always (op : CallOp) : Host calls (calls.Answer op) :=
  ExceptT.lift (.call op .done)

/-- The outcome of an action as a value. -/
def attempt {Value : Type} (action : Action calls Locals Value) :
    Action calls Locals (Except Exception Value) :=
  tryCatch (do
      let value ← action
      pure (.ok value))
    fun failure => pure (.error failure)

/-- An attempt returns what became of the action. -/
theorem holds_attempt
    {Value State : Type} {world : World calls State}
    {allowed : State → calls.Op → Prop}
    {post : Except Exception (Except Exception Value) → Locals → State → Prop}
    {action : Action calls Locals Value} {locals : Locals} {state : State} :
    Action.Holds world allowed post (attempt action) locals state ↔
      Action.Holds world allowed
        (fun outcome after reached => post (.ok outcome) after reached)
        action locals state := by
  unfold attempt
  rw [Action.holds_tryCatch, Action.holds_bind]
  constructor
  · intro holds
    apply holds.imp
    rintro (failure | value) after reached ends
    · exact ends
    · exact ends
  · intro holds
    apply holds.imp
    rintro (failure | value) after reached ends
    · exact ends
    · exact ends

/-- Be in a call until its callee leaves it, and decides how. -/
def during (call : Call) (use : Inside call → Action calls Locals Unit) :
    Action calls Locals call.Result := do
  let inside ← Action.ofHost (always (.enter call))
  let _ ← attempt (use inside)
  Action.ofHost (ExceptT.mk (.call (.leave call) .done))

/-- A call of the host: nothing is done inside. -/
def hostCall (call : Call) : Host calls call.Result := do
  let _ ← always (.enter call)
  ExceptT.mk (.call (.leave call) .done)

/-- A provider takes its turn. -/
def playTurn (callbacks : StreamCallbacks calls) (cancel : CancelFlag calls) :
    Program turns Unit → Action calls Locals Unit
  | .done () => pure ()
  | .call (.onText delta) next => do
      let shown ← attempt (notify callbacks.onText delta)
      playTurn callbacks cancel (next shown)
  | .call (.onProgress message) next => do
      let shown ← attempt (notify callbacks.onProgress message)
      playTurn callbacks cancel (next shown)
  | .call .cancelRequested next => do
      let stop ← isSet cancel
      playTurn callbacks cancel (next stop)

/-- A tool uses its context. -/
def useContext (context : ToolContext calls Locals) :
    Program contexts Unit → Action calls Locals Unit
  | .done () => pure ()
  | .call (.confirm request) next =>
      match context.confirm with
      | none => useContext context (next none)
      | some confirm => do
          let approved ← attempt (confirm request)
          useContext context (next (some approved))
  | .call .cancelRequested next => do
      let stop ← isSet context.cancelRequested
      useContext context (next stop)

/-- The flag a caller passes to a prompt. -/
def callerFlag (attached : Bool) : CancelFlag calls :=
  if attached then some (always .load) else none

/-- The callbacks of the host: each may be absent. -/
def hostCallbacks (text progress : Bool) : StreamCallbacks calls where
  onText := if text then some fun delta => hostCall (.onText delta) else none
  onProgress :=
    if progress then some fun message => hostCall (.onProgress message) else none

/-- The confirmation handler of the host, when it has one. -/
def hostConfirm (attached : Bool) : ConfirmationFn calls Locals :=
  if attached then
    some fun request => Action.ofHost (hostCall (.confirm request))
  else
    none

/-- A provider about which nothing is known. -/
def anyProvider : IModelProvider calls Locals where
  modelCapabilities model := Action.ofHost (hostCall (.modelCapabilities model))
  startTurn apiKey model systemInstruction userPrompt tools callbacks cancel :=
    during
      (.startTurn
        { apiKey := apiKey
          model := model
          systemInstruction := systemInstruction
          userPrompt := userPrompt
          tools := tools.definitions })
      (playTurn callbacks cancel)
  continueTurn apiKey model systemInstruction responses tools callbacks
      cancel :=
    during
      (.continueTurn
        { apiKey := apiKey
          model := model
          systemInstruction := systemInstruction
          responses := responses
          tools := tools.definitions })
      (playTurn callbacks cancel)
  trimHistory maxEntries := Action.ofHost (hostCall (.trimHistory maxEntries))
  cancelActiveRequest := Action.ofHost (hostCall .cancelProvider)
  resetSession := Action.ofHost (hostCall .resetProvider)

/-- A tool about which nothing is known. -/
def anyTool (definition : ToolDefinition) (requiresConfirmation : Bool) :
    ITool calls Locals where
  definition := definition
  requiresConfirmation := requiresConfirmation
  execute arguments context :=
    during (.tool definition.name arguments) (useContext context)

/-- Tools registered one after the other. -/
def anyRegistry (tools : List (ToolDefinition × Bool)) :
    ToolRegistry calls Locals :=
  .registerAll (tools.map fun tool => anyTool tool.1 tool.2)

/-- Every tool of the registry is one of the unknown ones, under its own name. -/
theorem anyRegistry_findTool
    {tools : List (ToolDefinition × Bool)} {name : String}
    {tool : ITool calls Locals}
    (found : (anyRegistry tools).findTool name = some tool) :
    ∃ definition confirms,
      tool = anyTool definition confirms ∧ definition.name = name := by
  obtain ⟨member, named⟩ := ToolRegistry.findTool_registerAll found
  obtain ⟨⟨definition, confirms⟩, -, rfl⟩ := List.mem_map.mp member
  exact ⟨definition, confirms, rfl, named⟩

/-- A session over them; provider and registry may be absent. -/
def anySession (config : AgentConfig) (hasProvider : Bool)
    (apiKey activeModel : String)
    (tools : Option (List (ToolDefinition × Bool)))
    (hasHandler : Bool) : AgentSession calls Locals where
  config := config
  tools := tools.map anyRegistry
  confirmHandler := hostConfirm hasHandler
  provider := if hasProvider then some anyProvider else none
  apiKey := apiKey
  activeModel := activeModel
  mutex :=
    { lock := always .lock
      unlock := always .unlock }
  activeProvider :=
    { publish := always .publish
      clear := always .clear
      present := always .present }

end ArnCore.Agent.BracketedCalls
