import ArnCore.Agent.AgentOrchestrator
import ArnCore.Interaction.Execution
import ArnCore.Provider.BuiltInProvider

/-!
# The environment of the agent layer

Everything the agent layer does not decide itself is an operation: shared
memory, the calls of the provider and of native tools, the network below a
built-in provider, and the callbacks of the host.  A call that may throw is
answered by an `Except`.

Which answers are possible is left open here.  A statement about every
environment speaks about all histories of these operations; a statement about
threads restricts the answers of the memory operations to what was stored.
-/

namespace ArnCore.Agent.Environment

open ArnCore.Interaction
open ArnCore.Net
open ArnCore.Provider
open ArnCore.Tool

/-- The atomic flags of the agent layer. -/
inductive Flag where
  | orchestratorExecuting
  | cancelRequested
  | runtimeExecuting
  | cancelled
deriving DecidableEq, Repr

/-- The mutexes of the agent layer. -/
inductive MutexName where
  | orchestrator
  | runtime
  | session
deriving DecidableEq, Repr

/-- The pointers that are published to other threads. -/
inductive PointerName where
  | activeRuntime
  | activeSession
  | activeCancel
  | activeProvider
deriving DecidableEq, Repr

/-- The local objects that other threads reach through pointers. -/
inductive ObjectName where
  | runtime
  | session
  | cancelled
deriving DecidableEq, Repr

/-- The arguments of `start_turn`; of the registry the provider sees its tools. -/
structure StartTurn where
  apiKey : String
  model : String
  systemInstruction : String
  userPrompt : String
  tools : List ToolDefinition

/-- The arguments of `continue_turn`. -/
structure ContinueTurn where
  apiKey : String
  model : String
  systemInstruction : String
  responses : List ToolResponse
  tools : List ToolDefinition

/-! ## Native tools -/

/-- What a native tool can do with its context while it runs. -/
inductive NativeOp where
  | confirm (request : ConfirmationRequest)
  | cancelRequested

/-- A confirmation without a handler is answered by `none`. -/
def nativeTools : Signature where
  Op := NativeOp
  Answer
    | .confirm _ => Option Bool
    | .cancelRequested => Bool

/-- One execution of a native tool: any use of its context, then an outcome. -/
abbrev NativeRun :=
  Program nativeTools (Except Exception ToolResult)

/-! ## Operations -/

inductive AgentOp where
  | load (flag : Flag)
  | store (flag : Flag) (value : Bool)
  | exchange (flag : Flag) (value : Bool)
  | lock (mutex : MutexName)
  | unlock (mutex : MutexName)
  | publish (pointer : PointerName)
  | clear (pointer : PointerName)
  | present (pointer : PointerName)
  | construct (object : ObjectName)
  | destroy (object : ObjectName)
  | modelCapabilities (model : String)
  | startTurn (request : StartTurn)
  | continueTurn (request : ContinueTurn)
  | trimHistory (maxEntries : Nat)
  | cancelProvider
  | resetProvider
  | send (request : HttpRequest)
  | jitter
  | pollsBefore (delay : Nat)
  | stopClient
  | deliverEvent (data : String)
  | onText (delta : String)
  | onProgress (message : String)
  | confirm (request : ConfirmationRequest)
  | executeTool (name : String) (arguments : Json)
  | enterTool (name : String) (arguments : Json)
  | createRuntime (profile : AgentProfile)
  | executeRuntime (context : AgentContext)
  | cancelRuntime
  | stageStarted (profileId : String)
  | stageFinished (profileId : String) (result : AgentResult)
  | beforeNextStage (profileId : String) (result : AgentResult)
      (artifact : ContextArtifact)

/-- Operations and answers; a virtual call or a callback may throw. -/
def agents : Signature where
  Op := AgentOp
  Answer
    | .load _ | .exchange _ _ | .present _ => Bool
    | .store _ _ | .lock _ | .unlock _ | .publish _ | .clear _ => Unit
    | .construct _ | .destroy _ => Unit
    | .modelCapabilities _ => Except Exception ModelCapabilities
    | .startTurn _ | .continueTurn _ => Except Exception ModelTurn
    | .trimHistory _ | .cancelProvider | .resetProvider => Except Exception Unit
    | .send _ => Transfer
    | .jitter => Fin 251
    | .pollsBefore _ => Nat
    | .stopClient | .deliverEvent _ => Unit
    | .onText _ | .onProgress _ => Except Exception Unit
    | .confirm _ => Except Exception Bool
    | .executeTool _ _ => Except Exception ToolResult
    | .enterTool _ _ => NativeRun
    | .createRuntime _ => Except Exception Bool
    | .executeRuntime _ => Except Exception AgentResult
    | .cancelRuntime => Except Exception Unit
    | .stageStarted _ | .stageFinished _ _ => Except Exception Unit
    | .beforeNextStage _ _ _ => Except Exception ContinuationDecision

/-- The histories of the agent layer. -/
abbrev AgentEvent := Event agents

/-- An environment in which nothing happens: no flag is set, nothing throws. -/
def quiet : (op : AgentOp) → agents.Answer op
  | .load _ | .exchange _ _ | .present _ => false
  | .store _ _ | .lock _ | .unlock _ | .publish _ | .clear _ => ()
  | .construct _ | .destroy _ => ()
  | .modelCapabilities _ => .ok {}
  | .startTurn _ | .continueTurn _ => .ok { ok := true }
  | .trimHistory _ | .cancelProvider | .resetProvider => .ok ()
  | .send _ => .failed .read
  | .jitter => leastJitter
  | .pollsBefore _ => (0 : Nat)
  | .stopClient | .deliverEvent _ => ()
  | .onText _ | .onProgress _ => .ok ()
  | .confirm _ => .ok true
  | .executeTool _ _ => .ok (.success .null)
  | .enterTool _ _ => .done (.ok (.success .null))
  | .createRuntime _ => .ok true
  | .executeRuntime _ => .ok { status := .completed }
  | .cancelRuntime => .ok ()
  | .stageStarted _ | .stageFinished _ _ => .ok ()
  | .beforeNextStage _ _ _ => .ok .proceed

/-! ## Objects answered by the environment -/

variable {Locals : Type}

/-- Ask the environment; the answer says whether the call threw. -/
def ask (op : AgentOp) : Program agents (agents.Answer op) :=
  .call op .done

/-- Perform an operation that cannot throw. -/
def always (op : AgentOp) : Host agents (agents.Answer op) :=
  ExceptT.lift (ask op)

def flag (name : Flag) : AtomicBool agents where
  load := always (AgentOp.load name)
  store value := always (AgentOp.store name value)
  exchange value :=
    always (AgentOp.exchange name value)

section Rules

variable {State : Type} {world : World agents State}
  {allowed : State → AgentOp → Prop} {locals : Locals} {state : State}

theorem holds_always {op : AgentOp}
    {post : Except Exception (agents.Answer op) → Locals → State → Prop} :
    Action.Holds world allowed post (Action.ofHost (always op))
        locals state ↔
      allowed state op ∧
        ∀ answer after, world.perform state op answer after →
          post (.ok answer) locals after := Iff.rfl

/-- `holds_always` for an operation that cannot be read off the answer type. -/
theorem holds_op (op : AgentOp)
    {post : Except Exception (agents.Answer op) → Locals → State → Prop} :
    Action.Holds world allowed post (Action.ofHost (always op))
        locals state ↔
      allowed state op ∧
        ∀ answer after, world.perform state op answer after →
          post (.ok answer) locals after := Iff.rfl

theorem holds_isSet_flag {name : Flag}
    {post : Except Exception Bool → Locals → State → Prop} :
    Action.Holds world allowed post (isSet (some (flag name).load))
        locals state ↔
      allowed state (.load name) ∧
        ∀ stop after, world.perform state (.load name) stop after →
          post (.ok stop) locals after := Iff.rfl

variable {after : Locals} {history : List AgentEvent}

theorem finishes_always {op : AgentOp}
    {outcome : Except Exception (agents.Answer op)} :
    Action.Finishes (Action.ofHost (always op)) locals history outcome
        after ↔
      ∃ answer, history = [⟨op, answer⟩] ∧ outcome = .ok answer ∧
        after = locals := by
  rw [Action.finishes_ofHost]
  constructor
  · rintro ⟨⟨answer, later, rfl, rfl, rfl⟩, rfl⟩
    exact ⟨answer, rfl, rfl, rfl⟩
  · rintro ⟨answer, rfl, rfl, rfl⟩
    exact ⟨⟨answer, [], rfl, rfl, rfl⟩, rfl⟩

theorem op_of_finishes_always {op : AgentOp}
    {outcome : Except Exception (agents.Answer op)}
    (run : Action.Finishes (Action.ofHost (always op)) locals history outcome
      after) :
    after = locals ∧ ∀ event ∈ history, event.op = op := by
  obtain ⟨answer, rfl, -, rfl⟩ := finishes_always.mp run
  refine ⟨rfl, ?_⟩
  intro event member
  cases List.mem_singleton.mp member
  rfl

/-- An operation that cannot throw is followed by what comes next. -/
theorem finishes_always_bind {op : AgentOp} {Value : Type}
    {rest : agents.Answer op → Action agents Locals Value}
    {outcome : Except Exception Value} :
    Action.Finishes (Action.ofHost (always op) >>= rest) locals history
        outcome after ↔
      ∃ answer later, history = ⟨op, answer⟩ :: later ∧
        Action.Finishes (rest answer) locals later outcome after := Iff.rfl

end Rules

/-- The flag a caller passes to a prompt, when it passes one. -/
def callerFlag (attached : Bool) : CancelFlag agents :=
  if attached then some (flag .cancelled).load else none

def mutex (name : MutexName) : Mutex agents where
  lock := always (AgentOp.lock name)
  unlock := always (AgentOp.unlock name)

def pointer (name : PointerName) : Pointer agents where
  publish := always (AgentOp.publish name)
  clear := always (AgentOp.clear name)
  present := always (AgentOp.present name)

def lifetime (name : ObjectName) : Lifetime agents where
  construct := always (AgentOp.construct name)
  destroy := always (AgentOp.destroy name)

section Finishing

variable {Value : Type} {body : Action agents Locals Value}
  {locals after : Locals} {history : List AgentEvent}
  {outcome : Except Exception Value}

/-- A critical section lies between taking and releasing its mutex. -/
theorem finishes_guarded {name : MutexName} :
    Action.Finishes ((mutex name).guarded body) locals history outcome
        after ↔
      ∃ inner,
        history = ⟨.lock name, ()⟩ :: (inner ++ [⟨.unlock name, ()⟩]) ∧
          Action.Finishes body locals inner outcome after := by
  constructor
  · rintro ⟨⟨⟩, later, rfl, finished⟩
    obtain ⟨inner, last, between, released, rfl, runs, unlocked⟩ :=
      Action.finishes_scopeGuard.mp finished
    obtain ⟨⟨⟩, rfl, _, rfl⟩ := finishes_always.mp unlocked
    exact ⟨inner, rfl, runs⟩
  · rintro ⟨inner, rfl, runs⟩
    refine ⟨(), _, rfl, Action.finishes_scopeGuard.mpr ?_⟩
    exact ⟨inner, _, after, .ok (), rfl, runs,
      finishes_always.mpr ⟨(), rfl, rfl, rfl⟩⟩

/-- The scope of a local object lies between its birth and its death. -/
theorem finishes_scoped {name : ObjectName} :
    Action.Finishes ((lifetime name).scoped body) locals history outcome
        after ↔
      ∃ inner,
        history =
            ⟨.construct name, ()⟩ :: (inner ++ [⟨.destroy name, ()⟩]) ∧
          Action.Finishes body locals inner outcome after := by
  constructor
  · rintro ⟨⟨⟩, later, rfl, finished⟩
    obtain ⟨inner, last, between, released, rfl, runs, destroyed⟩ :=
      Action.finishes_scopeGuard.mp finished
    obtain ⟨⟨⟩, rfl, _, rfl⟩ := finishes_always.mp destroyed
    exact ⟨inner, rfl, runs⟩
  · rintro ⟨inner, rfl, runs⟩
    refine ⟨(), _, rfl, Action.finishes_scopeGuard.mpr ?_⟩
    exact ⟨inner, _, after, .ok (), rfl, runs,
      finishes_always.mpr ⟨(), rfl, rfl, rfl⟩⟩

end Finishing

section Keeping

variable {State Value : Type} {observe : State → AgentEvent → State}
  {allowed : State → AgentOp → Prop} {state : State}

/-- An operation that the observer does not notice. -/
theorem keeps_always (op : AgentOp) (permitted : allowed state op)
    (unnoticed : ∀ answer, observe state ⟨op, answer⟩ = state) :
    Action.Keeps observe allowed state
      (Action.ofHost (always op) :
        Action agents Locals (agents.Answer op)) := by
  intro locals
  apply holds_always.mpr
  refine ⟨permitted, ?_⟩
  rintro answer after rfl
  exact unnoticed answer

/-- A critical section. -/
theorem keeps_guarded
    (name : MutexName) (outer inner : State)
    {body : Action agents Locals Value}
    (locks : allowed outer (.lock name))
    (enters : observe outer ⟨.lock name, ()⟩ = inner)
    (runs : Action.Keeps observe allowed inner body)
    (unlocks : allowed inner (.unlock name))
    (leaves : observe inner ⟨.unlock name, ()⟩ = outer) :
    Action.Keeps observe allowed outer ((mutex name).guarded body) := by
  intro locals
  apply Action.holds_bind.mpr
  apply (holds_op (.lock name)).mpr
  refine ⟨locks, ?_⟩
  rintro ⟨⟩ locked rfl
  apply Action.holds_scopeGuard.mpr
  rw [enters]
  apply (runs locals).imp
  rintro outcome after reached rfl
  apply (holds_op (.unlock name)).mpr
  refine ⟨unlocks, ?_⟩
  rintro ⟨⟩ unlocked rfl
  exact leaves

end Keeping

/-- A provider about which nothing is known. -/
def anyProvider : IModelProvider agents Locals where
  modelCapabilities model :=
    Action.ofHost (ask (AgentOp.modelCapabilities model))
  startTurn apiKey model systemInstruction userPrompt tools _ _ :=
    Action.ofHost (ask (AgentOp.startTurn
      { apiKey := apiKey
        model := model
        systemInstruction := systemInstruction
        userPrompt := userPrompt
        tools := tools.definitions }))
  continueTurn apiKey model systemInstruction responses tools _ _ :=
    Action.ofHost (ask (AgentOp.continueTurn
      { apiKey := apiKey
        model := model
        systemInstruction := systemInstruction
        responses := responses
        tools := tools.definitions }))
  trimHistory maxEntries :=
    Action.ofHost (ask (AgentOp.trimHistory maxEntries))
  cancelActiveRequest :=
    Action.ofHost (ask AgentOp.cancelProvider)
  resetSession := Action.ofHost (ask AgentOp.resetProvider)

/-- The network and the clock below a built-in provider. -/
def network : Transport agents where
  send request := always (AgentOp.send request)
  jitter := always AgentOp.jitter
  pollsBefore delay := always (AgentOp.pollsBefore delay)
  stop := always AgentOp.stopClient

/-- A tool about which nothing is known, executed in one step. -/
def anyTool (definition : ToolDefinition) (requiresConfirmation : Bool) :
    ITool agents Locals where
  definition := definition
  requiresConfirmation := requiresConfirmation
  execute arguments _ :=
    Action.ofHost
      (ask (AgentOp.executeTool definition.name arguments))

/-- Run a native tool against the context it was given. -/
def runNative (context : ToolContext agents Locals) :
    NativeRun → Action agents Locals ToolResult
  | .done (.ok result) => pure result
  | .done (.error failure) => throw failure
  | .call (.confirm request) next =>
      match context.confirm with
      | none => runNative context (next none)
      | some confirm => do
          let approved ← confirm request
          runNative context (next (some approved))
  | .call .cancelRequested next => do
      let stop ← isSet context.cancelRequested
      runNative context (next stop)

/-- A native tool: entering it is visible, and it may use its context. -/
def nativeTool (definition : ToolDefinition) (requiresConfirmation : Bool) :
    ITool agents Locals where
  definition := definition
  requiresConfirmation := requiresConfirmation
  execute arguments context := do
    let run ← Action.ofHost
      (always (AgentOp.enterTool definition.name arguments))
    runNative context run

/-- The progress callback of the host, when it has one. -/
def hostProgress (attached : Bool) : Option (String → Host agents Unit) :=
  if attached then
    some fun message => ask (AgentOp.onProgress message)
  else
    none

/-- The text callback of the host, when it has one. -/
def hostText (attached : Bool) : Option (String → Host agents Unit) :=
  if attached then
    some fun delta => ask (AgentOp.onText delta)
  else
    none

/-- The callbacks of the host: each may be absent. -/
def hostCallbacks (text progress : Bool) : StreamCallbacks agents where
  onText := hostText text
  onProgress := hostProgress progress

/-- The confirmation handler of the host, when it has one. -/
def hostConfirm (attached : Bool) : ConfirmationFn agents Locals :=
  if attached then
    some fun request =>
      Action.ofHost (ask (AgentOp.confirm request))
  else
    none

/-- The confirmation handler the host passes to a runtime, when it has one. -/
def hostHandler (attached : Bool) : HostConfirm agents :=
  if attached then some fun request => ask (.confirm request) else none

/-! ## The environment of the orchestrator -/

/--
A runtime about which nothing is known.  Its execution is one operation, which
ends when the runtime returns: other threads may take steps before.
-/
def anyAgentRuntime : IAgentRuntime agents where
  execute context _ _ :=
    Action.ofHost (ask (AgentOp.executeRuntime context))
  cancelActiveRequest := Action.ofHost (ask AgentOp.cancelRuntime)

/-- A factory that may throw or return no runtime. -/
def anyFactory : AgentRuntimeFactory agents :=
  fun profile => do
    let created ← Action.ofHost (ask (AgentOp.createRuntime profile))
    if created then pure (some anyAgentRuntime) else pure none

/-- The workflow callbacks of the host: each may be absent. -/
def hostWorkflow (started finished continuation text progress : Bool) :
    OrchestrationCallbacks agents where
  onStageStarted :=
    if started then
      some fun profileId => ask (AgentOp.stageStarted profileId)
    else
      none
  onStageFinished :=
    if finished then
      some fun profileId result =>
        ask (AgentOp.stageFinished profileId result)
    else
      none
  beforeNextStage :=
    if continuation then
      some fun profileId result artifact =>
        ask (AgentOp.beforeNextStage profileId result artifact)
    else
      none
  runtime := hostCallbacks text progress

end ArnCore.Agent.Environment
