import ArnCore.Agent.AgentOrchestrator
import ArnCore.Agent.AgentRuntime
import ArnCore.Interaction.Likeness

/-!
# Agents that are alike

The session, the runtime and the orchestrator treat their provider, their tools
and the callbacks of the host uniformly.  Where those do the like, so does an
execution: nothing that their likeness leaves out is noticed or passed on.
-/

namespace ArnCore.Agent.AlikeAgents

open ArnCore.Interaction
open ArnCore.Provider
open ArnCore.Tool

variable {signature : Signature} {Locals : Type}

section Interfaces

variable (likeness : Likeness signature)

/-- Loading the flag, if there is one. -/
def FlagAlike (flag : CancelFlag signature) : Prop :=
  ∀ load, flag = some load → Host.Alike likeness Eq load load

/-- Calling the callback, if there is one. -/
def CallbackAlike (callback : Option (String → Host signature Unit)) : Prop :=
  ∀ call, callback = some call →
    ∀ message, Host.Alike likeness Eq (call message) (call message)

structure CallbacksAlike (callbacks : StreamCallbacks signature) : Prop where
  onText : CallbackAlike likeness callbacks.onText
  onProgress : CallbackAlike likeness callbacks.onProgress

/-- What a tool may call: the flag and the confirmation handler. -/
structure ContextAlike (context : ToolContext signature Locals) : Prop where
  flag : FlagAlike likeness context.cancelRequested
  confirm : ∀ confirm, context.confirm = some confirm →
    ∀ request, Action.Alike likeness Eq (confirm request) (confirm request)

def ToolAlike (tool : ITool signature Locals) : Prop :=
  ∀ arguments context, ContextAlike likeness context →
    Action.Alike likeness Eq (tool.execute arguments context)
      (tool.execute arguments context)

def RegistryAlike (registry : ToolRegistry signature Locals) : Prop :=
  ∀ name tool, registry.findTool name = some tool → ToolAlike likeness tool

/-- Two providers, each with the key it is called with. -/
structure ProvidersAlike (apiKey otherKey : String)
    (provider other : IModelProvider signature Locals) : Prop where
  modelCapabilities : ∀ model,
    Action.Alike likeness Eq (provider.modelCapabilities model)
      (other.modelCapabilities model)
  startTurn : ∀ model systemInstruction userPrompt tools callbacks cancel,
    CallbacksAlike likeness callbacks → FlagAlike likeness cancel →
      Action.Alike likeness Eq
        (provider.startTurn apiKey model systemInstruction userPrompt tools
          callbacks cancel)
        (other.startTurn otherKey model systemInstruction userPrompt tools
          callbacks cancel)
  continueTurn : ∀ model systemInstruction responses tools callbacks cancel,
    CallbacksAlike likeness callbacks → FlagAlike likeness cancel →
      Action.Alike likeness Eq
        (provider.continueTurn apiKey model systemInstruction responses tools
          callbacks cancel)
        (other.continueTurn otherKey model systemInstruction responses tools
          callbacks cancel)
  trimHistory : ∀ maxEntries,
    Action.Alike likeness Eq (provider.trimHistory maxEntries)
      (other.trimHistory maxEntries)
  cancelActiveRequest :
    Action.Alike likeness Eq provider.cancelActiveRequest
      other.cancelActiveRequest
  resetSession :
    Action.Alike likeness Eq provider.resetSession other.resetSession

/-- Both are absent, or both are there and alike. -/
inductive Present {Object : Type} (alike : Object → Object → Prop) :
    Option Object → Option Object → Prop where
  | absent : Present alike none none
  | present {object other : Object} (related : alike object other) :
      Present alike (some object) (some other)

omit likeness in
theorem Present.isNone_eq
    {Object : Type} {alike : Object → Object → Prop}
    {object other : Option Object} (present : Present alike object other) :
    object.isNone = other.isNone := by
  cases present <;> rfl

/-- Sessions that differ in their provider and its key only. -/
structure SessionsAlike (session other : AgentSession signature Locals) :
    Prop where
  config : session.config = other.config
  tools : session.tools = other.tools
  registry : RegistryAlike likeness (session.tools.getD {})
  confirmHandler : session.confirmHandler = other.confirmHandler
  confirms : ∀ confirm, session.confirmHandler = some confirm →
    ∀ request, Action.Alike likeness Eq (confirm request) (confirm request)
  activeModel : session.activeModel = other.activeModel
  apiKey : session.apiKey = "" ↔ other.apiKey = ""
  provider : Present
    (ProvidersAlike likeness session.apiKey other.apiKey)
    session.provider other.provider
  mutex : session.mutex.Alike likeness other.mutex
  activeProvider : session.activeProvider.Alike likeness other.activeProvider

end Interfaces

section Basics

variable {likeness : Likeness signature}

theorem isSet_alike
    {flag : CancelFlag signature} (alike : FlagAlike likeness flag) :
    Action.Alike likeness Eq
      (isSet flag : Action signature Locals Bool) (isSet flag) := by
  cases flag with
  | none => exact .pure rfl
  | some load => exact .ofHost (alike load rfl)

theorem notify_alike
    {callback : Option (String → Host signature Unit)}
    (alike : CallbackAlike likeness callback) (message : String) :
    Action.Alike likeness Eq
      (notify callback message : Action signature Locals Unit)
      (notify callback message) := by
  cases callback with
  | none => exact .pure rfl
  | some call => exact .ofHost (alike call rfl message)

theorem registryAlike_empty :
    RegistryAlike likeness ({} : ToolRegistry signature Locals) := by
  intro name tool found
  cases found

theorem execute_alike
    {registry : ToolRegistry signature Locals}
    {context : ToolContext signature Locals}
    (alike : RegistryAlike likeness registry)
    (within : ContextAlike likeness context) (name : String)
    (arguments : Json) :
    Action.Alike likeness Eq (registry.execute name arguments context)
      (registry.execute name arguments context) := by
  unfold ToolRegistry.execute
  cases found : registry.findTool name with
  | none => exact .pure rfl
  | some tool => exact alike name tool found arguments context within

end Basics

/-! ## The session -/

section Session

variable {likeness : Likeness signature}
  {session other : AgentSession signature Locals}
  {provider partner : IModelProvider signature Locals}
  {registry : ToolRegistry signature Locals}
  {callbacks : StreamCallbacks signature} {cancel : CancelFlag signature}

theorem runCalls_alike
    (sessions : SessionsAlike likeness session other)
    (tools : RegistryAlike likeness registry)
    (informs : CallbacksAlike likeness callbacks)
    (polls : FlagAlike likeness cancel)
    (calls : List ToolCall) (responses : List ToolResponse) :
    Action.Alike likeness Eq
      (AgentSession.runCalls session registry callbacks cancel calls
        responses)
      (AgentSession.runCalls other registry callbacks cancel calls
        responses) := by
  induction calls generalizing responses with
  | nil => exact .pure rfl
  | cons call calls induction =>
      refine .bind_eq (isSet_alike polls) fun stop => ?_
      cases stop with
      | true => exact .pure rfl
      | false =>
          refine .bind_eq (notify_alike informs.onProgress _) fun _ => ?_
          rw [← sessions.confirmHandler]
          exact .bind_eq
            (execute_alike tools ⟨polls, sessions.confirms⟩ _ _)
            fun execution => induction _

theorem turnLoop_alike
    (sessions : SessionsAlike likeness session other)
    (providers : ProvidersAlike likeness session.apiKey other.apiKey provider
      partner)
    (tools : RegistryAlike likeness registry)
    (informs : CallbacksAlike likeness callbacks)
    (polls : FlagAlike likeness cancel) (round : Int) (turn : ModelTurn) :
    Action.Alike likeness Eq
      (AgentSession.turnLoop session provider registry callbacks cancel round
        turn)
      (AgentSession.turnLoop other partner registry callbacks cancel round
        turn) := by
  induction remaining : (session.config.maxToolRounds - round).toNat
    using Nat.strong_induction_on generalizing round turn with
  | _ remaining induction =>
      rw [AgentSession.turnLoop, AgentSession.turnLoop, ← sessions.config,
        ← sessions.activeModel]
      split
      · exact .pure rfl
      · split
        · exact .pure rfl
        · rename_i bounded
          refine .bind_eq
            (runCalls_alike sessions tools informs polls _ _) fun collected => ?_
          cases collected with
          | none => exact .pure rfl
          | some responses =>
              refine .bind_eq (isSet_alike polls) fun stop => ?_
              cases stop with
              | true => exact .pure rfl
              | false =>
                  refine .bind_eq
                    (providers.continueTurn _ _ _ _ _ _ informs polls)
                    fun next => .bind_eq (isSet_alike polls) fun stop => ?_
                  cases stop with
                  | true => exact .pure rfl
                  | false =>
                      cases ok : next.ok with
                      | true =>
                          simp only [Bool.false_eq_true, if_false, if_true]
                          exact induction _ (by omega) _ _ rfl
                      | false =>
                          simp only [Bool.false_eq_true, if_false]
                          exact .pure rfl

theorem runTurns_alike
    (sessions : SessionsAlike likeness session other)
    (providers : ProvidersAlike likeness session.apiKey other.apiKey provider
      partner)
    (tools : RegistryAlike likeness registry)
    (informs : CallbacksAlike likeness callbacks)
    (polls : FlagAlike likeness cancel) (text : String) :
    Action.Alike likeness Eq
      (AgentSession.runTurns session provider registry callbacks cancel text)
      (AgentSession.runTurns other partner registry callbacks cancel
        text) := by
  unfold AgentSession.runTurns
  rw [← sessions.config, ← sessions.activeModel]
  refine .bind_eq (providers.startTurn _ _ _ _ _ _ informs polls) fun turn =>
    .bind_eq (isSet_alike polls) fun stop => ?_
  cases stop with
  | true => exact .pure rfl
  | false =>
      cases ok : turn.ok with
      | true =>
          simp only [Bool.false_eq_true, if_false, if_true]
          exact turnLoop_alike sessions providers tools informs polls 0 turn
      | false =>
          simp only [Bool.false_eq_true, if_false]
          exact .pure rfl

theorem prompt_alike
    (sessions : SessionsAlike likeness session other)
    (informs : CallbacksAlike likeness callbacks)
    (polls : FlagAlike likeness cancel) (text : String) :
    Action.Alike likeness Eq
      (AgentSession.prompt session callbacks cancel text)
      (AgentSession.prompt other callbacks cancel text) := by
  refine sessions.mutex.guarded ?_
  unfold AgentSession.promptLocked
  rw [← sessions.tools, ← sessions.config, ← sessions.activeModel]
  have present := sessions.provider
  generalize session.provider = first at present
  generalize other.provider = second at present
  cases present with
  | absent => exact .pure rfl
  | present providers =>
      by_cases unset : session.apiKey = ""
      · simp only [unset, sessions.apiKey.mp unset, if_true]
        exact .pure rfl
      · simp only [unset, mt sessions.apiKey.mpr unset, if_false]
        split
        · exact .pure rfl
        · refine .bind_eq (isSet_alike polls) fun stop => ?_
          cases stop with
          | true => exact .pure rfl
          | false =>
              exact .bind_eq (providers.trimHistory _) fun _ =>
                .bind_eq (.ofHost sessions.activeProvider.publish) fun _ =>
                  .scopeGuard
                    (runTurns_alike sessions providers sessions.registry
                      informs polls text)
                    (.ofHost sessions.activeProvider.clear)

theorem resetSession_alike
    (sessions : SessionsAlike likeness session other) :
    Action.Alike likeness Eq session.resetSession other.resetSession := by
  refine sessions.mutex.guarded ?_
  have present := sessions.provider
  generalize session.provider = first at present
  generalize other.provider = second at present
  cases present with
  | absent => exact .pure rfl
  | present providers => exact providers.resetSession

theorem modelCapabilities_alike
    (sessions : SessionsAlike likeness session other) :
    Action.Alike likeness Eq session.modelCapabilities
      other.modelCapabilities := by
  refine sessions.mutex.guarded ?_
  rw [← sessions.activeModel]
  have present := sessions.provider
  generalize session.provider = first at present
  generalize other.provider = second at present
  cases present with
  | absent => exact .pure rfl
  | present providers => exact providers.modelCapabilities _

theorem cancelSession_alike
    (sessions : SessionsAlike likeness session other) :
    Action.Alike likeness Eq session.cancelActiveRequest
      other.cancelActiveRequest := by
  refine .bind_eq (.ofHost sessions.activeProvider.present) fun active => ?_
  have present := sessions.provider
  generalize session.provider = first at present
  generalize other.provider = second at present
  cases present with
  | absent =>
      cases active with
      | true => exact .pure rfl
      | false => exact sessions.mutex.guarded (.pure rfl)
  | present providers =>
      cases active with
      | true => exact providers.cancelActiveRequest
      | false => exact sessions.mutex.guarded providers.cancelActiveRequest

end Session

/-! ## The runtime -/

section Runtime

variable {likeness : Likeness signature}

/-- The permission adapter adds nothing that is not alike. -/
theorem permissionTool_alike
    {tool : ITool signature Locals} (alike : ToolAlike likeness tool)
    (ask mutates : Bool) :
    ToolAlike likeness (permissionTool tool ask mutates) := by
  intro arguments context within
  refine .bind_eq (isSet_alike within.flag) fun stop => ?_
  cases stop with
  | true => exact .pure rfl
  | false =>
      refine .bind_eq ?_ fun approved => ?_
      · split
        · unfold approve
          cases handler : context.confirm with
          | none => exact .pure rfl
          | some confirm => exact within.confirm confirm handler _
        · exact .pure rfl
      · cases approved with
        | false => exact .pure rfl
        | true =>
            refine .bind_eq (isSet_alike within.flag) fun stop => ?_
            cases stop with
            | true => exact .pure rfl
            | false => exact alike arguments context within

def BindingsAlike (likeness : Likeness signature)
    (bindings : List (AgentToolBinding signature)) : Prop :=
  ∀ binding ∈ bindings, ∀ tool, binding.tool = some tool →
    ToolAlike likeness tool

theorem registerTool_alike
    {registry : ToolRegistry signature Locals} {tool : ITool signature Locals}
    (alike : RegistryAlike likeness registry)
    (added : ToolAlike likeness tool) :
    RegistryAlike likeness (registry.registerTool (some tool)).2 := by
  unfold ToolRegistry.registerTool
  dsimp only
  split
  · exact alike
  · intro name other found
    unfold ToolRegistry.findTool at found
    rw [Collections.OrderedMap.find?_insert] at found
    split at found
    · rwa [← Option.some.inj found]
    · exact alike name other found

theorem exposeTools_alike
    (profile : AgentProfile) (constraints : TaskConstraints)
    (bindings : List (AgentToolBinding signature))
    (all : BindingsAlike likeness bindings) (names : List String)
    (registry : ToolRegistry signature PermissionOutcome)
    (alike : RegistryAlike likeness registry)
    {exposed : ToolRegistry signature PermissionOutcome}
    (exposes : exposeTools profile constraints bindings names registry =
      some exposed) :
    RegistryAlike likeness exposed := by
  induction bindings generalizing names registry with
  | nil =>
      rw [exposeTools] at exposes
      rwa [← Option.some.inj exposes]
  | cons binding rest induction =>
      have later : BindingsAlike likeness rest :=
        fun other member => all other (List.mem_cons_of_mem _ member)
      cases bound : binding.tool with
      | none =>
          rw [exposeTools, bound] at exposes
          cases exposes
      | some tool =>
          simp only [exposeTools, bound] at exposes
          split_ifs at exposes
          · exact induction later _ _ alike exposes
          · refine induction later _ _ ?_ exposes
            exact registerTool_alike alike
              (permissionTool_alike
                (all binding List.mem_cons_self tool bound) _ _)
          · exact induction later _ _ alike exposes

/-- Runtimes that differ in their provider and its key only. -/
structure RuntimesAlike (likeness : Likeness signature)
    (runtime other : AgentRuntime signature) : Prop where
  provider : Present
    (ProvidersAlike likeness runtime.apiKey other.apiKey)
    runtime.provider other.provider
  apiKey : runtime.apiKey = "" ↔ other.apiKey = ""
  model : runtime.model = other.model
  tools : runtime.tools = other.tools
  bindings : BindingsAlike likeness runtime.tools
  executing : runtime.executing.Alike likeness other.executing
  activeMutex : runtime.activeMutex.Alike likeness other.activeMutex
  active : runtime.active.Alike likeness other.active
  activeCancel : runtime.activeCancel.Alike likeness other.activeCancel
  sessionLifetime : runtime.sessionLifetime.Alike likeness
    other.sessionLifetime
  sessionMutex : runtime.sessionMutex.Alike likeness other.sessionMutex
  activeProvider : runtime.activeProvider.Alike likeness other.activeProvider
  cancelledLifetime : runtime.cancelledLifetime.Alike likeness
    other.cancelledLifetime
  cancelled : runtime.cancelled = other.cancelled
  flag : runtime.cancelled.Alike likeness runtime.cancelled

/-- The confirmation handler of the host, if there is one. -/
def ConfirmAlike (likeness : Likeness signature)
    (confirm : HostConfirm signature) : Prop :=
  ∀ call, confirm = some call →
    ∀ request, Host.Alike likeness Eq (call request) (call request)

theorem confirmHandler_alike
    {confirm : HostConfirm signature} (alike : ConfirmAlike likeness confirm)
    {handler : ConfirmationRequest →
      Action signature PermissionOutcome Bool}
    (same : AgentRuntime.confirmHandler confirm = some handler)
    (request : ConfirmationRequest) :
    Action.Alike likeness Eq (handler request) (handler request) := by
  cases same
  cases confirm with
  | none => exact .bind_eq (.modify _) fun _ => .pure rfl
  | some call =>
      exact .bind_eq (.ofHost (alike call rfl request)) fun approved =>
        .bind_eq (.modify _) fun _ => .pure rfl

section Executions

variable {runtime other : AgentRuntime signature}
  {registry : ToolRegistry signature PermissionOutcome}
  {callbacks : StreamCallbacks signature} {confirm : HostConfirm signature}
  {session partner : AgentSession signature PermissionOutcome}

theorem session_alike
    (runtimes : RuntimesAlike likeness runtime other)
    (tools : RegistryAlike likeness registry)
    (confirms : ConfirmAlike likeness confirm) (config : AgentConfig) :
    SessionsAlike likeness
      (runtime.session config (some registry)
        (AgentRuntime.confirmHandler confirm))
      (other.session config (some registry)
        (AgentRuntime.confirmHandler confirm)) where
  config := rfl
  tools := rfl
  registry := tools
  confirmHandler := rfl
  confirms _ same := confirmHandler_alike confirms same
  activeModel := runtimes.model
  apiKey := runtimes.apiKey
  provider := runtimes.provider
  mutex := runtimes.sessionMutex
  activeProvider := runtimes.activeProvider

theorem finish_alike
    (runtimes : RuntimesAlike likeness runtime other)
    (sessions : SessionsAlike likeness session partner) :
    Action.Alike likeness Eq (runtime.finish session)
      (other.finish partner) :=
  .bind_eq
    (runtimes.activeMutex.guarded
      (.bind_eq (.ofHost runtimes.active.clear) fun _ =>
        .ofHost runtimes.activeCancel.clear))
    fun _ => resetSession_alike sessions

theorem promptAttached_alike
    (runtimes : RuntimesAlike likeness runtime other)
    (sessions : SessionsAlike likeness session partner)
    (informs : CallbacksAlike likeness callbacks)
    (throws : ∀ failure, likeness.failures failure failure)
    (json : JsonText) (context : AgentContext) :
    Action.Alike likeness Eq
      (runtime.promptAttached json session callbacks context)
      (other.promptAttached json partner callbacks context) := by
  have dumped : likeness.Outcomes Eq (json.dump (promptJson context))
      (json.dump (promptJson context)) := by
    cases json.dump (promptJson context) with
    | ok text => exact .returns rfl
    | error failure => exact .throws (throws failure)
  have polls : FlagAlike likeness (some runtime.cancelled.load) := by
    rintro _ ⟨⟩
    exact runtimes.flag.load
  unfold AgentRuntime.promptAttached
  rw [← runtimes.cancelled]
  refine .onException ?_
    (.tryCatch (finish_alike runtimes sessions) fun _ _ _ => .pure rfl)
  refine .bind_eq (runtimes.activeMutex.guarded
    (.bind_eq (.ofHost runtimes.active.publish) fun _ =>
      .ofHost runtimes.activeCancel.publish)) fun _ => ?_
  exact .bind_eq (.ofExcept dumped) fun text =>
    .bind_eq (prompt_alike sessions informs polls text) fun result =>
      .bind_eq (finish_alike runtimes sessions) fun _ => .pure rfl

theorem conclude_alike
    (runtimes : RuntimesAlike likeness runtime other)
    (profile : AgentProfile) (result : ApiResult) :
    Action.Alike likeness Eq (runtime.conclude profile result)
      (other.conclude profile result) := by
  unfold AgentRuntime.conclude
  rw [← runtimes.cancelled]
  refine .bind_eq ?_ fun stop => ?_
  · split
    · exact .pure rfl
    · exact .ofHost runtimes.flag.load
  · split
    · exact .pure rfl
    · split
      · refine .bind_eq .get fun permission => ?_
        split
        · exact .pure rfl
        · split <;> exact .pure rfl
      · exact .pure rfl

theorem runSession_alike
    (runtimes : RuntimesAlike likeness runtime other)
    (tools : RegistryAlike likeness registry)
    (informs : CallbacksAlike likeness callbacks)
    (confirms : ConfirmAlike likeness confirm)
    (throws : ∀ failure, likeness.failures failure failure)
    (json : JsonText) (context : AgentContext) :
    Action.Alike likeness Eq
      (runtime.runSession json registry context callbacks confirm)
      (other.runSession json registry context callbacks confirm) := by
  have sessions := session_alike runtimes tools confirms
    { maxToolRounds := (stepBudget context : Int) - 1
      systemInstruction := systemInstruction context.profile }
  refine runtimes.sessionLifetime.scoped ?_
  refine .bind_eq (modelCapabilities_alike sessions) fun capabilities => ?_
  split
  · exact .pure rfl
  · refine .bind_eq (resetSession_alike sessions) fun _ => ?_
    refine runtimes.cancelledLifetime.scoped ?_
    rw [← runtimes.cancelled]
    exact .bind_eq (.ofHost (runtimes.flag.store false)) fun _ =>
      .bind_eq
        (promptAttached_alike runtimes sessions informs throws json context)
        fun result => conclude_alike runtimes _ result

theorem executeContext_alike
    (runtimes : RuntimesAlike likeness runtime other)
    (informs : CallbacksAlike likeness callbacks)
    (confirms : ConfirmAlike likeness confirm)
    (throws : ∀ failure, likeness.failures failure failure)
    (json : JsonText) (context : AgentContext) :
    Action.Alike likeness Eq
      (runtime.executeContext json context callbacks confirm :
        Action signature Locals AgentResult)
      (other.executeContext json context callbacks confirm) := by
  have environment : (runtime.provider.isNone || runtime.apiKey = "" ||
      runtime.model = "") =
        (other.provider.isNone || other.apiKey = "" || other.model = "") := by
    rw [runtimes.model]
    congr 2
    · exact runtimes.provider.isNone_eq
    · exact decide_eq_decide.mpr runtimes.apiKey
  unfold AgentRuntime.executeContext
  rw [environment, ← runtimes.tools]
  split
  · exact .pure rfl
  · split
    · exact .pure rfl
    · split
      · exact .pure rfl
      · split
        · exact .pure rfl
        · cases exposes : exposeTools context.profile context.task.constraints
            runtime.tools [] {} with
          | none => exact .pure rfl
          | some registry =>
              refine .withLocals (runSession_alike runtimes ?_ informs confirms
                throws json context)
              exact exposeTools_alike _ _ _ runtimes.bindings _ _
                registryAlike_empty exposes

/-- Whatever is thrown becomes the same result. -/
theorem executeRuntime_alike
    (runtimes : RuntimesAlike likeness runtime other)
    (informs : CallbacksAlike likeness callbacks)
    (confirms : ConfirmAlike likeness confirm)
    (throws : ∀ failure, likeness.failures failure failure)
    (json : JsonText) (context : AgentContext) :
    Action.Alike likeness Eq
      (runtime.execute json context callbacks confirm :
        Action signature Locals AgentResult)
      (other.execute json context callbacks confirm) := by
  refine .bind_eq (.ofHost (runtimes.executing.exchange true)) fun busy => ?_
  cases busy with
  | true => exact .pure rfl
  | false =>
      exact .scopeGuard
        (.tryCatch
          (executeContext_alike runtimes informs confirms throws json context)
          fun _ _ _ => .pure rfl)
        (.ofHost (runtimes.executing.store false))

theorem cancelRuntime_alike
    (runtimes : RuntimesAlike likeness runtime other) :
    Action.Alike likeness Eq runtime.cancelActiveRequest
      other.cancelActiveRequest := by
  refine runtimes.activeMutex.guarded ?_
  refine .bind_eq (.ofHost runtimes.active.present) fun active => ?_
  cases active with
  | false => exact .pure rfl
  | true =>
      rw [← runtimes.cancelled]
      refine .bind_eq (.ofHost (runtimes.flag.store true)) fun _ => ?_
      refine cancelSession_alike
        { config := rfl
          tools := rfl
          registry := registryAlike_empty
          confirmHandler := rfl
          confirms := nofun
          activeModel := runtimes.model
          apiKey := runtimes.apiKey
          provider := runtimes.provider
          mutex := runtimes.sessionMutex
          activeProvider := runtimes.activeProvider }

end Executions

end Runtime

end ArnCore.Agent.AlikeAgents
