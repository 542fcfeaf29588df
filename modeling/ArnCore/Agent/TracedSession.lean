import ArnCore.Agent.PromptDiscipline
import ArnCore.Interaction.Ghost

/-!
# Traced sessions

The confirmation handler of an execution remembers two bits.  A traced session
has the same configuration and the same tools, but its handler remembers every
request together with its verdict.  The prompt of the real session is a view of
the prompt of the traced one, so the two bits summarise the requests that were
made.
-/

namespace ArnCore.Agent.TracedSession

open ArnCore.Collections
open ArnCore.Interaction
open ArnCore.Interaction.Ghost
open ArnCore.Provider
open ArnCore.Tool
open ArnCore.Agent.BoundTools
open ArnCore.Agent.Environment
open ArnCore.Agent.ExposedTools

/-! ## Exposed tools, for any local variables -/

/-- What the runtime knows of a tool it exposes. -/
structure ExposedTool where
  definition : ToolDefinition
  confirms : Bool
  ask : Bool
  mutates : Bool

/-- The tool behind the permission adapter. -/
def ExposedTool.tool (exposed : ExposedTool) (Locals : Type) :
    ITool agents Locals :=
  permissionTool (nativeTool exposed.definition exposed.confirms) exposed.ask
    exposed.mutates

/-- A registry of exposed tools. -/
def registryOf (Locals : Type) (exposed : List (String × ExposedTool)) :
    ToolRegistry agents Locals where
  tools := exposed.map fun entry => (entry.1, entry.2.tool Locals)

theorem findTool_registryOf
    {exposed : List (String × ExposedTool)} {Locals : Type} {name : String} :
    (registryOf Locals exposed).findTool name =
      (OrderedMap.find? name exposed).map (·.tool Locals) :=
  OrderedMap.find?_map (fun tool : ExposedTool => tool.tool Locals)

/-- The registry of exposed tools grows by an exposed tool. -/
theorem registerTool_registryOf
    (Locals : Type) (exposed : List (String × ExposedTool))
    (added : ExposedTool) :
    ∃ grown,
      ((registryOf Locals exposed).registerTool
        (some (added.tool Locals))).2 = registryOf Locals grown := by
  unfold ToolRegistry.registerTool
  split
  · exact ⟨exposed, rfl⟩
  · rename_i tool same
    cases same
    split
    · exact ⟨exposed, rfl⟩
    · refine ⟨OrderedMap.insert added.definition.name added exposed, ?_⟩
      exact congrArg ToolRegistry.mk
        (OrderedMap.insert_map fun tool : ExposedTool => tool.tool Locals)

/-- Exposed tools that are registered make a registry of exposed tools. -/
theorem registerAll_registryOf
    {tools : List (ITool agents PermissionOutcome)}
    (each : ∀ tool ∈ tools,
      ∃ exposed : ExposedTool, tool = exposed.tool PermissionOutcome) :
    ∃ exposed, ToolRegistry.registerAll tools =
      registryOf PermissionOutcome exposed := by
  induction tools using List.reverseRecOn with
  | nil => exact ⟨[], rfl⟩
  | append_singleton tools last induction =>
      obtain ⟨before, built⟩ := induction fun tool member =>
        each tool (List.mem_append_left _ member)
      obtain ⟨added, rfl⟩ := each last (by simp)
      rw [ToolRegistry.registerAll_concat, built]
      exact registerTool_registryOf PermissionOutcome before added

/-- Whatever a runtime exposes is a registry of exposed tools. -/
theorem exists_exposed
    {profile : AgentProfile} {constraints : TaskConstraints}
    {bindings : List NativeBinding}
    {result : ToolRegistry agents PermissionOutcome}
    (finished : exposeTools profile constraints
      (bindings.map NativeBinding.toBinding) [] {} = some result) :
    ∃ exposed, result = registryOf PermissionOutcome exposed := by
  obtain ⟨_, rfl⟩ := exposeTools_eq_some.mp finished
  refine registerAll_registryOf fun tool shown => ?_
  obtain ⟨_, _, definition, confirms, _, _, same⟩ :=
    exists_of_mem_shownTools shown
  exact ⟨⟨definition, confirms, _, _⟩, same⟩

/-! ## The traced handler -/

/-- The requests of an execution, each with its verdict. -/
abbrev Trace := List (ConfirmationRequest × Bool)

/-- What the handler of an execution remembers of its requests. -/
def summary (attached : Bool) (trace : Trace) : PermissionOutcome where
  needsConfirmation := !attached && !trace.isEmpty
  declined := attached && trace.any fun entry => !entry.2

/-- The handler of an execution, remembering everything. -/
def tracedHandler (confirm : HostConfirm agents) :
    ConfirmationFn agents Trace :=
  some fun request =>
    match confirm with
    | none => do
        modify fun trace => trace ++ [(request, false)]
        pure false
    | some confirm => do
        let approved ← Action.ofHost (confirm request)
        modify fun trace => trace ++ [(request, approved)]
        pure approved

/-- The session of an execution, for any local variables. -/
def sessionOf (Locals : Type) (apiKey model : String) (config : AgentConfig)
    (exposed : List (String × ExposedTool))
    (handler : ConfirmationFn agents Locals) : AgentSession agents Locals where
  config := config
  tools := some (registryOf Locals exposed)
  confirmHandler := handler
  provider := some anyProvider
  apiKey := apiKey
  activeModel := model
  mutex := mutex .session
  activeProvider := pointer .activeProvider

/-- The session of an execution whose handler remembers everything. -/
def tracedSession (apiKey model : String) (attached : Bool)
    (config : AgentConfig) (exposed : List (String × ExposedTool)) :
    AgentSession agents Trace :=
  sessionOf Trace apiKey model config exposed
    (tracedHandler (hostHandler attached))

theorem promptedSession_registryOf
    {apiKey model : String} {bindings : List NativeBinding} {attached : Bool}
    {config : AgentConfig} {exposed : List (String × ExposedTool)} :
    promptedSession apiKey model bindings attached config
        (registryOf PermissionOutcome exposed) =
      sessionOf PermissionOutcome apiKey model config exposed
        (AgentRuntime.confirmHandler (hostHandler attached)) := rfl

/-- The provider sees the definitions of the tools only. -/
theorem definitions_registryOf
    {exposed : List (String × ExposedTool)} {Locals : Type} :
    (registryOf Locals exposed).definitions =
      exposed.map fun entry => entry.2.definition := by
  unfold ToolRegistry.definitions registryOf
  rw [List.map_map]
  rfl

/-! ## Related prompts -/

/-- What a prompt asks its provider, and that only a handler confirms. -/
def Prompted (apiKey model : String) (config : AgentConfig)
    (exposed : List (String × ExposedTool)) (input : String)
    (op : agents.Op) : Prop :=
  match (op : AgentOp) with
  | .startTurn request =>
      request =
        { apiKey := apiKey
          model := model
          systemInstruction := config.systemInstruction
          userPrompt := input
          tools := exposed.map fun entry => entry.2.definition }
  | .continueTurn request =>
      ∃ responses, request =
        { apiKey := apiKey
          model := model
          systemInstruction := config.systemInstruction
          responses := responses
          tools := exposed.map fun entry => entry.2.definition }
  | .confirm _ => False
  | _ => True

section Prompt

variable {Ghosts Locals : Type} {apiKey model input : String}
  {config : AgentConfig} {exposed : List (String × ExposedTool)}
  {Related : {Value : Type} → Action agents Ghosts Value →
    Action agents Locals Value → Prop}

/-- Related handlers give related answers. -/
def HandlersRelated
    (Related : {Value : Type} → Action agents Ghosts Value →
      Action agents Locals Value → Prop)
    (ghost : ConfirmationFn agents Ghosts)
    (handler : ConfirmationFn agents Locals) : Prop :=
  match ghost, handler with
  | some ghost, some handler =>
      ∀ request, Related (ghost request) (handler request)
  | none, none => True
  | _, _ => False

variable {ghostHandler : ConfirmationFn agents Ghosts}
  {handler : ConfirmationFn agents Locals}
  (related : Parametric (Prompted apiKey model config exposed input)
    Related)
  (handlers : HandlersRelated Related ghostHandler handler)

include related

theorem isSet_related (attached : Bool) :
    Related (isSet (callerFlag attached)) (isSet (callerFlag attached)) := by
  cases attached with
  | false => exact related.pure false
  | true => exact related.ofHost _ ⟨trivial, fun _ _ _ => trivial⟩

theorem notify_related (attached : Bool) (message : String) :
    Related (notify (hostProgress attached) message)
      (notify (hostProgress attached) message) := by
  cases attached with
  | false => exact related.pure ()
  | true => exact related.ofHost _ ⟨trivial, fun _ _ _ => trivial⟩

include handlers

variable {flagged text progress : Bool}

theorem runNative_related (run : NativeRun) :
    Related (runNative ⟨callerFlag flagged, ghostHandler⟩ run)
      (runNative ⟨callerFlag flagged, handler⟩ run) := by
  induction run with
  | done outcome =>
      cases outcome with
      | ok result => exact related.pure result
      | error failure => exact related.throw failure
  | call op next induction =>
      cases op with
      | confirm request =>
          cases ghostHandler with
          | none =>
              cases handler with
              | none => exact induction none
              | some confirm => exact handlers.elim
          | some ghost =>
              cases handler with
              | none => exact handlers.elim
              | some confirm =>
                  exact related.bind (handlers request)
                    fun approved => induction (some approved)
      | cancelRequested =>
          exact related.bind (isSet_related related flagged)
            fun stop => induction stop

theorem approve_related (request : ConfirmationRequest) :
    Related (approve ⟨callerFlag flagged, ghostHandler⟩ request)
      (approve ⟨callerFlag flagged, handler⟩ request) := by
  cases ghostHandler with
  | none =>
      cases handler with
      | none => exact related.pure false
      | some confirm => exact handlers.elim
  | some ghost =>
      cases handler with
      | none => exact handlers.elim
      | some confirm => exact handlers request

theorem tool_related (shown : ExposedTool) (arguments : Json) :
    Related
      ((shown.tool Ghosts).execute arguments
        ⟨callerFlag flagged, ghostHandler⟩)
      ((shown.tool Locals).execute arguments
        ⟨callerFlag flagged, handler⟩) := by
  apply related.bind (isSet_related related flagged)
  intro stop
  split
  · exact related.pure _
  · apply related.bind
    · show Related
        (if (shown.ask || shown.confirms) = true then _ else _)
        (if (shown.ask || shown.confirms) = true then _ else _)
      split
      · exact approve_related related handlers _
      · exact related.pure true
    · intro approved
      split
      · apply related.bind (isSet_related related flagged)
        intro stop
        split
        · exact related.pure _
        · apply related.bind
          · exact related.ofHost _ ⟨trivial, fun _ _ _ => trivial⟩
          · exact runNative_related related handlers
      · exact related.pure _

theorem execute_related (name : String) (arguments : Json) :
    Related
      ((registryOf Ghosts exposed).execute name arguments
        ⟨callerFlag flagged, ghostHandler⟩)
      ((registryOf Locals exposed).execute name arguments
        ⟨callerFlag flagged, handler⟩) := by
  unfold ToolRegistry.execute
  rw [findTool_registryOf, findTool_registryOf]
  cases OrderedMap.find? name exposed with
  | none => exact related.pure _
  | some tool => exact tool_related related handlers tool arguments

theorem runCalls_related (calls : List ToolCall) :
    ∀ responses, Related
      (AgentSession.runCalls
        (sessionOf Ghosts apiKey model config exposed ghostHandler)
        (registryOf Ghosts exposed) (hostCallbacks text progress)
        (callerFlag flagged) calls responses)
      (AgentSession.runCalls
        (sessionOf Locals apiKey model config exposed handler)
        (registryOf Locals exposed) (hostCallbacks text progress)
        (callerFlag flagged) calls responses) := by
  induction calls with
  | nil => exact fun responses => related.pure _
  | cons call calls induction =>
      intro responses
      apply related.bind (isSet_related related flagged)
      intro stop
      split
      · exact related.pure none
      · apply related.bind (notify_related related progress _)
        intro notified
        apply related.bind
        · exact execute_related related handlers call.name call.arguments
        · exact fun execution => induction _

theorem turnLoop_related (round : Int) :
    ∀ turn, Related
      (AgentSession.turnLoop
        (sessionOf Ghosts apiKey model config exposed ghostHandler)
        anyProvider (registryOf Ghosts exposed)
        (hostCallbacks text progress) (callerFlag flagged) round turn)
      (AgentSession.turnLoop
        (sessionOf Locals apiKey model config exposed handler)
        anyProvider (registryOf Locals exposed)
        (hostCallbacks text progress) (callerFlag flagged) round turn) := by
  -- The rounds that are left decrease with every iteration.
  induction left : (config.maxToolRounds - round).toNat
    using Nat.strongRecOn generalizing round with
  | ind left induction =>
      intro turn
      rw [AgentSession.turnLoop, AgentSession.turnLoop]
      by_cases final : turn.toolCalls = []
      · rw [if_pos final, if_pos final]
        exact related.pure _
      · rw [if_neg final, if_neg final]
        show Related (if round + 1 > config.maxToolRounds then _ else _)
          (if round + 1 > config.maxToolRounds then _ else _)
        split
        · exact related.pure _
        · apply related.bind (runCalls_related related handlers _ [])
          rintro (_ | responses)
          · exact related.pure _
          · apply related.bind (isSet_related related flagged)
            intro stop
            split
            · exact related.pure _
            · apply related.bind
              · show Related
                  (Action.ofHost (ask (AgentOp.continueTurn _)))
                  (Action.ofHost (ask (AgentOp.continueTurn _)))
                rw [definitions_registryOf, definitions_registryOf]
                exact related.ofHost _ ⟨⟨_, rfl⟩, fun _ _ _ => trivial⟩
              · intro next
                apply related.bind (isSet_related related flagged)
                intro stop
                split
                · exact related.pure _
                · split
                  · apply induction _ _ (round + 1) rfl
                    omega
                  · exact related.pure _

theorem runTurns_related :
    Related
      (AgentSession.runTurns
        (sessionOf Ghosts apiKey model config exposed ghostHandler)
        anyProvider (registryOf Ghosts exposed)
        (hostCallbacks text progress) (callerFlag flagged) input)
      (AgentSession.runTurns
        (sessionOf Locals apiKey model config exposed handler)
        anyProvider (registryOf Locals exposed)
        (hostCallbacks text progress) (callerFlag flagged) input) := by
  apply related.bind
  · show Related (Action.ofHost (ask (AgentOp.startTurn _)))
      (Action.ofHost (ask (AgentOp.startTurn _)))
    rw [definitions_registryOf, definitions_registryOf]
    exact related.ofHost _ ⟨rfl, fun _ _ _ => trivial⟩
  · intro turn
    apply related.bind (isSet_related related flagged)
    intro stop
    split
    · exact related.pure _
    · split
      · exact turnLoop_related related handlers 0 turn
      · exact related.pure _

/-- A prompt cannot tell which variables it has. -/
theorem prompt_related :
    Related
      ((sessionOf Ghosts apiKey model config exposed ghostHandler).prompt
        (hostCallbacks text progress) (callerFlag flagged) input)
      ((sessionOf Locals apiKey model config exposed handler).prompt
        (hostCallbacks text progress) (callerFlag flagged) input) := by
  apply related.bind
  · exact related.ofHost (always (.lock .session))
      ⟨trivial, fun _ _ _ => trivial⟩
  · intro locked
    apply related.scopeGuard _
      (related.ofHost (always (.unlock .session))
        ⟨trivial, fun _ _ _ => trivial⟩)
    show Related (if apiKey = "" then _ else if model = "" then _ else _)
      (if apiKey = "" then _ else if model = "" then _ else _)
    split
    · exact related.pure _
    · split
      · exact related.pure _
      · apply related.bind (isSet_related related flagged)
        intro stop
        split
        · exact related.pure _
        · apply related.bind
          · exact related.ofHost _ ⟨trivial, fun _ _ _ => trivial⟩
          · intro trimmed
            apply related.bind
            · exact related.ofHost _ ⟨trivial, fun _ _ _ => trivial⟩
            · intro published
              apply related.scopeGuard
                (runTurns_related related handlers)
              exact related.ofHost _ ⟨trivial, fun _ _ _ => trivial⟩

end Prompt

/-! ## What the traced handler remembers -/

/-- The verdicts of the handler of the host, in order. -/
def answered (trace : Trace) : AgentEvent → Trace
  | ⟨.confirm request, .ok approved⟩ => trace ++ [(request, approved)]
  | _ => trace

theorem answered_of_prompted
    {apiKey model input : String} {config : AgentConfig}
    {exposed : List (String × ExposedTool)}
    (trace : Trace) (op : AgentOp) (answer : agents.Answer op)
    (prompted : Prompted apiKey model config exposed input op) :
    answered trace ⟨op, answer⟩ = trace := by
  cases op with
  | confirm request => exact prompted.elim
  | _ => rfl

/-- The handler of an execution is a view of the traced one. -/
theorem confirmHandler_views (attached : Bool) :
    HandlersRelated (Views (summary attached))
      (tracedHandler (hostHandler attached))
      (AgentRuntime.confirmHandler (hostHandler attached)) := by
  intro request
  cases attached with
  | false =>
      apply Views.bind
      · apply Views.modify
        intro trace
        simp [summary]
      · exact fun _ => .pure false
  | true =>
      apply Views.bind (.ofHost _)
      intro approved
      apply Views.bind
      · apply Views.modify
        intro trace
        simp [summary]
      · exact fun _ => .pure approved

/-- With a handler of the host, the trace consists of its verdicts. -/
theorem tracedHandler_follows :
    HandlersRelated
      (fun ghost (_ : Action agents Trace _) => Follows answered ghost)
      (tracedHandler (hostHandler true))
      (tracedHandler (hostHandler true)) := by
  intro request trace
  apply Action.holds_bind.mpr
  refine ⟨trivial, ?_⟩
  rintro (failure | approved) after rfl <;> rfl

section Traced

variable {apiKey model input : String} {config : AgentConfig}
  {exposed : List (String × ExposedTool)} {attached text progress : Bool}
  {history : List AgentEvent} {outcome : Except Exception ApiResult}

/--
A prompt of an execution has a trace: its variables summarise the trace, and
with a handler of the host the trace can be read off the events.
-/
theorem exists_trace
    {bindings : List NativeBinding} {after : PermissionOutcome}
    (run : Action.Finishes
      ((promptedSession apiKey model bindings attached config
        (registryOf PermissionOutcome exposed)).prompt
          (hostCallbacks text progress) (callerFlag true) input)
      {} history outcome after) :
    ∃ trace, after = summary attached trace ∧
      Action.Finishes
        ((tracedSession apiKey model attached config exposed).prompt
          (hostCallbacks text progress) (callerFlag true) input)
        [] history outcome trace ∧
      (attached = true → trace = history.foldl answered []) := by
  have viewed : Views (summary attached)
      ((tracedSession apiKey model attached config exposed).prompt
        (hostCallbacks text progress) (callerFlag true) input)
      ((sessionOf PermissionOutcome apiKey model config exposed
        (AgentRuntime.confirmHandler (hostHandler attached))).prompt
          (hostCallbacks text progress) (callerFlag true) input) :=
    prompt_related (Views.parametric _ (summary attached))
      (confirmHandler_views attached)
  have started : ({} : PermissionOutcome) = summary attached [] := by
    cases attached <;> rfl
  rw [started, promptedSession_registryOf] at run
  obtain ⟨trace, same, traced⟩ := viewed.finishes run
  refine ⟨trace, same, traced, ?_⟩
  rintro rfl
  have follows : Follows answered
      ((tracedSession apiKey model true config exposed).prompt
        (hostCallbacks text progress) (callerFlag true) input) :=
    prompt_related (Follows.parametric answered_of_prompted)
      tracedHandler_follows
  exact follows.finishes traced

end Traced

end ArnCore.Agent.TracedSession
