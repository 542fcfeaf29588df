import ArnCore.Agent.RuntimeOutline

/-!
# The permission gate of the runtime

The runtime executes any context with any bindings of native tools, against any
provider and any confirmation handler.  Every operation of the execution is
judged by the whole history before it: a native tool is entered only with the
permission of the profile, and where a confirmation is due, only right after
the host approved this very call.
-/

namespace ArnCore.Agent.RuntimePermission

open ArnCore.Interaction
open ArnCore.Provider
open ArnCore.Tool
open ArnCore.Agent.Environment
open ArnCore.Agent.EnvironmentSteps
open ArnCore.Agent.ExposedTools
open ArnCore.Agent.RuntimeOutline

/-! ## What an execution may do -/

section Permission

variable (profile : AgentProfile) (constraints : TaskConstraints)
  (bindings : List NativeBinding)

/--
The host was asked about this very call and approved it; only the cancellation
flag has been read since.
-/
def Approved (history : List AgentEvent) (name : String)
    (arguments : Json) : Prop :=
  ∃ earlier request,
    history =
        earlier ++
          [⟨.confirm request, .ok true⟩, ⟨.load .cancelled, false⟩] ∧
      request.name = name ∧ request.arguments = arguments

/-- What the runtime may do after a history. -/
def Gated (history : List AgentEvent) : AgentOp → Prop
  | .startTurn request =>
      Valid bindings ∧
        request.tools.Perm (offers profile constraints bindings)
  | .continueTurn request =>
      Valid bindings ∧
        request.tools.Perm (offers profile constraints bindings)
  | .enterTool name arguments =>
      Valid bindings ∧
        ∃ binding ∈ bindings, ∃ definition confirms,
          binding.tool = some (definition, confirms) ∧
            definition.name = name ∧
            Offered profile constraints binding definition ∧
            (MustConfirm profile binding confirms →
              Approved history name arguments)
  | _ => True

end Permission

/-! ## Calls of native tools -/

section Calls

variable {profile : AgentProfile} {constraints : TaskConstraints}
  {bindings : List NativeBinding}

/-- The condition an execution is verified against, whatever it returns. -/
abbrev Guarded (profile : AgentProfile) (constraints : TaskConstraints)
    (bindings : List NativeBinding) {Locals Value : Type}
    (action : Action agents Locals Value) : Prop :=
  Action.Safe (recording agents) (Gated profile constraints bindings) action

theorem always_guarded {Locals : Type} {op : AgentOp}
    (harmless : ∀ history, Gated profile constraints bindings history op) :
    Guarded profile constraints bindings
      (Action.ofHost (always op) : Action agents Locals (agents.Answer op)) :=
  .ofHost fun history => ⟨harmless history, fun _ _ _ => trivial⟩

theorem isSet_guarded {Locals : Type} (attached : Bool) :
    Guarded profile constraints bindings
      (isSet (callContext attached).cancelRequested :
        Action agents Locals Bool) :=
  .ofHost fun _ => ⟨trivial, fun _ _ _ => trivial⟩

theorem confirmHandler_guarded
    (attached : Bool) (request : ConfirmationRequest)
    (confirm : ConfirmationRequest → Action agents PermissionOutcome Bool)
    (handler :
      AgentRuntime.confirmHandler (hostHandler attached) = some confirm) :
    Guarded profile constraints bindings (confirm request) := by
  cases handler
  cases attached with
  | false => exact .bind (.modify _) fun _ => .pure false
  | true =>
      apply Action.Safe.bind
      · exact .ofHost fun history => ⟨trivial, fun _ _ _ => trivial⟩
      · intro approved
        exact .bind (.modify _) fun _ => .pure approved

/-- A native tool may use its context as it likes. -/
theorem runNative_guarded (attached : Bool) (run : NativeRun) :
    Guarded profile constraints bindings
      (runNative (callContext attached) run) := by
  induction run with
  | done outcome =>
      cases outcome with
      | ok result => exact .pure result
      | error failure => exact .throw failure
  | call op next induction =>
      cases op with
      | confirm request =>
          apply Action.Safe.bind
          · exact confirmHandler_guarded attached request _ rfl
          · intro approved
            exact induction (some approved)
      | cancelRequested =>
          apply Action.Safe.bind
          · exact isSet_guarded attached
          · exact induction

/--
The last step before a native tool is entered: the flag is read once more, and
where a confirmation is due, the host has just approved this call.
-/
theorem enter_holds
    {binding : NativeBinding} {definition : ToolDefinition} {confirms : Bool}
    {arguments : Json} {permission : PermissionOutcome}
    {history : List AgentEvent}
    (attached : Bool) (valid : Valid bindings)
    (member : binding ∈ bindings)
    (bound : binding.tool = some (definition, confirms))
    (offered : Offered profile constraints binding definition)
    (approved : MustConfirm profile binding confirms →
      ∃ earlier request,
        history = earlier ++ [⟨.confirm request, .ok true⟩] ∧
          request.name = definition.name ∧ request.arguments = arguments) :
    Action.Holds (recording agents) (Gated profile constraints bindings)
      (fun _ _ _ => True)
      (do
        let stop ← isSet (callContext attached).cancelRequested
        if stop then
          pure (.failure "Request cancelled.")
        else
          (nativeTool definition confirms).execute arguments
            (callContext attached))
      permission history := by
  apply Action.holds_bind.mpr
  apply holds_isSet_flag.mpr
  refine ⟨trivial, ?_⟩
  rintro (_ | _) after rfl
  · apply Action.holds_bind.mpr
    apply holds_always.mpr
    constructor
    · refine ⟨valid, binding, member, definition, confirms, bound, rfl,
        offered, ?_⟩
      intro due
      rcases approved due with ⟨earlier, request, asked, same⟩
      refine ⟨earlier, request, ?_, same⟩
      rw [asked, List.append_assoc]
      rfl
    · rintro run entered rfl
      exact runNative_guarded attached run permission _
  · trivial

/-- The permission adapter lets only permitted calls through. -/
theorem permissionTool_guarded
    {binding : NativeBinding} {definition : ToolDefinition}
    {confirms ask mutates : Bool}
    (attached : Bool) (arguments : Json)
    (valid : Valid bindings) (member : binding ∈ bindings)
    (bound : binding.tool = some (definition, confirms))
    (offered : Offered profile constraints binding definition)
    (asks : MustConfirm profile binding confirms →
      (ask || confirms) = true) :
    Guarded profile constraints bindings
      ((permissionTool (nativeTool definition confirms) ask mutates).execute
        arguments (callContext attached)) := by
  intro permission history
  apply Action.holds_bind.mpr
  apply holds_isSet_flag.mpr
  refine ⟨trivial, ?_⟩
  rintro (_ | _) after rfl
  · apply Action.holds_bind.mpr
    by_cases required : (ask || confirms) = true
    · simp only [nativeTool, required, if_true]
      cases attached with
      | false => exact trivial
      | true =>
          apply Action.holds_bind.mpr
          refine ⟨trivial, ?_⟩
          rintro (failure | _ | _) answered rfl
          · trivial
          · trivial
          · exact enter_holds true valid member bound offered
              fun _ => ⟨_, _, rfl, rfl, rfl⟩
    · simp only [nativeTool, required]
      exact enter_holds attached valid member bound offered
        fun due => absurd (asks due) required
  · trivial

/-- Dispatch through the exposed registry. -/
theorem execute_guarded
    {registry : ToolRegistry agents PermissionOutcome}
    (attached : Bool) (valid : Valid bindings)
    (exposes : Exposes profile constraints bindings registry)
    (name : String) (arguments : Json) :
    Guarded profile constraints bindings
      (registry.execute name arguments (callContext attached)) := by
  unfold ToolRegistry.execute
  cases found : registry.findTool name with
  | none => exact .pure _
  | some tool =>
      rcases exposes.tools name tool found with
        ⟨binding, member, definition, confirms, bound, _, offered,
          ask, mutates, rfl, asks⟩
      exact permissionTool_guarded attached arguments valid member bound
        offered asks

end Calls

/-! ## The session -/

section Session

variable {profile : AgentProfile} {constraints : TaskConstraints}
  {bindings : List NativeBinding}
  {registry : ToolRegistry agents PermissionOutcome}
  {session : AgentSession agents PermissionOutcome}
  {attached text progress : Bool}

theorem offers_turn
    (valid : Valid bindings)
    (exposes : Exposes profile constraints bindings registry) :
    Valid bindings ∧
      registry.definitions.Perm (offers profile constraints bindings) :=
  ⟨valid, exposes.definitions⟩

theorem notify_guarded {Locals : Type} (message : String) :
    Guarded profile constraints bindings
      (notify (hostProgress progress) message :
        Action agents Locals Unit) := by
  cases progress with
  | false => exact .pure ()
  | true => exact .ofHost fun _ => ⟨trivial, fun _ _ _ => trivial⟩

theorem runCalls_guarded
    (handler : session.confirmHandler =
      AgentRuntime.confirmHandler (hostHandler attached))
    (valid : Valid bindings)
    (exposes : Exposes profile constraints bindings registry)
    (calls : List ToolCall) :
    ∀ responses, Guarded profile constraints bindings
      (AgentSession.runCalls session registry (hostCallbacks text progress)
        (callContext attached).cancelRequested calls responses) := by
  induction calls with
  | nil => exact fun responses => .pure _
  | cons call calls induction =>
      intro responses
      apply Action.Safe.bind (isSet_guarded attached)
      rintro (_ | _)
      · apply Action.Safe.bind (notify_guarded _)
        intro notified
        apply Action.Safe.bind
        · rw [handler]
          exact execute_guarded attached valid exposes call.name
            call.arguments
        · exact fun execution => induction _
      · exact .pure _

theorem turnLoop_guarded
    (handler : session.confirmHandler =
      AgentRuntime.confirmHandler (hostHandler attached))
    (valid : Valid bindings)
    (exposes : Exposes profile constraints bindings registry)
    (round : Int) :
    ∀ turn, Guarded profile constraints bindings
      (AgentSession.turnLoop session anyProvider registry
        (hostCallbacks text progress)
        (callContext attached).cancelRequested round turn) := by
  induction left : (session.config.maxToolRounds - round).toNat
    using Nat.strongRecOn generalizing round with
  | ind left induction =>
      intro turn
      unfold AgentSession.turnLoop
      by_cases final : turn.toolCalls = []
      · rw [if_pos final]
        exact .pure _
      · rw [if_neg final]
        by_cases exhausted : round + 1 > session.config.maxToolRounds
        · rw [if_pos exhausted]
          exact .pure _
        · rw [if_neg exhausted]
          apply Action.Safe.bind
            (runCalls_guarded handler valid exposes turn.toolCalls [])
          rintro (_ | responses)
          · exact .pure _
          · apply Action.Safe.bind (isSet_guarded attached)
            rintro (_ | _)
            · apply Action.Safe.bind
              · exact .ofHost fun _ =>
                  ⟨offers_turn valid exposes, fun _ _ _ => trivial⟩
              · intro next
                apply Action.Safe.bind (isSet_guarded attached)
                rintro (_ | _)
                · by_cases ok : next.ok = true
                  · simp only [Bool.false_eq_true, if_false, ok, if_true]
                    apply induction _ _ (round + 1) rfl
                    omega
                  · simp only [Bool.false_eq_true, if_false, ok]
                    exact .pure _
                · exact .pure _
            · exact .pure _

theorem runTurns_guarded
    (handler : session.confirmHandler =
      AgentRuntime.confirmHandler (hostHandler attached))
    (valid : Valid bindings)
    (exposes : Exposes profile constraints bindings registry)
    (input : String) :
    Guarded profile constraints bindings
      (AgentSession.runTurns session anyProvider registry
        (hostCallbacks text progress)
        (callContext attached).cancelRequested input) := by
  apply Action.Safe.bind
  · exact .ofHost fun _ =>
      ⟨offers_turn valid exposes, fun _ _ _ => trivial⟩
  · intro turn
    apply Action.Safe.bind (isSet_guarded attached)
    rintro (_ | _)
    · by_cases ok : turn.ok = true
      · simp only [Bool.false_eq_true, if_false, ok, if_true]
        exact turnLoop_guarded handler valid exposes 0 turn
      · simp only [Bool.false_eq_true, if_false, ok]
        exact .pure _
    · exact .pure _

end Session

/-! ## The execution -/

section Execution

variable {profile : AgentProfile} {constraints : TaskConstraints}
  {bindings : List NativeBinding}
  {registry : ToolRegistry agents PermissionOutcome}
  {apiKey model : String} {attached text progress : Bool}

theorem guarded_mutex {Locals Value : Type} {name : MutexName}
    {body : Action agents Locals Value}
    (runs : Guarded profile constraints bindings body) :
    Guarded profile constraints bindings ((mutex name).guarded body) :=
  Mutex.guarded_safe (always_guarded fun _ => trivial) runs
    (always_guarded fun _ => trivial)

theorem prompt_guarded
    (valid : Valid bindings)
    (exposes : Exposes profile constraints bindings registry)
    (config : AgentConfig) (input : String) :
    Guarded profile constraints bindings
      ((promptedSession apiKey model bindings attached config registry).prompt
        (hostCallbacks text progress)
        (callContext attached).cancelRequested input) := by
  apply guarded_mutex
  show Guarded _ _ _ (if apiKey = "" then _ else if model = "" then _ else _)
  split_ifs
  · exact .pure _
  · exact .pure _
  · apply Action.Safe.bind (isSet_guarded attached)
    rintro (_ | _)
    · apply Action.Safe.bind
      · exact .ofHost fun _ => ⟨trivial, fun _ _ _ => trivial⟩
      · intro trimmed
        apply Action.Safe.bind
        · exact always_guarded fun _ => trivial
        · intro published
          apply Action.Safe.scopeGuard
          · exact runTurns_guarded rfl valid exposes input
          · exact always_guarded fun _ => trivial
    · exact .pure _

/-- Outside its prompt an execution is not gated. -/
theorem gated_of_outside
    {history : List AgentEvent} {op : AgentOp} (outside : Outside op) :
    Gated profile constraints bindings history op := by
  cases op with
  | startTurn request => exact outside.elim
  | continueTurn request => exact outside.elim
  | enterTool name arguments => exact outside.elim
  | _ => trivial

theorem execution_outline
    (hasProvider : Bool) (json : JsonText) (context : AgentContext) :
    ExecutionOutline (recording agents)
      (Gated context.profile context.task.constraints bindings) hasProvider
      apiKey model bindings json context text progress attached
      (uniform (fun _ => True) fun _ => True) := by
  have steps : ∀ op, Outside op → Step (recording agents)
      (Gated context.profile context.task.constraints bindings)
      (fun _ => True) op fun _ _ => True :=
    fun op outside _ _ => ⟨gated_of_outside outside, fun _ _ _ => trivial⟩
  apply uniform_outline steps steps fun _ known => known
  intro accepted registry input exposed _ locals history _
  obtain ⟨valid, exposes⟩ := exposeTools_spec exposed
  exact prompt_guarded valid exposes _ input locals history

/-- An execution keeps to the gate of its profile from any history. -/
theorem execution_guarded
    {Locals : Type} (hasProvider : Bool) (json : JsonText)
    (context : AgentContext) :
    Guarded context.profile context.task.constraints bindings
      ((anyRuntime hasProvider apiKey model bindings).execute json context
        (hostCallbacks text progress) (hostHandler attached) :
        Action agents Locals AgentResult) := by
  intro locals history
  apply ((execution_outline hasProvider json context).execute locals history
    trivial).imp
  exact fun _ _ _ _ => trivial

end Execution

/-! ## The gate -/

/--
In every run of an execution, whatever the provider requests and whatever the
host answers: a native tool is entered only when the profile lists it and
permits all its operations, and, where a confirmation is due, only after the
host approved this very call.  The provider is offered exactly the permitted
tools.
-/
theorem native_tools_are_gated
    (hasProvider : Bool) (apiKey model : String)
    (bindings : List NativeBinding) (json : JsonText)
    (context : AgentContext) (text progress attached : Bool)
    (history : List AgentEvent)
    (rest : Program agents (Except Exception AgentResult × Unit))
    (run : Program.Runs
      (((anyRuntime hasProvider apiKey model bindings).execute json context
        (hostCallbacks text progress) (hostHandler attached)).run.run ())
      history rest) :
    ∀ before event after, history = before ++ event :: after →
      Gated context.profile context.task.constraints bindings before
        event.op :=
  (Program.Holds.records (execution_guarded hasProvider json context () [])
    run).1

/-- A profile that has to ask before it writes. -/
def writerContext : AgentContext where
  profile :=
    { id := "coder"
      allowedTools := ["write_file"]
      permissions := (AgentPermissions.empty.setDecision .writeFile .askUser).2 }
  task := { id := "t", objective := "Fix it", workingDirectory := "/w" }

/-- A binding that writes, and one that names no operation. -/
def writerBindings : List NativeBinding :=
  [{ tool :=
       some ({ name := "write_file", description := "", parameterSchema := .null },
         false)
     operations := [.writeFile] },
    { tool :=
        some ({ name := "read_file", description := "", parameterSchema := .null },
          false)
      operations := [] }]

/-- A provider that asks for one write and one read, and then answers. -/
def writeThenRead : List AgentEvent → (op : AgentOp) → agents.Answer op
  | _, .startTurn _ =>
      .ok
        { ok := true
          toolCalls :=
            [{ id := "call_1", name := "write_file", arguments := .null },
              { id := "call_2", name := "read_file", arguments := .null }] }
  | _, op => quiet op

def writerRun : List AgentEvent × (Except Exception AgentResult × Unit) :=
  Program.scripted writeThenRead
    (((anyRuntime true "key" "model" writerBindings).execute (.knowing [])
      writerContext (hostCallbacks false false)
      (hostHandler true)).run.run ())
    []

/-- The tools entered in a history. -/
def entered (history : List AgentEvent) : List String :=
  history.filterMap fun event =>
    match event.op with
    | .enterTool name _ => some name
    | _ => none

/-- The gate on a run in which one call is approved and one is unknown. -/
theorem native_tools_are_gated_writer :
    entered writerRun.1 = ["write_file"] ∧
      ∀ before event after, writerRun.1 = before ++ event :: after →
        Gated writerContext.profile writerContext.task.constraints
          writerBindings before event.op :=
  ⟨by decide +kernel,
    native_tools_are_gated true "key" "model" writerBindings (.knowing [])
      writerContext false false true writerRun.1 (.done writerRun.2)
      (Program.runs_scripted_pair writeThenRead _)⟩

end ArnCore.Agent.RuntimePermission
