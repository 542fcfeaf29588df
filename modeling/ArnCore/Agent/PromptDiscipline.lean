import ArnCore.Agent.ExposedTools

/-!
# The discipline of a prompt

What a prompt of the runtime does between two shared-memory operations, for
every provider, every native tool and every handler.  Native tools and
continued turns are entered only directly after the flag was read and found
unset, and a prompt is left by an exception only when something threw.
-/

namespace ArnCore.Agent.PromptDiscipline

open ArnCore.Interaction
open ArnCore.Provider
open ArnCore.Tool
open ArnCore.Agent.Environment
open ArnCore.Agent.ExposedTools

/-! ## Throwing and checking -/

/-- A native tool that may be left by an exception. -/
def MayThrow : NativeRun → Prop
  | .done (.ok _) => False
  | .done (.error _) => True
  | .call _ next => ∃ answer, MayThrow (next answer)

/--
The environment threw, or a native tool was entered that may throw.  The event
does not show which branch the tool takes, so a tool with a branch that throws
counts even where that branch is not taken.
-/
def Throws : AgentEvent → Prop
  | ⟨.modelCapabilities _, .error _⟩ => True
  | ⟨.startTurn _, .error _⟩ => True
  | ⟨.continueTurn _, .error _⟩ => True
  | ⟨.trimHistory _, .error _⟩ => True
  | ⟨.cancelProvider, .error _⟩ => True
  | ⟨.resetProvider, .error _⟩ => True
  | ⟨.onText _, .error _⟩ => True
  | ⟨.onProgress _, .error _⟩ => True
  | ⟨.confirm _, .error _⟩ => True
  | ⟨.executeTool _ _, .error _⟩ => True
  | ⟨.enterTool _ _, run⟩ => MayThrow run
  | _ => False

/-- The flag of the run was read and found unset. -/
def IsClearCheck : AgentEvent → Prop
  | ⟨.load .cancelled, false⟩ => True
  | _ => False

/-- The calls that are guarded by a check of the flag. -/
def IsGuarded : AgentOp → Prop
  | .continueTurn _ => True
  | .enterTool _ _ => True
  | _ => False

/-- The operations of a prompt. -/
def InPrompt : AgentOp → Prop
  | .load .cancelled => True
  | .lock .session => True
  | .unlock .session => True
  | .publish .activeProvider => True
  | .clear .activeProvider => True
  | .trimHistory _ => True
  | .startTurn _ => True
  | .continueTurn _ => True
  | .onProgress _ => True
  | .confirm _ => True
  | .enterTool _ _ => True
  | _ => False

/-- What is remembered of a prompt: the last event, and whether one threw. -/
structure Watch where
  clear : Prop
  threw : Prop

def watch (seen : Watch) (event : AgentEvent) : Watch where
  clear := IsClearCheck event
  threw := seen.threw ∨ Throws event

/-- What a prompt may do. -/
def Checked (seen : Watch) (op : AgentOp) : Prop :=
  InPrompt op ∧ (IsGuarded op → seen.clear)

/-- An exception is owed to the environment. -/
def Owed {Value : Type} (outcome : Except Exception Value)
    (seen : Watch) : Prop :=
  ∀ failure, outcome = .error failure → seen.threw

variable {Locals Value Result : Type}

/-- An action that keeps the discipline from any point on. -/
def Disciplined (action : Action agents Locals Value) : Prop :=
  ∀ locals seen,
    Action.Holds (monitored watch) Checked
      (fun outcome _ after => Owed outcome after) action locals seen

namespace Disciplined

protected theorem pure (value : Value) :
    Disciplined (pure value : Action agents Locals Value) := by
  rintro locals seen failure ⟨⟩

protected theorem modify (update : Locals → Locals) :
    Disciplined (modify update : Action agents Locals PUnit) := by
  rintro locals seen failure ⟨⟩

protected theorem bind
    {action : Action agents Locals Value}
    {continuation : Value → Action agents Locals Result}
    (first : Disciplined action)
    (rest : ∀ value, Disciplined (continuation value)) :
    Disciplined (action >>= continuation) := by
  intro locals seen
  apply Action.holds_bind.mpr
  apply (first locals seen).imp
  rintro (failure | value) after reached owed
  · rintro other same
    exact owed failure rfl
  · exact rest value after reached

/-- An operation that cannot throw and is not guarded. -/
protected theorem always (op : AgentOp) (inPrompt : InPrompt op)
    (unguarded : ¬ IsGuarded op) :
    Disciplined
      (Action.ofHost (always op) : Action agents Locals (agents.Answer op)) := by
  intro locals seen
  apply holds_always.mpr
  refine ⟨⟨inPrompt, fun guarded => absurd guarded unguarded⟩, ?_⟩
  rintro answer after performed failure ⟨⟩

/-- Whatever happens later, an exception has been thrown. -/
theorem after_throw
    {action : Action agents Locals Value} {locals : Locals} {seen : Watch}
    (runs : Disciplined action) (threw : seen.threw) :
    Action.Holds (monitored watch) Checked
      (fun _ _ after => after.threw) action locals seen := by
  have later : ∀ (before : Watch) event,
      before.threw → (watch before event).threw :=
    fun _ _ earlier => Or.inl earlier
  exact ((runs locals seen).preserves later threw).imp
    fun _ _ _ ends => ends.2

protected theorem scopeGuard
    {body : Action agents Locals Value} {release : Action agents Locals Unit}
    (runs : Disciplined body) (releases : Disciplined release) :
    Disciplined (Action.scopeGuard body release) := by
  intro locals seen
  apply Action.holds_scopeGuard.mpr
  apply (runs locals seen).imp
  rintro (failure | value) after reached owed
  · apply (releases.after_throw (owed failure rfl)).imp
    rintro released last final threw other same
    exact threw
  · apply (releases after reached).imp
    rintro released last final _ failure ⟨⟩

end Disciplined

/-! ## Calls of native tools -/

theorem isSet_disciplined :
    Disciplined
      (isSet (some (flag .cancelled).load) : Action agents Locals Bool) :=
  .always (.load .cancelled) trivial nofun

/-- Continuing right after a check: the flag was found unset, or is set. -/
theorem disciplined_check
    {continuation : Bool → Action agents Locals Result}
    {locals : Locals} {seen : Watch}
    (stopped : Disciplined (continuation true))
    (clear : ∀ seen : Watch, seen.clear →
      Action.Holds (monitored watch) Checked
        (fun outcome _ after => Owed outcome after)
        (continuation false) locals seen) :
    Action.Holds (monitored watch) Checked
      (fun outcome _ after => Owed outcome after)
      (isSet (some (flag .cancelled).load) >>= continuation) locals seen := by
  apply Action.holds_bind.mpr
  apply holds_isSet_flag.mpr
  refine ⟨⟨trivial, nofun⟩, ?_⟩
  rintro (_ | _) after rfl
  · exact clear _ trivial
  · exact stopped locals _

theorem confirm_disciplined (request : ConfirmationRequest) :
    Disciplined
      (Action.ofHost (ask (AgentOp.confirm request)) :
        Action agents Locals Bool) := by
  intro locals seen
  refine ⟨⟨trivial, nofun⟩, ?_⟩
  rintro (failure | approved) after rfl
  · rintro other same
    exact Or.inr trivial
  · rintro failure ⟨⟩

theorem confirmHandler_disciplined
    (attached : Bool) (request : ConfirmationRequest)
    (confirm : ConfirmationRequest → Action agents PermissionOutcome Bool)
    (handler :
      AgentRuntime.confirmHandler (hostHandler attached) = some confirm) :
    Disciplined (confirm request) := by
  cases handler
  cases attached with
  | false => exact .bind (.modify _) fun _ => .pure false
  | true =>
      apply Disciplined.bind (confirm_disciplined request)
      intro approved
      exact .bind (.modify _) fun _ => .pure approved

/-- A native tool throws only when it was allowed to. -/
theorem runNative_disciplined (attached : Bool) (run : NativeRun)
    {locals : PermissionOutcome} {seen : Watch}
    (threw : MayThrow run → seen.threw) :
    Action.Holds (monitored watch) Checked
      (fun outcome _ after => Owed outcome after)
      (runNative (callContext attached) run) locals seen := by
  induction run generalizing locals seen with
  | done outcome =>
      cases outcome with
      | ok result => rintro failure ⟨⟩
      | error failure => exact fun _ _ => threw trivial
  | call op next induction =>
      cases op with
      | confirm request =>
          have asked := confirmHandler_disciplined attached request _ rfl
          by_cases may : ∃ approved, MayThrow (next (some approved))
          · have earlier : seen.threw := by
              obtain ⟨approved, throws⟩ := may
              exact threw ⟨some approved, throws⟩
            apply Action.holds_bind.mpr
            apply (asked.after_throw earlier).imp
            rintro (failure | approved) after reached later
            · exact fun _ _ => later
            · exact induction (some approved) fun _ => later
          · apply Action.holds_bind.mpr
            apply (asked locals seen).imp
            rintro (failure | approved) after reached owed
            · exact fun _ _ => owed failure rfl
            · exact induction (some approved)
                fun throws => absurd ⟨approved, throws⟩ may
      | cancelRequested =>
          apply Action.holds_bind.mpr
          apply holds_isSet_flag.mpr
          refine ⟨⟨trivial, nofun⟩, ?_⟩
          rintro stop after rfl
          apply induction
          intro may
          exact Or.inl (threw ⟨stop, may⟩)

theorem nativeTool_disciplined
    {definition : ToolDefinition} {confirms attached : Bool}
    {arguments : Json} {locals : PermissionOutcome} {seen : Watch}
    (clear : seen.clear) :
    Action.Holds (monitored watch) Checked
      (fun outcome _ after => Owed outcome after)
      ((nativeTool definition confirms).execute arguments
        (callContext attached)) locals seen := by
  apply Action.holds_bind.mpr
  apply holds_always.mpr
  refine ⟨⟨trivial, fun _ => clear⟩, ?_⟩
  rintro run entered rfl
  exact runNative_disciplined attached run fun may => Or.inr may

/-- The last check before a native tool is entered. -/
theorem enter_disciplined
    {definition : ToolDefinition} {confirms attached : Bool}
    {arguments : Json} :
    Disciplined
      (do
        let stop ← isSet (callContext attached).cancelRequested
        if stop then
          pure (.failure "Request cancelled.")
        else
          (nativeTool definition confirms).execute arguments
            (callContext attached)) := by
  intro locals seen
  apply disciplined_check
  · exact .pure _
  · exact fun _ clear => nativeTool_disciplined clear

theorem permissionTool_disciplined
    {definition : ToolDefinition} {confirms ask mutates attached : Bool}
    {arguments : Json} :
    Disciplined
      ((permissionTool (nativeTool definition confirms) ask mutates).execute
        arguments (callContext attached)) := by
  intro locals seen
  apply disciplined_check
  · exact .pure _
  · intro seen _
    refine Disciplined.bind ?_ ?_ locals seen
    · split_ifs
      · exact confirmHandler_disciplined attached _ _ rfl
      · exact .pure true
    · rintro (_ | _)
      · exact .pure _
      · exact enter_disciplined

/-- A registry of native tools behind the permission adapter. -/
def OfNativeTools (registry : ToolRegistry agents PermissionOutcome) : Prop :=
  ∀ name tool, registry.findTool name = some tool →
    ∃ definition confirms ask mutates,
      tool = permissionTool (nativeTool definition confirms) ask mutates

/-- Whatever a runtime exposes are native tools behind the adapter. -/
theorem ofNativeTools_exposed
    {profile : AgentProfile} {constraints : TaskConstraints}
    {hasProvider : Bool} {apiKey model : String}
    {bindings : List NativeBinding}
    {registry : ToolRegistry agents PermissionOutcome}
    (exposed : exposeTools profile constraints
      (anyRuntime hasProvider apiKey model bindings).tools [] {} =
        some registry) :
    OfNativeTools registry := by
  intro name tool found
  rcases (exposeTools_spec exposed).2.tools name tool found with
    ⟨_, _, definition, confirms, _, _, _, ask, mutates, same, _⟩
  exact ⟨definition, confirms, ask, mutates, same⟩

theorem execute_disciplined
    {registry : ToolRegistry agents PermissionOutcome}
    (native : OfNativeTools registry) (attached : Bool)
    (name : String) (arguments : Json) :
    Disciplined (registry.execute name arguments (callContext attached)) := by
  unfold ToolRegistry.execute
  cases found : registry.findTool name with
  | none => exact .pure _
  | some tool =>
      rcases native name tool found with
        ⟨definition, confirms, ask, mutates, rfl⟩
      exact permissionTool_disciplined

/-! ## The session -/

section Session

variable {registry : ToolRegistry agents PermissionOutcome}
  {session : AgentSession agents PermissionOutcome}
  {attached text progress : Bool}

theorem notify_disciplined (message : String) :
    Disciplined
      (notify (hostProgress progress) message : Action agents Locals Unit) := by
  cases progress with
  | false => exact .pure ()
  | true =>
      intro locals seen
      refine ⟨⟨trivial, nofun⟩, ?_⟩
      rintro (failure | ⟨⟩) after rfl
      · exact fun _ _ => Or.inr trivial
      · rintro failure ⟨⟩

theorem runCalls_disciplined
    (handler : session.confirmHandler =
      AgentRuntime.confirmHandler (hostHandler attached))
    (native : OfNativeTools registry) (calls : List ToolCall) :
    ∀ responses, Disciplined
      (AgentSession.runCalls session registry (hostCallbacks text progress)
        (some (flag .cancelled).load) calls responses) := by
  induction calls with
  | nil => exact fun responses => .pure _
  | cons call calls induction =>
      intro responses
      apply Disciplined.bind isSet_disciplined
      rintro (_ | _)
      · apply Disciplined.bind (notify_disciplined _)
        intro notified
        apply Disciplined.bind
        · rw [handler]
          exact execute_disciplined native attached call.name call.arguments
        · exact fun execution => induction _
      · exact .pure _

theorem startTurn_disciplined (request : StartTurn) :
    Disciplined
      (Action.ofHost (ask (AgentOp.startTurn request)) :
        Action agents Locals ModelTurn) := by
  intro locals seen
  refine ⟨⟨trivial, nofun⟩, ?_⟩
  rintro (failure | turn) after rfl
  · exact fun _ _ => Or.inr trivial
  · rintro failure ⟨⟩

theorem continueTurn_holds {request : ContinueTurn} {locals : Locals}
    {seen : Watch} (clear : seen.clear) :
    Action.Holds (monitored watch) Checked
      (fun outcome _ after => Owed outcome after)
      (Action.ofHost (ask (AgentOp.continueTurn request)) :
        Action agents Locals ModelTurn) locals seen := by
  refine ⟨⟨trivial, fun _ => clear⟩, ?_⟩
  rintro (failure | turn) after rfl
  · exact fun _ _ => Or.inr trivial
  · rintro failure ⟨⟩

theorem turnLoop_disciplined
    (handler : session.confirmHandler =
      AgentRuntime.confirmHandler (hostHandler attached))
    (native : OfNativeTools registry) (round : Int) :
    ∀ turn, Disciplined
      (AgentSession.turnLoop session anyProvider registry
        (hostCallbacks text progress) (some (flag .cancelled).load)
        round turn) := by
  -- The rounds that are left decrease with every iteration.
  induction left : (session.config.maxToolRounds - round).toNat
    using Nat.strongRecOn generalizing round with
  | ind left induction =>
      intro turn
      unfold AgentSession.turnLoop
      by_cases final : turn.toolCalls = []
      · rw [if_pos final]
        exact .pure _
      · rw [if_neg final]
        by_cases exhausted : round + 1 > session.config.maxToolRounds
        · rw [if_pos exhausted]
          exact .pure _
        · rw [if_neg exhausted]
          apply Disciplined.bind
            (runCalls_disciplined handler native turn.toolCalls [])
          rintro (_ | responses)
          · exact .pure _
          · intro locals seen
            apply disciplined_check
            · exact .pure _
            · intro seen clear
              apply Action.holds_bind.mpr
              apply (continueTurn_holds clear).imp
              rintro (failure | next) after reached owed
              · exact fun _ _ => owed failure rfl
              · refine Disciplined.bind isSet_disciplined ?_ after reached
                rintro (_ | _)
                · by_cases ok : next.ok = true
                  · simp only [Bool.false_eq_true, if_false, ok, if_true]
                    apply induction _ _ (round + 1) rfl
                    omega
                  · simp only [Bool.false_eq_true, if_false, ok]
                    exact .pure _
                · exact .pure _

theorem runTurns_disciplined
    (handler : session.confirmHandler =
      AgentRuntime.confirmHandler (hostHandler attached))
    (native : OfNativeTools registry) (input : String) :
    Disciplined
      (AgentSession.runTurns session anyProvider registry
        (hostCallbacks text progress) (some (flag .cancelled).load)
        input) := by
  apply Disciplined.bind (startTurn_disciplined _)
  intro turn
  apply Disciplined.bind isSet_disciplined
  rintro (_ | _)
  · by_cases ok : turn.ok = true
    · simp only [Bool.false_eq_true, if_false, ok, if_true]
      exact turnLoop_disciplined handler native 0 turn
    · simp only [Bool.false_eq_true, if_false, ok]
      exact .pure _
  · exact .pure _

theorem prompt_disciplined
    {apiKey model : String} {bindings : List NativeBinding}
    (native : OfNativeTools registry) (config : AgentConfig)
    (input : String) :
    Disciplined
      ((promptedSession apiKey model bindings attached config registry).prompt
        (hostCallbacks text progress) (some (flag .cancelled).load)
        input) := by
  apply Disciplined.bind (.always (.lock .session) trivial nofun)
  intro locked
  apply Disciplined.scopeGuard _ (.always (.unlock .session) trivial nofun)
  show Disciplined (if apiKey = "" then _ else if model = "" then _ else _)
  split_ifs
  · exact .pure _
  · exact .pure _
  · apply Disciplined.bind isSet_disciplined
    rintro (_ | _)
    · apply Disciplined.bind
      · intro locals seen
        refine ⟨⟨trivial, nofun⟩, ?_⟩
        rintro (failure | ⟨⟩) after rfl
        · exact fun _ _ => Or.inr trivial
        · rintro failure ⟨⟩
      · intro trimmed
        apply Disciplined.bind
          (.always (.publish .activeProvider) trivial nofun)
        intro published
        apply Disciplined.scopeGuard _
          (.always (.clear .activeProvider) trivial nofun)
        exact runTurns_disciplined rfl native input
    · exact .pure _

end Session

end ArnCore.Agent.PromptDiscipline
