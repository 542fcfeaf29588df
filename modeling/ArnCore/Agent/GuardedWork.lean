import ArnCore.Agent.StepBudget
import ArnCore.Interaction.Observers

/-!
# Work is guarded by the flag

A turn is started and a native tool is entered only after the flag of the
execution was read, and the last time it was read it was unset.
-/

namespace ArnCore.Agent.GuardedWork

open ArnCore.Interaction
open ArnCore.Provider
open ArnCore.Tool
open ArnCore.Agent.Environment
open ArnCore.Agent.ExecutionCourse
open ArnCore.Agent.ExecutionSafety
open ArnCore.Agent.ExposedTools
open ArnCore.Agent.PromptDiscipline
open ArnCore.Agent.RuntimeProtocol
open ArnCore.Agent.StepBudget
open ArnCore.Agent.TracedSession

/-- A new turn of the provider, or the call of a native tool. -/
def StartsWork : AgentOp → Prop
  | .startTurn _ => True
  | .continueTurn _ => True
  | .enterTool _ _ => True
  | _ => False

/-- What the flag was when it was last read. -/
def lastCheck (read : Option Bool) : AgentEvent → Option Bool
  | ⟨.load .cancelled, stop⟩ => some stop
  | _ => read

/-- Work is started where the flag was last read as unset. -/
def Guarded (read : Option Bool) (op : AgentOp) : Prop :=
  StartsWork op → read = some false

/-- Calls of tools are work, and those follow a check directly. -/
theorem guarded_of_disciplined
    {Value : Type} {action : Action agents PermissionOutcome Value}
    (inCall : Action.Safe (monitored lastCheck) (fun _ => InCall) action)
    (disciplined : Disciplined action) :
    Action.Safe (monitored lastCheck) Guarded action := by
  intro locals read
  have watched :=
    (inCall locals read).together (disciplined locals ⟨False, False⟩)
  let Related (seen : Option Bool × Watch) (other : Option Bool) : Prop :=
    other = seen.1 ∧ (seen.2.clear → other = some false)
  have start : Related (read, ⟨False, False⟩) read :=
    ⟨rfl, fun clear => clear.elim⟩
  refine (watched.simulates ?_ ?_ start).imp fun _ _ _ _ => trivial
  · rintro seen other op ⟨rfl, clear⟩ ⟨isCall, checked⟩ starts
    cases op with
    | enterTool name arguments => exact clear (checked.2 trivial)
    | startTurn request => exact absurd isCall (by simp [InCall, ServesCall])
    | continueTurn request =>
        exact absurd isCall (by simp [InCall, ServesCall])
    | _ => exact starts.elim
  · rintro seen other op answer ⟨rfl, _⟩ _
    refine ⟨rfl, fun checked => ?_⟩
    have check : IsClearCheck ⟨op, answer⟩ := checked
    cases op with
    | load name =>
        cases name with
        | cancelled =>
            cases answer with
            | false => rfl
            | true => exact check.elim
        | _ => exact check.elim
    | _ => exact check.elim

section Prompt

variable {apiKey model : String} {config : AgentConfig}
  {exposed : List (String × ExposedTool)} {text progress attached : Bool}

/-- A check that finds the flag unset, and what may be done after it. -/
theorem checked_guarded
    {Value : Type} {rest : Action agents PermissionOutcome Value}
    {stopped : Value} {locals : PermissionOutcome} {read : Option Bool}
    (continues : Action.Holds (monitored lastCheck) Guarded
      (fun _ _ _ => True) rest locals (some false)) :
    Action.Holds (monitored lastCheck) Guarded (fun _ _ _ => True)
      (do
        let stop ← isSet (callerFlag true)
        if stop then
          pure stopped
        else
          rest)
      locals read := by
  apply Action.holds_bind.mpr
  apply holds_isSet_flag.mpr
  refine ⟨fun starts => starts.elim, ?_⟩
  rintro (_ | _) after rfl
  · exact continues
  · trivial

/-- The calls of a turn enter their tools behind a check. -/
theorem runCalls_guarded
    (native : OfNativeTools (registryOf PermissionOutcome exposed))
    (calls : List ToolCall) (responses : List ToolResponse) :
    Action.Safe (monitored lastCheck) Guarded
      (AgentSession.runCalls
        (sessionOf PermissionOutcome apiKey model config exposed
          (AgentRuntime.confirmHandler (hostHandler attached)))
        (registryOf PermissionOutcome exposed) (hostCallbacks text progress)
        (callerFlag true) calls responses) :=
  guarded_of_disciplined (runCalls_inCall calls responses)
    (runCalls_disciplined rfl native calls responses)

theorem turnLoop_guarded
    (native : OfNativeTools (registryOf PermissionOutcome exposed))
    (round : Int) (turn : ModelTurn) :
    Action.Safe (monitored lastCheck) Guarded
      (AgentSession.turnLoop
        (sessionOf PermissionOutcome apiKey model config exposed
          (AgentRuntime.confirmHandler (hostHandler attached)))
        anyProvider (registryOf PermissionOutcome exposed)
        (hostCallbacks text progress) (callerFlag true) round turn) := by
  -- The rounds that are left decrease with every iteration.
  induction left : (config.maxToolRounds - round).toNat
    using Nat.strongRecOn generalizing round turn with
  | ind left induction =>
      rw [AgentSession.turnLoop]
      split
      · exact .pure _
      · split
        · exact .pure _
        · rename_i more
          have more : ¬ round + 1 > config.maxToolRounds := more
          apply Action.Safe.bind (runCalls_guarded native turn.toolCalls [])
          rintro (_ | responses)
          · exact .pure _
          · intro locals read
            apply checked_guarded
            apply Action.holds_bind.mpr
            refine ⟨fun _ => rfl, ?_⟩
            rintro (failure | next) after rfl
            · trivial
            · apply checked_guarded
              split
              · exact induction _ (by omega) (round + 1) next rfl _ _
              · trivial

/-- The first turn is started where the flag was read as unset. -/
theorem runTurns_guarded
    (native : OfNativeTools (registryOf PermissionOutcome exposed))
    (input : String) :
    Action.Leads lastCheck Guarded (· = some false) (fun _ => True)
      (AgentSession.runTurns
        (sessionOf PermissionOutcome apiKey model config exposed
          (AgentRuntime.confirmHandler (hostHandler attached)))
        anyProvider (registryOf PermissionOutcome exposed)
        (hostCallbacks text progress) (callerFlag true) input) := by
  rintro locals read rfl
  apply Action.holds_bind.mpr
  refine ⟨fun _ => rfl, ?_⟩
  rintro (failure | turn) after rfl
  · trivial
  · apply checked_guarded
    split
    · exact turnLoop_guarded native 0 turn _ _
    · trivial

theorem prompt_guarded
    (native : OfNativeTools (registryOf PermissionOutcome exposed))
    (input : String) :
    Action.Safe (monitored lastCheck) Guarded
      ((sessionOf PermissionOutcome apiKey model config exposed
        (AgentRuntime.confirmHandler (hostHandler attached))).prompt
          (hostCallbacks text progress) (callerFlag true) input) := by
  have silent : ∀ op : AgentOp, ¬ StartsWork op →
      Action.Safe (monitored lastCheck) Guarded
        (Action.ofHost (always op) :
          Action agents PermissionOutcome (agents.Answer op)) :=
    fun op workless => always_safe op fun _ starts => absurd starts workless
  apply Action.Safe.bind (silent (.lock .session) fun starts => starts)
  intro locked
  apply Action.Safe.scopeGuard ?_
    (silent (.unlock .session) fun starts => starts)
  show Action.Safe _ _ (if apiKey = "" then _ else if model = "" then _ else _)
  split
  · exact .pure _
  · split
    · exact .pure _
    · intro locals read
      apply checked_guarded
      -- Between this check and the first turn nothing reads the flag.
      have ends : ∀ read : Option Bool, read = some false → True :=
        fun _ _ => trivial
      refine Action.Leads.bind ?_ (fun trimmed => ?_) ends locals _ rfl
      · rintro locals read rfl
        refine ⟨fun starts => starts.elim, ?_⟩
        rintro (failure | ⟨⟩) after rfl <;> rfl
      · refine Action.Leads.bind ?_ (fun published => ?_) ends
        · rintro locals read rfl
          apply (holds_op (.publish .activeProvider)).mpr
          refine ⟨fun starts => starts.elim, ?_⟩
          rintro ⟨⟩ after rfl
          rfl
        · refine .scopeGuard (runTurns_guarded native input) ?_
          intro locals read _
          exact silent (.clear .activeProvider) (fun starts => starts) locals
            read

end Prompt

/-- An execution guards its work. -/
theorem execute_guarded
    {hasProvider : Bool} {apiKey model : String}
    {bindings : List NativeBinding} {json : JsonText} {context : AgentContext}
    {text progress attached : Bool} :
    Action.Safe (monitored lastCheck) Guarded
      ((anyRuntime hasProvider apiKey model bindings).execute json context
        (hostCallbacks text progress) (hostHandler attached) :
        Action agents Unit AgentResult) := by
  apply execute_safe
  · intro read op outside starts
    cases op with
    | startTurn request => exact outside.elim
    | continueTurn request => exact outside.elim
    | enterTool name arguments => exact outside.elim
    | _ => exact starts.elim
  · intro exposed input known _
    exact prompt_guarded (ofNativeTools_exposed known) input

end ArnCore.Agent.GuardedWork
