import ArnCore.Agent.ExecutionSafety

/-!
# The step budget of an execution

An observer counts the turns of an execution and those of them whose calls
were executed.  The session counts its rounds in an `int`; for a budget that
is accepted that counter never leaves the range of the type.
-/

namespace ArnCore.Agent.StepBudget

open ArnCore.Collections
open ArnCore.Interaction
open ArnCore.Provider
open ArnCore.Tool
open ArnCore.Agent.Environment
open ArnCore.Agent.ExecutionCourse
open ArnCore.Agent.ExecutionSafety
open ArnCore.Agent.ExposedTools
open ArnCore.Agent.RuntimeOutline
open ArnCore.Agent.RuntimeProtocol
open ArnCore.Agent.TracedSession

/-! ## The observer -/

/-- The turns, those whose calls were executed, and whether the last one is. -/
structure Steps where
  turns : Nat := 0
  rounds : Nat := 0
  serving : Bool := false
deriving DecidableEq

/--
A call is executed from its announcement on; it may ask the user, and it enters
its tool.
-/
def ServesCall : AgentOp → Prop
  | .onProgress _ => True
  | .confirm _ => True
  | .enterTool _ _ => True
  | _ => False

/-- An operation of a call: the first one of a round counts. -/
def Steps.served (steps : Steps) : Steps where
  turns := steps.turns
  rounds := if steps.serving then steps.rounds else steps.rounds + 1
  serving := true

def Steps.after (steps : Steps) : AgentOp → Steps
  | .startTurn _ => { turns := steps.turns + 1, rounds := steps.rounds }
  | .continueTurn _ => { turns := steps.turns + 1, rounds := steps.rounds }
  | .onProgress _ => steps.served
  | .confirm _ => steps.served
  | .enterTool _ _ => steps.served
  | _ => steps

def observe (steps : Steps) (event : AgentEvent) : Steps :=
  steps.after event.op

/-- The steps of a history. -/
def taken (history : List AgentEvent) : Steps :=
  history.foldl observe {}

/-- The budget is kept. -/
structure Within (budget : Nat) (steps : Steps) : Prop where
  turns : steps.turns ≤ budget
  rounds : steps.rounds ≤ budget - 1

/-- An operation that keeps the budget. -/
def Keeps (budget : Nat) (steps : Steps) (op : AgentOp) : Prop :=
  Within budget (steps.after op)

/-- The calls of the `n`-th turn may be executed. -/
structure Serving (n : Nat) (steps : Steps) : Prop where
  turns : steps.turns = n
  rounds : steps.rounds + (if steps.serving then 0 else 1) ≤ n

/-- None of the calls of the `n`-th turn was executed. -/
structure Looping (n : Nat) (steps : Steps) : Prop where
  turns : steps.turns = n
  rounds : steps.rounds + 1 ≤ n
  waiting : steps.serving = false

theorem Looping.starts
    {n : Nat} {steps : Steps} (looping : Looping n steps) :
    Serving n steps where
  turns := looping.turns
  rounds := by
    rw [looping.waiting]
    exact looping.rounds

theorem Serving.within
    {n budget : Nat} {steps : Steps} (serving : Serving n steps)
    (less : n < budget) : Within budget steps where
  turns := by rw [serving.turns]; omega
  rounds := by
    have bound := serving.rounds
    split_ifs at bound <;> omega

theorem Looping.within
    {n budget : Nat} {steps : Steps} (looping : Looping n steps)
    (less : n ≤ budget) : Within budget steps where
  turns := by rw [looping.turns]; exact less
  rounds := by
    have bound := looping.rounds
    omega

/-- Executing a call of the turn. -/
theorem Serving.served
    {n : Nat} {steps : Steps} (serving : Serving n steps) :
    Serving n steps.served where
  turns := serving.turns
  rounds := by
    have bound := serving.rounds
    cases served : steps.serving with
    | false => simpa [Steps.served, served] using bound
    | true => simpa [Steps.served, served] using bound

/-- The next turn. -/
theorem Serving.turned
    {n : Nat} {steps : Steps} (serving : Serving n steps) :
    Looping (n + 1)
      { turns := steps.turns + 1, rounds := steps.rounds } where
  turns := by rw [serving.turns]
  rounds := by
    show steps.rounds + 1 ≤ n + 1
    have bound := serving.rounds
    split_ifs at bound <;> omega
  waiting := rfl

/-! ## The calls of one turn -/

/-- What the execution of a call does. -/
def InCall (op : AgentOp) : Prop :=
  op = .load .cancelled ∨ ServesCall op

theorem Serving.after
    {n : Nat} {steps : Steps} {op : AgentOp} (serving : Serving n steps)
    (inCall : InCall op) : Serving n (steps.after op) := by
  rcases inCall with rfl | serves
  · exact serving
  · cases op with
    | onProgress message => exact serving.served
    | confirm request => exact serving.served
    | enterTool name arguments => exact serving.served
    | _ => exact serves.elim

section Calls

variable {State : Type} {world : World agents State}
  {apiKey model : String} {config : AgentConfig}
  {exposed : List (String × ExposedTool)} {text progress attached : Bool}

theorem check_inCall {Locals : Type} :
    Action.Safe world (fun _ => InCall)
      (isSet (callerFlag true) : Action agents Locals Bool) :=
  always_safe (.load .cancelled) fun _ => Or.inl rfl

theorem handler_inCall
    {confirm : ConfirmationRequest → Action agents PermissionOutcome Bool}
    (handler : AgentRuntime.confirmHandler (hostHandler attached) =
      some confirm)
    (request : ConfirmationRequest) :
    Action.Safe world (fun _ => InCall) (confirm request) := by
  cases handler
  cases attached with
  | false => exact .bind (.modify _) fun _ => .pure false
  | true =>
      refine .bind (.ofHost fun _ => ⟨Or.inr trivial, fun _ _ _ => trivial⟩)
        fun approved => .bind (.modify _) fun _ => .pure approved

theorem runNative_inCall (run : NativeRun) :
    Action.Safe world (fun _ => InCall)
      (runNative
        ⟨callerFlag true, AgentRuntime.confirmHandler (hostHandler attached)⟩
        run) := by
  induction run with
  | done outcome =>
      cases outcome with
      | ok result => exact .pure result
      | error failure => exact .throw failure
  | call op next induction =>
      cases op with
      | confirm request =>
          exact .bind (handler_inCall rfl request)
            fun approved => induction (some approved)
      | cancelRequested => exact .bind check_inCall fun stop => induction stop

theorem tool_inCall (shown : ExposedTool) (arguments : Json) :
    Action.Safe world (fun _ => InCall)
      ((shown.tool PermissionOutcome).execute arguments
        ⟨callerFlag true,
          AgentRuntime.confirmHandler (hostHandler attached)⟩) := by
  apply Action.Safe.bind check_inCall
  intro stop
  split
  · exact .pure _
  · apply Action.Safe.bind
    · split
      · exact handler_inCall rfl _
      · exact .pure true
    · intro approved
      split
      · apply Action.Safe.bind check_inCall
        intro stop
        split
        · exact .pure _
        · apply Action.Safe.bind
          · exact always_safe (.enterTool _ _) fun _ => Or.inr trivial
          · exact runNative_inCall
      · exact .pure _

/-- Running the calls of a turn executes them and checks the flag. -/
theorem runCalls_inCall (calls : List ToolCall) :
    ∀ responses, Action.Safe world (fun _ => InCall)
      (AgentSession.runCalls
        (sessionOf PermissionOutcome apiKey model config exposed
          (AgentRuntime.confirmHandler (hostHandler attached)))
        (registryOf PermissionOutcome exposed) (hostCallbacks text progress)
        (callerFlag true) calls responses) := by
  induction calls with
  | nil => exact fun responses => .pure _
  | cons call calls induction =>
      intro responses
      apply Action.Safe.bind check_inCall
      intro stop
      split_ifs
      · exact .pure none
      · apply Action.Safe.bind
        · cases progress with
          | false => exact .pure ()
          | true =>
              exact .ofHost fun _ => ⟨Or.inr trivial, fun _ _ _ => trivial⟩
        · intro announced
          refine Action.Safe.bind ?_ fun execution => induction _
          unfold ToolRegistry.execute
          rw [findTool_registryOf]
          cases OrderedMap.find? call.name exposed with
          | none => exact .pure _
          | some shown => exact tool_inCall shown call.arguments

end Calls

/-! ## The prompt -/

section Prompt

variable {apiKey model : String} {config : AgentConfig}
  {exposed : List (String × ExposedTool)} {text progress attached : Bool}
  {budget : Nat}

/-- An operation between the turns that the observer does not notice. -/
theorem leads_unnoticed
    {Locals Value : Type} {before : Steps → Prop} {kind : AgentOp → Prop}
    {action : Action agents Locals Value}
    (safe : Action.Safe (monitored observe) (fun _ => kind) action)
    (keeps : ∀ steps, before steps → Within budget steps)
    (unnoticed : ∀ op, kind op → ∀ steps : Steps, steps.after op = steps) :
    Action.Leads observe (Keeps budget) before before action := by
  refine .of_safe safe ?_ ?_
  · intro steps op kind start
    show Within budget (steps.after op)
    rw [unnoticed op kind]
    exact keeps steps start
  · intro steps event kind start
    rw [observe, unnoticed event.op kind]
    exact start

/-- Whatever the calls of a turn do keeps the budget. -/
theorem leads_inCall
    {Locals Value : Type} {n : Nat} {action : Action agents Locals Value}
    (less : n < budget)
    (safe : Action.Safe (monitored observe) (fun _ => InCall) action) :
    Action.Leads observe (Keeps budget) (Serving n) (Serving n) action :=
  .of_safe safe
    (fun _ _ inCall serving => (serving.after inCall).within less)
    fun _ _ inCall serving => serving.after inCall

theorem leads_always
    {Locals : Type} {before : Steps → Prop} (op : AgentOp)
    (keeps : ∀ steps, before steps → Within budget steps)
    (unnoticed : ∀ steps : Steps, steps.after op = steps) :
    Action.Leads observe (Keeps budget) before before
      (Action.ofHost (always op) :
        Action agents Locals (agents.Answer op)) := by
  apply leads_unnoticed (always_safe op fun _ => rfl) keeps
  rintro other rfl
  exact unnoticed

theorem leads_check
    {Locals : Type} {before : Steps → Prop}
    (keeps : ∀ steps, before steps → Within budget steps) :
    Action.Leads observe (Keeps budget) before before
      (isSet (callerFlag true) : Action agents Locals Bool) :=
  leads_always (.load .cancelled) keeps fun _ => rfl

variable (fits : config.maxToolRounds + 1 = budget)

include fits

theorem turnLoop_leads (n : Nat) (round : Int) (counted : round + 1 = n)
    (within : n ≤ budget) :
    ∀ turn, Action.Leads observe (Keeps budget) (Looping n) (Within budget)
      (AgentSession.turnLoop
        (sessionOf PermissionOutcome apiKey model config exposed
          (AgentRuntime.confirmHandler (hostHandler attached)))
        anyProvider (registryOf PermissionOutcome exposed)
        (hostCallbacks text progress) (callerFlag true) round turn) := by
  -- The rounds that are left decrease with every iteration.
  induction left : (config.maxToolRounds - round).toNat
    using Nat.strongRecOn generalizing n round with
  | ind left induction =>
      intro turn
      have loops : ∀ steps, Looping n steps → Within budget steps :=
        fun steps looping => looping.within within
      rw [AgentSession.turnLoop]
      split
      · exact .pure loops _
      · split
        · exact .pure loops _
        · rename_i more
          have more : ¬ round + 1 > config.maxToolRounds := more
          have less : n < budget := by omega
          have serves : ∀ steps, Serving n steps → Within budget steps :=
            fun steps serving => serving.within less
          apply Action.Leads.bind
            ((leads_inCall less (runCalls_inCall turn.toolCalls [])).imp
              (fun _ looping => looping.starts) fun _ serving => serving)
            ?_ serves
          rintro (_ | responses)
          · exact .pure serves _
          · apply Action.Leads.bind (leads_inCall less check_inCall) ?_ serves
            intro stop
            split
            · exact .pure serves _
            · have turned : ∀ steps, Looping (n + 1) steps →
                  Within budget steps :=
                fun steps looping => looping.within less
              apply Action.Leads.bind ?_ ?_ turned
              · intro locals steps serving
                refine ⟨serving.turned.within less, ?_⟩
                rintro answer after rfl
                cases answer with
                | error failure => exact serving.turned
                | ok next => exact serving.turned
              · intro next
                apply Action.Leads.bind (leads_check turned) ?_ turned
                intro stop
                split
                · exact .pure turned _
                · split
                  · exact induction _ (by omega) (n + 1) (round + 1)
                      (by omega) less rfl next
                  · exact .pure turned _

theorem prompt_leads (pos : 0 < budget) (input : String) :
    Action.Leads observe (Keeps budget) (· = {}) (Within budget)
      ((sessionOf PermissionOutcome apiKey model config exposed
        (AgentRuntime.confirmHandler (hostHandler attached))).prompt
          (hostCallbacks text progress) (callerFlag true) input) := by
  have started : ∀ steps : Steps, steps = {} → Within budget steps := by
    rintro steps rfl
    exact ⟨Nat.zero_le _, Nat.zero_le _⟩
  have stays : ∀ steps, Within budget steps → Within budget steps :=
    fun _ within => within
  have turned : ∀ steps, Looping 1 steps → Within budget steps :=
    fun steps looping => looping.within pos
  apply Action.Leads.bind
    (leads_always (.lock .session) started fun _ => rfl) ?_ started
  intro locked
  refine .scopeGuard ?_
    (leads_always (.unlock .session) stays fun _ => rfl)
  show Action.Leads observe _ _ _
    (if apiKey = "" then _ else if model = "" then _ else _)
  split
  · exact .pure started _
  · split
    · exact .pure started _
    · apply Action.Leads.bind (leads_check started) ?_ started
      intro stop
      split
      · exact .pure started _
      · have trims : Action.Leads observe (Keeps budget) (· = {}) (· = {})
            (Action.ofHost (ask (AgentOp.trimHistory config.maxHistoryEntries)) :
              Action agents PermissionOutcome Unit) := by
          have safe : Action.Safe (monitored observe)
              (fun _ (op : AgentOp) => op = .trimHistory config.maxHistoryEntries)
              (Action.ofHost
                (ask (AgentOp.trimHistory config.maxHistoryEntries)) :
                Action agents PermissionOutcome Unit) :=
            .ofHost fun _ => ⟨rfl, fun _ _ _ => trivial⟩
          apply leads_unnoticed safe started
          rintro op rfl steps
          rfl
        apply Action.Leads.bind trims ?_ started
        intro trimmed
        apply Action.Leads.bind
          (leads_always (.publish .activeProvider) started fun _ => rfl) ?_
          started
        intro published
        refine .scopeGuard ?_
          (leads_always (.clear .activeProvider) stays fun _ => rfl)
        apply Action.Leads.bind ?_ ?_ turned
        · rintro locals steps rfl
          have first : Looping 1
              (Steps.after {} (.startTurn (
                { apiKey := apiKey
                  model := model
                  systemInstruction := config.systemInstruction
                  userPrompt := input
                  tools :=
                    (registryOf PermissionOutcome exposed).definitions }))) :=
            ⟨rfl, Nat.le_refl _, rfl⟩
          refine ⟨first.within pos, ?_⟩
          rintro answer after rfl
          cases answer with
          | error failure => exact first
          | ok turn => exact first
        · intro turn
          apply Action.Leads.bind (leads_check turned) ?_ turned
          intro stop
          split
          · exact .pure turned _
          · split
            · exact turnLoop_leads fits 1 0 rfl pos turn
            · exact .pure turned _

end Prompt

/-! ## The execution -/

theorem after_of_outside
    {op : AgentOp} (outside : Outside op) (steps : Steps) :
    steps.after op = steps := by
  cases op with
  | startTurn request => exact outside.elim
  | continueTurn request => exact outside.elim
  | onProgress message => exact outside.elim
  | confirm request => exact outside.elim
  | enterTool name arguments => exact outside.elim
  | _ => rfl

theorem unaffected (budget : Nat) :
    Unaffected observe (Keeps budget) (· = {}) (Within budget) where
  permits := by
    rintro steps op outside (rfl | within)
    · show Within budget (Steps.after {} op)
      rw [after_of_outside outside]
      exact ⟨Nat.zero_le _, Nat.zero_le _⟩
    · show Within budget (steps.after op)
      rw [after_of_outside outside]
      exact within
  keepsIdle := by
    rintro steps event outside rfl
    exact after_of_outside outside {}
  keepsDone := by
    intro steps event outside within
    rw [observe, after_of_outside outside]
    exact within
  ends := by
    rintro steps rfl
    exact ⟨Nat.zero_le _, Nat.zero_le _⟩

section Execution

variable {hasProvider : Bool} {apiKey model : String}
  {bindings : List NativeBinding} {json : JsonText} {context : AgentContext}
  {text progress attached : Bool}

theorem execute_leads :
    Action.Leads observe (Keeps (stepBudget context)) (· = {})
      (Within (stepBudget context))
      ((anyRuntime hasProvider apiKey model bindings).execute json context
        (hostCallbacks text progress) (hostHandler attached) :
        Action agents Unit AgentResult) := by
  apply (unaffected (stepBudget context)).execute
  intro accepted exposed input
  apply prompt_leads ?_ accepted.pos input
  show (stepBudget context : Int) - 1 + 1 = stepBudget context
  omega

/-- The budget is kept at every point of a run. -/
theorem within_of_runs
    {history : List AgentEvent}
    {rest : Program agents (Except Exception AgentResult × Unit)}
    (run : Program.Runs
      (((anyRuntime hasProvider apiKey model bindings).execute json context
        (hostCallbacks text progress) (hostHandler attached) :
        Action agents Unit AgentResult).run.run ()) history rest) :
    Within (stepBudget context) (taken history) := by
  have start : Within (stepBudget context) {} :=
    ⟨Nat.zero_le _, Nat.zero_le _⟩
  refine Program.Holds.always ?_ (execute_leads () {} rfl) run start
  intro steps event kept
  exact kept

/-! ## A budget that is refused -/

/-- The calls of the provider. -/
def Contacts : AgentOp → Prop
  | .modelCapabilities _ => True
  | .startTurn _ => True
  | .continueTurn _ => True
  | .trimHistory _ => True
  | .cancelProvider => True
  | .resetProvider => True
  | _ => False

/-- An execution that failed at the gate or at a check of its context. -/
def Refused (context : AgentContext)
    (outcome : Except Exception AgentResult) : Prop :=
  ∃ code message, outcome = .ok (failure code message) ∧
    code ∈ ["runtime_busy", "invalid_task", "invalid_profile",
      "invalid_budget"] ∧
    (context.task.valid = true → hasText context.profile.id = true →
      code ∈ ["runtime_busy", "invalid_budget"])

theorem executeContext_of_oversized
    (oversized : 2 ^ 31 - 1 < stepBudget context) :
    ∃ result : AgentResult, Refused context (.ok result) ∧
      ((anyRuntime hasProvider apiKey model bindings).executeContext json
        context (hostCallbacks text progress) (hostHandler attached) :
        Action agents Unit AgentResult) = pure result := by
  have steps : context.profile.maxSteps ≠ 0 := by
    rintro none
    rw [stepBudget, none, Nat.zero_min] at oversized
    omega
  unfold AgentRuntime.executeContext
  split
  · rename_i invalid
    rw [Bool.not_eq_true'] at invalid
    refine ⟨_, ⟨_, _, rfl, by simp, ?_⟩, rfl⟩
    intro valid
    rw [invalid] at valid
    cases valid
  · split_ifs with invalid
    · rw [Bool.or_eq_true, decide_eq_true_eq, Bool.not_eq_true'] at invalid
      refine ⟨_, ⟨_, _, rfl, by simp, ?_⟩, rfl⟩
      intro _ named
      rcases invalid with unnamed | none
      · rw [unnamed] at named
        cases named
      · exact absurd none steps
    · exact ⟨_, ⟨_, _, rfl, by simp, fun _ _ => by simp⟩, rfl⟩

/-- An oversized budget is refused before the provider is called. -/
theorem refused_of_oversized
    {history : List AgentEvent}
    {rest : Program agents (Except Exception AgentResult × Unit)}
    (oversized : 2 ^ 31 - 1 < stepBudget context)
    (run : Program.Runs
      (((anyRuntime hasProvider apiKey model bindings).execute json context
        (hostCallbacks text progress) (hostHandler attached) :
        Action agents Unit AgentResult).run.run ()) history rest) :
    (∀ event ∈ history, ¬ Contacts event.op) ∧
      ∀ outcome locals, rest = .done (outcome, locals) →
        Refused context outcome := by
  have ends : Action.Holds (monitored fun (_ : Unit) _ => ())
      (fun _ op => ¬ Contacts op) (fun outcome _ _ => Refused context outcome)
      ((anyRuntime hasProvider apiKey model bindings).execute json context
        (hostCallbacks text progress) (hostHandler attached) :
        Action agents Unit AgentResult) () () := by
    apply Action.holds_bind.mpr
    apply (holds_op (.exchange .runtimeExecuting true)).mpr
    refine ⟨not_false, ?_⟩
    rintro (_ | _) after -
    · obtain ⟨result, refused, same⟩ :=
        @executeContext_of_oversized hasProvider apiKey model bindings json
          context text progress attached oversized
      show Action.Holds _ _ _ (Action.scopeGuard (tryCatch _ _) _) _ _
      rw [same]
      apply Action.holds_scopeGuard.mpr
      refine ⟨not_false, ?_⟩
      rintro released reached -
      exact refused
    · exact ⟨_, _, rfl, by simp, fun _ _ => by simp⟩
  obtain ⟨silent, returns⟩ := Program.Holds.runs ends run
  constructor
  · intro event member
    obtain ⟨before, after, split⟩ := List.append_of_mem member
    exact silent before event after split
  · rintro outcome locals rfl
    exact returns

end Execution

/-! ## The range of the counter -/

/-- `steps - 1` of a `std::size_t` -/
def predecessor (steps : Nat) : Nat :=
  (steps + (2 ^ 64 - 1)) % 2 ^ 64

/-- `static_cast<int>` -/
def castToInt (value : Nat) : Int :=
  Int.bmod value (2 ^ 32)

/-- `++round`; `none` where the result is no `int`. -/
def increment? (round : Int) : Option Int :=
  if round < 2 ^ 31 - 1 then some (round + 1) else none

theorem increment?_eq_some
    {round counted : Int} (exact : increment? round = some counted) :
    counted = round + 1 := by
  unfold increment? at exact
  split_ifs at exact
  cases exact
  rfl

section Counter

variable {signature : Signature} {Locals : Type}
  (session : AgentSession signature Locals)
  (provider : IModelProvider signature Locals)
  (registry : ToolRegistry signature Locals)
  (callbacks : StreamCallbacks signature)
  (cancel : CancelFlag signature)

/--
The loop over turns with a counter that is an `int`; `none` when the counter
would leave the range of the type.
-/
def countedLoop (round : Int) (turn : ModelTurn) :
    Action signature Locals (Option ApiResult) :=
  if turn.toolCalls = [] then
    pure (some { ok := true, message := turn.text })
  else
    match _incremented : increment? round with
    | none => pure none
    | some counted =>
        if counted > session.config.maxToolRounds then
          pure (some { message := "Stopped after too many tool calls." })
        else do
          let collected ← AgentSession.runCalls session registry callbacks
            cancel turn.toolCalls []
          match collected with
          | none => pure (some AgentSession.requestCancelled)
          | some responses => do
              let stop ← isSet cancel
              if stop then
                pure (some AgentSession.requestCancelled)
              else do
                let next ← provider.continueTurn session.apiKey
                  session.activeModel session.config.systemInstruction
                  responses registry callbacks cancel
                let stop ← isSet cancel
                if stop then
                  pure (some AgentSession.requestCancelled)
                else if next.ok then
                  countedLoop counted next
                else
                  pure (some (AgentSession.turnFailed next))
termination_by (session.config.maxToolRounds - round).toNat
decreasing_by
  have exact := increment?_eq_some _incremented
  omega

/-- Below the range of the type the counter is exact. -/
theorem countedLoop_eq
    (fits : session.config.maxToolRounds < 2 ^ 31 - 1) (round : Int)
    (within : round ≤ session.config.maxToolRounds) (turn : ModelTurn) :
    countedLoop session provider registry callbacks cancel round turn =
      some <$> AgentSession.turnLoop session provider registry callbacks
        cancel round turn := by
  -- The rounds that are left decrease with every iteration.
  induction left : (session.config.maxToolRounds - round).toNat
    using Nat.strongRecOn generalizing round turn with
  | ind left induction =>
      have incremented : increment? round = some (round + 1) := by
        rw [increment?, if_pos (by omega)]
      rw [countedLoop, AgentSession.turnLoop]
      split
      · rw [map_pure]
      · split
        · rename_i overflow
          rw [incremented] at overflow
          cases overflow
        · rename_i counted same
          rw [incremented, Option.some.injEq] at same
          subst same
          split
          · rw [map_pure]
          · rw [map_bind]
            congr 1
            funext collected
            cases collected with
            | none => exact (map_pure _ _).symm
            | some responses =>
                simp only [map_bind]
                congr 1
                funext stop
                split
                · exact (map_pure _ _).symm
                · rw [map_bind]
                  congr 1
                  funext next
                  rw [map_bind]
                  congr 1
                  funext stop
                  split
                  · exact (map_pure _ _).symm
                  · split
                    · exact induction _ (by omega) (round + 1) (by omega) next
                        rfl
                    · exact (map_pure _ _).symm

end Counter

/-- The conversion of an accepted budget is exact. -/
theorem castToInt_predecessor
    {context : AgentContext} (accepted : Accepted context) :
    castToInt (predecessor (stepBudget context)) =
      (sessionConfig context).maxToolRounds := by
  have pos := accepted.pos
  have bound := accepted.budget
  have exact : predecessor (stepBudget context) = stepBudget context - 1 := by
    unfold predecessor
    omega
  show Int.bmod (predecessor (stepBudget context) : Nat) (2 ^ 32) =
    (stepBudget context : Int) - 1
  rw [exact, Int.bmod_def]
  split_ifs <;> omega

/--
An execution makes at most as many turns as the profile and the task allow, and
executes the calls of all but one of them.  A budget that is no `int` is
refused before the provider is called; for any other budget the number of
rounds is converted exactly, and the counter of rounds stays in its range.
-/
theorem step_budget_kept
    {hasProvider : Bool} {apiKey model : String}
    {bindings : List NativeBinding} {json : JsonText} {context : AgentContext}
    {text progress attached : Bool} {history : List AgentEvent}
    {rest : Program agents (Except Exception AgentResult × Unit)}
    (run : Program.Runs
      (((anyRuntime hasProvider apiKey model bindings).execute json context
        (hostCallbacks text progress) (hostHandler attached) :
        Action agents Unit AgentResult).run.run ()) history rest) :
    (taken history).turns ≤
        min context.profile.maxSteps
          (context.task.constraints.maxSteps.getD context.profile.maxSteps) ∧
      (taken history).rounds ≤
        min context.profile.maxSteps
          (context.task.constraints.maxSteps.getD context.profile.maxSteps) -
          1 ∧
      (taken history).turns ≤ context.profile.maxSteps ∧
      (2 ^ 31 - 1 < stepBudget context →
        (∀ event ∈ history, ¬ Contacts event.op) ∧
          ∀ outcome locals, rest = .done (outcome, locals) →
            Refused context outcome) ∧
      (Accepted context →
        castToInt (predecessor (stepBudget context)) =
            (sessionConfig context).maxToolRounds ∧
          ∀ {signature : Signature} {Locals : Type}
            (session : AgentSession signature Locals),
            session.config = sessionConfig context →
            ∀ provider registry callbacks cancel turn,
              countedLoop session provider registry callbacks cancel 0 turn =
                some <$> AgentSession.turnLoop session provider registry
                  callbacks cancel 0 turn) := by
  have within := within_of_runs run
  refine ⟨within.turns, within.rounds,
    within.turns.trans (Nat.min_le_left _ _),
    fun oversized => refused_of_oversized oversized run, ?_⟩
  intro accepted
  refine ⟨castToInt_predecessor accepted, ?_⟩
  intro signature Locals session configured provider registry callbacks cancel
    turn
  have pos := accepted.pos
  have bound := accepted.budget
  have rounds : session.config.maxToolRounds = (stepBudget context : Int) - 1 :=
    by rw [configured]; rfl
  exact countedLoop_eq session provider registry callbacks cancel (by omega) 0
    (by omega) turn

/-! ## A provider that keeps asking -/

/-- Three turns of the profile, two of the task. -/
def cappedContext : AgentContext where
  profile :=
    { id := "coder"
      allowedTools := ["read_file"]
      permissions := (AgentPermissions.empty.setDecision .readFile .allow).2
      maxSteps := 3 }
  task :=
    { id := "t"
      objective := "Read it"
      workingDirectory := "/w"
      constraints := { maxSteps := some 2 } }

def readerBindings : List NativeBinding :=
  [{ tool :=
       some ({ name := "read_file", description := "", parameterSchema := .null },
         false)
     operations := [.readFile] }]

/-- A turn that asks for the tool. -/
def asks : ModelTurn where
  ok := true
  toolCalls := [{ id := "call_1", name := "read_file", arguments := .null }]

def keepsAsking : List AgentEvent → (op : AgentOp) → agents.Answer op
  | _, .startTurn _ => .ok asks
  | _, .continueTurn _ => .ok asks
  | _, op => quiet op

def cappedRun : List AgentEvent × (Except Exception AgentResult × Unit) :=
  Program.scripted keepsAsking
    (((anyRuntime true "key" "model" readerBindings).execute (.knowing [])
      cappedContext (hostCallbacks false false)
      (hostHandler false)).run.run ())
    []

/-- Two turns, of which the calls of one were executed. -/
theorem step_budget_kept_cappedRun :
    (taken cappedRun.1).turns ≤ 2 ∧ (taken cappedRun.1).rounds ≤ 1 := by
  have run : Program.Runs
      (((anyRuntime true "key" "model" readerBindings).execute (.knowing [])
        cappedContext (hostCallbacks false false)
        (hostHandler false)).run.run ()) cappedRun.1 (.done cappedRun.2) :=
    Program.runs_scripted_pair keepsAsking _
  have kept := step_budget_kept run
  exact ⟨kept.1, kept.2.1⟩

example : taken cappedRun.1 = { turns := 2, rounds := 1 } := by
  decide +kernel

end ArnCore.Agent.StepBudget
