import ArnCore.Agent.StandardAgents

/-!
# The budget of a workflow

The turns of a call are booked on the stage they belong to.  Every stage keeps
the budget of its own profile, no profile has more stages than the call awaits,
and so the whole call keeps the sum of these budgets.
-/

namespace ArnCore.Agent.WorkflowBudget

open ArnCore.Interaction
open ArnCore.Provider
open ArnCore.Agent.ConductedStages
open ArnCore.Agent.Environment
open ArnCore.Agent.ExposedTools
open ArnCore.Agent.LockDiscipline
open ArnCore.Agent.OrchestratorProtocol
open ArnCore.Agent.SharedMemory
open ArnCore.Agent.StepBudget
open ArnCore.Agent.WorkflowProtocol
open ArnCore.Agent.WorkflowSteps

/-! ## The ledger -/

/-- All turns, and the steps of every stage, the newest stage first. -/
structure Ledger where
  turns : Nat := 0
  stages : List (AgentProfile × Steps) := []

/-- The turns an operation starts. -/
def turnsOf : AgentOp → Nat
  | .startTurn _ => 1
  | .continueTurn _ => 1
  | _ => 0

/-- The steps of the stage that is open. -/
def bookOn : List (AgentProfile × Steps) → AgentOp →
    List (AgentProfile × Steps)
  | stages, .createRuntime profile => (profile, {}) :: stages
  | [], _ => []
  | (profile, steps) :: earlier, op => (profile, steps.after op) :: earlier

def Ledger.book (ledger : Ledger) (event : AgentEvent) : Ledger where
  turns := ledger.turns + turnsOf event.op
  stages := bookOn ledger.stages event.op

/-- The ledger of a history. -/
def booked (history : List AgentEvent) : Ledger :=
  history.foldl Ledger.book {}

/-- The turns of a profile under the constraints of a task. -/
def budgetOf (constraints : TaskConstraints) (profile : AgentProfile) : Nat :=
  min profile.maxSteps (constraints.maxSteps.getD profile.maxSteps)

/--
The stages were awaited in this order, each keeps its budget, and every turn is
booked on one of them; the profiles of `rest` are still to come.
-/
structure Balanced (waited : List AgentProfile) (constraints : TaskConstraints)
    (rest : List AgentProfile) (ledger : Ledger) : Prop where
  order : ((ledger.stages.map Prod.fst).reverse ++ rest).Sublist waited
  within : ∀ entry ∈ ledger.stages,
    Within (budgetOf constraints entry.1) entry.2
  total : ledger.turns = (ledger.stages.map fun entry => entry.2.turns).sum

/-- What keeps the ledger balanced. -/
def Affords (waited : List AgentProfile) (constraints : TaskConstraints)
    (ledger : Ledger) (op : AgentOp) : Prop :=
  ∀ answer : agents.Answer op,
    Balanced waited constraints [] (ledger.book ⟨op, answer⟩)

section Booking

variable {waited rest : List AgentProfile} {constraints : TaskConstraints}
  {ledger : Ledger}

theorem Balanced.skips {profile : AgentProfile}
    (balanced : Balanced waited constraints (profile :: rest) ledger) :
    Balanced waited constraints rest ledger where
  order :=
    (((List.Sublist.refl rest).cons profile).append_left _).trans
      balanced.order
  within := balanced.within
  total := balanced.total

theorem Balanced.ends
    (balanced : Balanced waited constraints rest ledger) :
    Balanced waited constraints [] ledger := by
  induction rest with
  | nil => exact balanced
  | cons profile rest induction => exact induction balanced.skips

theorem after_of_coordinates
    {op : AgentOp} (own : Coordinates op) (steps : Steps) :
    steps.after op = steps := by
  cases op with
  | startTurn request => exact own.elim
  | continueTurn request => exact own.elim
  | onProgress message => exact own.elim
  | confirm request => exact own.elim
  | enterTool name arguments => exact own.elim
  | _ => rfl

/-- The orchestrator itself books nothing. -/
theorem book_of_coordinates
    {op : AgentOp} {answer : agents.Answer op} (own : Coordinates op) :
    ledger.book ⟨op, answer⟩ = ledger := by
  obtain ⟨turns, stages⟩ := ledger
  have free : turnsOf op = 0 := by
    cases op with
    | startTurn request => exact own.elim
    | continueTurn request => exact own.elim
    | _ => rfl
  have same : bookOn stages op = stages := by
    cases stages with
    | nil =>
        cases op with
        | createRuntime profile => exact own.elim
        | _ => rfl
    | cons entry earlier =>
        have kept := after_of_coordinates own entry.2
        cases op with
        | createRuntime profile => exact own.elim
        | _ => exact congrArg (fun steps => (entry.1, steps) :: earlier) kept
  rw [Ledger.book, free, same]
  rfl

/-- A new stage is booked with no steps. -/
theorem Balanced.creates
    {profile : AgentProfile}
    (balanced : Balanced waited constraints (profile :: rest) ledger)
    (answer : agents.Answer (.createRuntime profile)) :
    Balanced waited constraints rest
      (ledger.book ⟨.createRuntime profile, answer⟩) where
  order := by
    have order := balanced.order
    simpa [Ledger.book, bookOn] using order
  within := by
    have booked : (ledger.book ⟨.createRuntime profile, answer⟩).stages =
        (profile, {}) :: ledger.stages := by
      simp [Ledger.book, bookOn]
    rw [booked]
    intro entry member
    rcases List.mem_cons.mp member with rfl | earlier
    · exact ⟨Nat.zero_le _, Nat.zero_le _⟩
    · exact balanced.within entry earlier
  total := by
    have total := balanced.total
    simpa [Ledger.book, bookOn, turnsOf] using total

end Booking

/-! ## The execution of a stage -/

/-- The stage that is open has these steps, the others are settled. -/
def Opened (profile : AgentProfile) (steps : Steps)
    (earlier : List (AgentProfile × Steps)) (settled : Nat)
    (ledger : Ledger) : Prop :=
  ledger = { turns := settled + steps.turns
             stages := (profile, steps) :: earlier }

theorem Opened.book
    {profile : AgentProfile} {steps : Steps}
    {earlier : List (AgentProfile × Steps)} {settled : Nat} {ledger : Ledger}
    {op : AgentOp} {answer : agents.Answer op}
    (opened : Opened profile steps earlier settled ledger)
    (other : ∀ made, op ≠ .createRuntime made) :
    Opened profile (steps.after op) earlier settled
      (ledger.book ⟨op, answer⟩) := by
  subst opened
  cases op with
  | createRuntime made => exact absurd rfl (other made)
  | _ => rfl

/-- A stage that keeps its budget leaves the ledger balanced. -/
theorem Opened.balanced
    {waited rest : List AgentProfile} {constraints : TaskConstraints}
    {profile : AgentProfile} {start steps : Steps}
    {earlier : List (AgentProfile × Steps)} {settled : Nat}
    {before ledger : Ledger}
    (opened : Opened profile start earlier settled before)
    (balanced : Balanced waited constraints rest before)
    (now : Opened profile steps earlier settled ledger)
    (within : Within (budgetOf constraints profile) steps) :
    Balanced waited constraints rest ledger := by
  subst opened
  subst now
  refine ⟨balanced.order, ?_, ?_⟩
  · intro entry member
    rcases List.mem_cons.mp member with rfl | inEarlier
    · exact within
    · exact balanced.within entry (List.mem_cons_of_mem _ inEarlier)
  · have total := balanced.total
    simp only [List.map_cons, List.sum_cons] at total ⊢
    omega

section Execution

variable {waited rest : List AgentProfile} {constraints : TaskConstraints}
  {hasProvider : Bool} {apiKey model : String}
  {bindings : List NativeBinding} {json : JsonText} {context : AgentContext}
  {text progress attached : Bool}

/-- The turns of an execution are booked on the stage that is open. -/
theorem execution_leads
    (constrained : context.task.constraints = constraints) :
    Action.Leads Ledger.book (Affords waited constraints)
      (fun ledger => Balanced waited constraints rest ledger ∧
        ∃ earlier settled,
          Opened context.profile {} earlier settled ledger)
      (Balanced waited constraints rest)
      ((anyRuntime hasProvider apiKey model bindings).execute json context
        (hostCallbacks text progress) (hostHandler attached) :
        Action agents Unit AgentResult) := by
  rintro ⟨⟩ before ⟨balanced, earlier, settled, opened⟩
  have budget : stepBudget context = budgetOf constraints context.profile := by
    subst constrained
    rfl
  have protocol : Action.Holds (monitored RuntimeProtocol.observe)
      RuntimeProtocol.Allowed
      (fun outcome _ after => RuntimeProtocol.Post after (.executed outcome))
      ((anyRuntime hasProvider apiKey model bindings).execute json context
        (hostCallbacks text progress) (hostHandler attached) :
        Action agents Unit AgentResult) () .entering :=
    RuntimeProtocol.execute_holds hasProvider json context
  have stepped : Action.Holds (monitored StepBudget.observe)
      (StepBudget.Keeps (budgetOf constraints context.profile))
      (fun _ _ after => Within (budgetOf constraints context.profile) after)
      ((anyRuntime hasProvider apiKey model bindings).execute json context
        (hostCallbacks text progress) (hostHandler attached) :
        Action agents Unit AgentResult) () {} := by
    rw [← budget]
    exact execute_leads () {} rfl
  let Booked (seen : RuntimeProtocol.Phase × Steps) (ledger : Ledger) : Prop :=
    Opened context.profile seen.2 earlier settled ledger
  have start : Booked (.entering, {}) before := opened
  apply ((protocol.together stepped).simulates ?_ ?_ start).imp
  · rintro outcome after ledger ⟨seen, now, -, within⟩
    exact opened.balanced balanced now within
  · rintro seen ledger op now ⟨permitted, keeps⟩ answer
    have booked : Opened context.profile (seen.2.after op) earlier settled
        (ledger.book ⟨op, answer⟩) :=
      Opened.book now (StagePermissions.not_makes permitted)
    exact (opened.balanced balanced booked keeps).ends
  · rintro seen ledger op answer now ⟨permitted, -⟩
    exact Opened.book now (StagePermissions.not_makes permitted)

end Execution

/-! ## Whole calls -/

/-- The ledger stays balanced from stage to stage. -/
theorem budget_conducted
    (parts : OrchestratorParts) (constraints : TaskConstraints)
    (waited : List AgentProfile) :
    Conducts parts constraints Ledger.book (Affords waited constraints)
      (Balanced waited constraints)
      (fun profile rest ledger => Balanced waited constraints rest ledger ∧
        ∃ earlier settled, Opened profile {} earlier settled ledger) where
  permits := by
    intro ledger op own balanced answer
    rw [book_of_coordinates own]
    exact balanced
  keeps := by
    rintro rest ledger ⟨op, answer⟩ own balanced
    rw [book_of_coordinates own]
    exact balanced
  attends := by
    rintro profile rest ledger ⟨op, answer⟩ own serves
    rw [book_of_coordinates own]
    exact serves
  skips := fun _ _ _ balanced => balanced.skips
  leaves := fun _ _ _ serves => serves.1
  creates := by
    intro profile rest ledger answer balanced
    refine ⟨fun answer => (balanced.creates answer).ends,
      balanced.creates answer, ledger.stages, ledger.turns, ?_⟩
    simp [Opened, Ledger.book, bookOn, turnsOf]
  executes := by
    intro rest context text progress attached constrained
    exact execution_leads constrained

/-- Every call of the host keeps its ledger balanced. -/
theorem hostBody_balanced (parts : OrchestratorParts) (call : HostCall) :
    (hostBody parts call).Holds (monitored Ledger.book)
      (Affords (awaited parts call) (constraintsOf call))
      (fun ledger _ =>
        Balanced (awaited parts call) (constraintsOf call) [] ledger) {} := by
  apply hostBody_conducted (budget_conducted parts (constraintsOf call) _)
  refine ⟨?_, by simp, rfl⟩
  exact List.Sublist.refl _

theorem balanced_of_runs
    {parts : OrchestratorParts} {call : HostCall}
    {history : List AgentEvent} {rest : Program agents OrchestratorReturn}
    (run : (hostBody parts call).Runs history rest) :
    Balanced (awaited parts call) (constraintsOf call) [] (booked history) := by
  have start : Balanced (awaited parts call) (constraintsOf call) [] {} :=
    ⟨List.nil_sublist _, by simp, rfl⟩
  exact Program.Holds.always (fun _ event affords => affords event.answer)
    (hostBody_balanced parts call) run start

/-- The sum of the budgets of the stages bounds the turns. -/
theorem Balanced.turns_le
    {waited : List AgentProfile} {constraints : TaskConstraints}
    {ledger : Ledger} (balanced : Balanced waited constraints [] ledger) :
    ledger.turns ≤ (waited.map (budgetOf constraints)).sum := by
  have order := balanced.order
  rw [List.append_nil] at order
  calc ledger.turns
      = (ledger.stages.map fun entry => entry.2.turns).sum := balanced.total
    _ ≤ (ledger.stages.map fun entry => budgetOf constraints entry.1).sum :=
        List.sum_le_sum fun entry member => (balanced.within entry member).turns
    _ = ((ledger.stages.map Prod.fst).reverse.map
          (budgetOf constraints)).sum := by
        rw [List.map_reverse, List.sum_reverse, List.map_map]
        rfl
    _ ≤ (waited.map (budgetOf constraints)).sum :=
        (order.map (budgetOf constraints)).sum_le_sum fun _ _ => Nat.zero_le _

/--
Any number of threads execute workflows and single agents on one orchestrator
and cancel them, in any interleaving.  A call starts stages only for the
profiles it awaits, in this order and each at most once.  Every turn belongs to
one of these stages; a stage makes at most as many turns as its own profile and
the task allow and executes the calls of all but one of them.  All turns of the
call together are bounded by the sum of the budgets.
-/
theorem calls_keep_budgets
    {Thread : Type} [DecidableEq Thread] {parts : OrchestratorParts}
    {log : List (ThreadEvent Thread HostCall OrchestratorReturn agents)}
    {system : Threads Thread OrchestratorReturn (Memory Thread) agents}
    {thread : Thread} {call : HostCall} {history : List AgentEvent}
    (execution : Execution (Threads.Step memoryOf (hostBody parts))
      (Threads.idle {}) log system)
    (atCall : Threads.current log thread = some (call, history)) :
    ((booked history).stages.map Prod.fst).reverse.Sublist
        (awaited parts call) ∧
      (∀ entry ∈ (booked history).stages,
        entry.2.turns ≤ budgetOf (constraintsOf call) entry.1 ∧
          entry.2.rounds ≤ budgetOf (constraintsOf call) entry.1 - 1) ∧
      (booked history).turns =
        ((booked history).stages.map fun entry => entry.2.turns).sum ∧
      (booked history).turns ≤
        ((awaited parts call).map (budgetOf (constraintsOf call))).sum := by
  have running := Threads.runs_current execution thread
  rw [atCall] at running
  generalize system.running thread = now at running
  cases running with
  | runs run =>
      have balanced := balanced_of_runs run
      refine ⟨?_, ?_, balanced.total, balanced.turns_le⟩
      · have order := balanced.order
        rwa [List.append_nil] at order
      · intro entry member
        have within := balanced.within entry member
        exact ⟨within.turns, within.rounds⟩

/-! ## A workflow whose stages use all their turns -/

/-- A provider that asks for a tool in every first turn. -/
def asksOnce : (op : AgentOp) → agents.Answer op
  | .startTurn _ => .ok asks
  | op => quiet op

/-- The standard agents with two turns for each, up to the last stage. -/
def cappedWorkflow :
    Threads.Played Caller HostCall OrchestratorReturn (Memory Caller) agents :=
  Threads.play (scheduled fun _ _ => asksOnce)
    (hostBody StandardAgents.writingAgents) {}
    (.starts .executor (.execute
        { id := "t"
          objective := "Fix it"
          workingDirectory := "/w"
          constraints := { maxSteps := some 2 } }
        false false false false false false) ::
      List.replicate 190 (.continues .executor))

example :
    (Threads.current cappedWorkflow.log .executor).map
        (fun current => (booked current.2).turns) =
      some 8 := by
  decide +kernel

theorem calls_keep_budgets_cappedWorkflow :
    ∃ call history,
      Threads.current cappedWorkflow.log .executor = some (call, history) ∧
        ((booked history).stages.map Prod.fst).reverse.Sublist
            (awaited StandardAgents.writingAgents call) ∧
          (∀ entry ∈ (booked history).stages,
            entry.2.turns ≤ budgetOf (constraintsOf call) entry.1 ∧
              entry.2.rounds ≤ budgetOf (constraintsOf call) entry.1 - 1) ∧
          (booked history).turns =
            ((booked history).stages.map fun entry => entry.2.turns).sum ∧
          (booked history).turns ≤
            ((awaited StandardAgents.writingAgents call).map
              (budgetOf (constraintsOf call))).sum := by
  have inCall :
      (Threads.current cappedWorkflow.log .executor).isSome = true := by
    decide +kernel
  obtain ⟨⟨call, history⟩, atCall⟩ := Option.isSome_iff_exists.mp inCall
  have execution : Execution
      (Threads.Step memoryOf (hostBody StandardAgents.writingAgents))
      (Threads.idle {}) cappedWorkflow.log cappedWorkflow.system :=
    Threads.play_execution (scheduled_performs fun _ _ => asksOnce) _
  exact ⟨call, history, atCall, calls_keep_budgets execution atCall⟩

end ArnCore.Agent.WorkflowBudget
