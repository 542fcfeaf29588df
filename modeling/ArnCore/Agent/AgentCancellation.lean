import ArnCore.Agent.OrchestratorExclusion

/-!
# The cancellation of a single agent

`execute_agent` looks at the flag of the orchestrator before it runs the
runtime and once more after it has detached it.  Between the reset of the flag
and its last check, only cancellations write the flag, so the result tells
exactly whether one of them came in time.
-/

namespace ArnCore.Agent.AgentCancellation

open ArnCore.Interaction
open ArnCore.Agent.AgentOrchestrator
open ArnCore.Agent.Environment
open ArnCore.Agent.OrchestrationFlow
open ArnCore.Agent.OrchestratorExclusion
open ArnCore.Agent.OrchestratorProtocol
open ArnCore.Agent.SharedMemory

/-! ## What an execution reads -/

/-- What an execution has read since it reset the flag. -/
structure Verdict where
  /-- A check found the flag set. -/
  checked : Bool := false
  /-- The runtime returned as cancelled. -/
  stopped : Bool := false
  /-- The runtime is detached, and the flag was not checked since. -/
  detached : Bool := false

def Verdict.after (verdict : Verdict) : AgentEvent → Verdict
  | ⟨.load .cancelRequested, stop⟩ =>
      { verdict with checked := verdict.checked || stop, detached := false }
  | ⟨.executeRuntime _, .ok result⟩ =>
      { verdict with
        stopped := verdict.stopped || result.status == .cancelled }
  | ⟨.clear .activeRuntime, _⟩ => { verdict with detached := true }
  | _ => verdict

/-- The course of `execute_agent` as far as its cancellation goes. -/
inductive Course where
  | unarmed
  | armed (verdict : Verdict)

namespace Course

def after : Course → AgentEvent → Course
  | .unarmed, ⟨.store .cancelRequested _, _⟩ => .armed {}
  | .unarmed, _ => .unarmed
  | .armed verdict, event => .armed (verdict.after event)

/-- The flag is reset once, and the gate is not passed again. -/
def Allows : Course → AgentOp → Prop
  | .unarmed, op =>
      op = .exchange .orchestratorExecuting true ∨
        op = .store .cancelRequested false
  | .armed _, .exchange .orchestratorExecuting _ => False
  | .armed _, .store .cancelRequested _ => False
  | .armed _, _ => True

/-- The result tells what the execution has read. -/
def Tells (verdict : Verdict) (result : AgentResult) : Prop :=
  verdict.detached = false ∧
    (result.status = .cancelled ↔
      verdict.checked = true ∨ verdict.stopped = true)

/-- An execution past the gate never throws. -/
def Returned (outcome : Except Exception AgentResult) (course : Course) :
    Prop :=
  ∃ result verdict, outcome = .ok result ∧ course = .armed verdict ∧
    Tells verdict result

def Post (course : Course) (value : OrchestratorReturn) : Prop :=
  course = .unarmed ∨
    ∃ outcome, value = .agentExecuted outcome ∧ Returned outcome course

end Course

/-! ## The execution of one agent -/

section Programs

variable {registry : AgentRegistry} {hasFactory text progress : Bool}

/-- An action that changes the mutex of the orchestrator only. -/
theorem publish_armed {verdict : Verdict} {locals : Unit} :
    Action.Holds (monitored Course.after) Course.Allows
      (fun outcome _ after =>
        (∃ value, outcome = .ok value) ∧ after = .armed verdict)
      ((anyOrchestrator registry hasFactory).activeMutex.guarded
        (Action.ofHost
          (anyOrchestrator registry hasFactory).activeRuntime.publish))
      locals (.armed verdict) := by
  apply Action.holds_bind.mpr
  apply (holds_op (.lock .orchestrator)).mpr
  refine ⟨trivial, ?_⟩
  rintro ⟨⟩ locked rfl
  apply Action.holds_scopeGuard.mpr
  apply (holds_op (.publish .activeRuntime)).mpr
  refine ⟨trivial, ?_⟩
  rintro ⟨⟩ published rfl
  apply (holds_op (.unlock .orchestrator)).mpr
  refine ⟨trivial, ?_⟩
  rintro ⟨⟩ unlocked rfl
  exact ⟨⟨_, rfl⟩, rfl⟩

theorem clear_armed {verdict : Verdict} {locals : Unit} :
    Action.Holds (monitored Course.after) Course.Allows
      (fun outcome _ after =>
        (∃ value, outcome = .ok value) ∧
          after = .armed { verdict with detached := true })
      ((anyOrchestrator registry hasFactory).activeMutex.guarded
        (Action.ofHost
          (anyOrchestrator registry hasFactory).activeRuntime.clear))
      locals (.armed verdict) := by
  apply Action.holds_bind.mpr
  apply (holds_op (.lock .orchestrator)).mpr
  refine ⟨trivial, ?_⟩
  rintro ⟨⟩ locked rfl
  apply Action.holds_scopeGuard.mpr
  apply (holds_op (.clear .activeRuntime)).mpr
  refine ⟨trivial, ?_⟩
  rintro ⟨⟩ cleared rfl
  apply (holds_op (.unlock .orchestrator)).mpr
  refine ⟨trivial, ?_⟩
  rintro ⟨⟩ unlocked rfl
  exact ⟨⟨_, rfl⟩, rfl⟩

/-- Before the runtime is detached, its result tells what was read so far. -/
theorem executeOnce_armed
    (context : AgentContext) (confirm : HostConfirm agents) {locals : Unit} :
    Action.Holds (monitored Course.after) Course.Allows
      (fun outcome _ after => Course.Returned outcome after)
      ((anyOrchestrator registry hasFactory).executeOnce anyAgentRuntime
        context (hostCallbacks text progress) confirm)
      locals (.armed {}) := by
  apply Action.holds_tryCatch.mpr
  apply Action.holds_bind.mpr
  apply (holds_op (.load .cancelRequested)).mpr
  refine ⟨trivial, ?_⟩
  rintro (_ | _) loaded rfl
  · refine ⟨trivial, ?_⟩
    rintro (failure | result) executed rfl
    · refine ⟨_, _, rfl, rfl, rfl, iff_of_false nofun ?_⟩
      simp [Verdict.after]
    · refine ⟨_, _, rfl, rfl, rfl, ?_⟩
      simp [Verdict.after]
  · exact ⟨_, _, rfl, rfl, rfl, iff_of_true rfl (Or.inl rfl)⟩

/-- The last check adds what the flag says after the detachment. -/
theorem settleOnce_armed
    {verdict : Verdict} {result : AgentResult} {locals : Unit}
    (told : Course.Tells verdict result) :
    Action.Holds (monitored Course.after) Course.Allows
      (fun outcome _ after => Course.Returned outcome after)
      ((anyOrchestrator registry hasFactory).settleOnce result)
      locals (.armed { verdict with detached := true }) := by
  apply Action.holds_bind.mpr
  apply (holds_op (.load .cancelRequested)).mpr
  refine ⟨trivial, ?_⟩
  rintro (stop : Bool) loaded rfl
  dsimp only
  by_cases cancelled : (stop || decide (result.status = .cancelled)) = true
  · rw [if_pos cancelled]
    refine ⟨_, _, rfl, rfl, rfl, iff_of_true rfl ?_⟩
    rcases Bool.or_eq_true_iff.mp cancelled with set | status
    · exact Or.inl (by simp [Verdict.after, set])
    · rcases told.2.mp (of_decide_eq_true status) with checked | stopped
      · exact Or.inl (by simp [Verdict.after, checked])
      · exact Or.inr stopped
  · rw [if_neg cancelled]
    rw [Bool.or_eq_true, decide_eq_true_eq, not_or] at cancelled
    obtain ⟨unset, status⟩ := cancelled
    have silent := mt told.2.mpr status
    refine ⟨_, _, rfl, rfl, rfl, iff_of_false status ?_⟩
    simpa [Verdict.after, unset] using silent

/-- Nothing is read where no runtime is constructed. -/
theorem told_of_failure {result : AgentResult}
    (failed : result.status = .failed) : Course.Tells {} result :=
  ⟨rfl, iff_of_false (by simp [failed]) (by simp)⟩

theorem construct_armed (profile : AgentProfile) {locals : Unit} :
    Action.Holds (monitored Course.after) Course.Allows
      (fun outcome _ after =>
        after = .armed {} ∧
          (outcome = .ok none ∨ outcome = .ok (some none) ∨
            outcome = .ok (some (some anyAgentRuntime))))
      (construct anyFactory profile) locals (.armed {}) := by
  refine ⟨trivial, ?_⟩
  rintro (failure | _ | _) after rfl
  · exact ⟨rfl, Or.inl rfl⟩
  · exact ⟨rfl, Or.inr (Or.inl rfl)⟩
  · exact ⟨rfl, Or.inr (Or.inr rfl)⟩

/-- The runtime is published, run and detached before the last check. -/
theorem scoped_armed
    (context : AgentContext) (confirm : HostConfirm agents) {locals : Unit} :
    Action.Holds (monitored Course.after) Course.Allows
      (fun outcome _ after => Course.Returned outcome after)
      ((anyOrchestrator registry hasFactory).runtimeLifetime.scoped do
        (anyOrchestrator registry hasFactory).activeMutex.guarded
          (Action.ofHost
            (anyOrchestrator registry hasFactory).activeRuntime.publish)
        let result ←
          (anyOrchestrator registry hasFactory).executeOnce anyAgentRuntime
            context (hostCallbacks text progress) confirm
        (anyOrchestrator registry hasFactory).activeMutex.guarded
          (Action.ofHost
            (anyOrchestrator registry hasFactory).activeRuntime.clear)
        (anyOrchestrator registry hasFactory).settleOnce result)
      locals (.armed {}) := by
  apply Action.holds_bind.mpr
  apply (holds_op (.construct .runtime)).mpr
  refine ⟨trivial, ?_⟩
  rintro ⟨⟩ constructed rfl
  apply Action.holds_scopeGuard.mpr
  apply Action.holds_bind.mpr
  apply publish_armed.imp
  rintro _ inner published ⟨⟨⟨⟩, rfl⟩, rfl⟩
  apply Action.holds_bind.mpr
  apply (executeOnce_armed context confirm).imp
  rintro _ ran executed ⟨result, verdict, rfl, rfl, told⟩
  apply Action.holds_bind.mpr
  apply clear_armed.imp
  rintro _ detached cleared ⟨⟨⟨⟩, rfl⟩, rfl⟩
  apply (settleOnce_armed told).imp
  rintro outcome settled left ⟨final, read, rfl, rfl, tells⟩
  apply (holds_op (.destroy .runtime)).mpr
  refine ⟨trivial, ?_⟩
  rintro ⟨⟩ destroyed rfl
  exact ⟨final, read, rfl, rfl, tells⟩

theorem executeAgentClaimed_armed
    (profileId : String) (task : AgentTask) (confirm : HostConfirm agents)
    {locals : Unit} :
    Action.Holds (monitored Course.after) Course.Allows
      (fun outcome _ after => Course.Returned outcome after)
      ((anyOrchestrator registry hasFactory).executeAgentClaimed profileId
        task (hostCallbacks text progress) confirm)
      locals .unarmed := by
  apply Action.holds_bind.mpr
  apply (holds_op (.store .cancelRequested false)).mpr
  refine ⟨Or.inr rfl, ?_⟩
  rintro ⟨⟩ armed rfl
  dsimp only
  split
  · exact ⟨_, _, rfl, rfl, told_of_failure rfl⟩
  · cases hasFactory with
    | false => exact ⟨_, _, rfl, rfl, told_of_failure rfl⟩
    | true =>
        cases found : (anyOrchestrator registry true).registry.find
          profileId with
        | none => exact ⟨_, _, rfl, rfl, told_of_failure rfl⟩
        | some profile =>
            apply Action.holds_bind.mpr
            apply (construct_armed profile).imp
            rintro outcome after reached ⟨rfl, rfl | rfl | rfl⟩
            · exact ⟨_, _, rfl, rfl, told_of_failure rfl⟩
            · exact ⟨_, _, rfl, rfl, told_of_failure rfl⟩
            · exact scoped_armed _ confirm

/-- The result of `execute_agent` tells what the call has read. -/
theorem executeAgent_armed
    (profileId : String) (task : AgentTask) (confirm : HostConfirm agents)
    {locals : Unit} :
    Action.Holds (monitored Course.after) Course.Allows
      (fun outcome _ after =>
        after = .unarmed ∨ Course.Returned outcome after)
      ((anyOrchestrator registry hasFactory).executeAgent profileId task
        (hostCallbacks text progress) confirm)
      locals .unarmed := by
  apply Action.holds_bind.mpr
  apply (holds_op (.exchange .orchestratorExecuting true)).mpr
  refine ⟨Or.inl rfl, ?_⟩
  rintro (_ | _) entered rfl
  · apply Action.holds_scopeGuard.mpr
    apply (executeAgentClaimed_armed profileId task confirm).imp
    rintro outcome claimed reached ⟨result, verdict, rfl, rfl, tells⟩
    apply (holds_op (.store .orchestratorExecuting false)).mpr
    refine ⟨trivial, ?_⟩
    rintro ⟨⟩ opened rfl
    exact Or.inr ⟨result, verdict, rfl, rfl, tells⟩
  · exact Or.inl rfl

theorem body_armed
    (profileId : String) (task : AgentTask) (attached : Bool) :
    (body registry hasFactory
        (.executeAgent profileId task text progress attached)).Holds
      (monitored Course.after) Course.Allows Course.Post .unarmed := by
  apply Program.Holds.bind_of
    (executeAgent_armed profileId task (hostHandler attached))
  rintro after ⟨outcome, locals⟩ (unarmed | returned)
  · exact Or.inl unarmed
  · exact Or.inr ⟨outcome, rfl, returned⟩

end Programs

/-! ## What an execution has read -/

namespace Verdict

theorem checked_after (verdict : Verdict) (event : AgentEvent) :
    (verdict.after event).checked = true ↔
      verdict.checked = true ∨ ⟨.load .cancelRequested, true⟩ = event := by
  unfold after
  split
  · rename_i stop
    cases stop with
    | true => simp
    | false =>
        rw [Bool.or_false]
        exact (or_iff_left nofun).symm
  · exact (or_iff_left nofun).symm
  · exact (or_iff_left nofun).symm
  · rename_i other _ _
    refine (or_iff_left ?_).symm
    rintro rfl
    exact other true rfl

theorem stopped_after (verdict : Verdict) (event : AgentEvent) :
    (verdict.after event).stopped = true ↔
      verdict.stopped = true ∨
        ∃ context result, ⟨.executeRuntime context, .ok result⟩ = event ∧
          result.status = .cancelled := by
  unfold after
  split
  · exact (or_iff_left nofun).symm
  · rename_i context result
    rw [Bool.or_eq_true, beq_iff_eq]
    apply or_congr_right
    constructor
    · exact fun status => ⟨context, result, rfl, status⟩
    · rintro ⟨_, _, same, status⟩
      cases same
      exact status
  · exact (or_iff_left nofun).symm
  · rename_i _ other _
    refine (or_iff_left ?_).symm
    rintro ⟨context, result, rfl, _⟩
    exact other context result rfl

theorem checked_foldl (events : List AgentEvent) (verdict : Verdict) :
    (events.foldl after verdict).checked = true ↔
      verdict.checked = true ∨ ⟨.load .cancelRequested, true⟩ ∈ events := by
  induction events generalizing verdict with
  | nil => simp
  | cons event rest induction =>
      rw [List.foldl_cons, induction, checked_after, List.mem_cons, or_assoc]

theorem stopped_foldl (events : List AgentEvent) (verdict : Verdict) :
    (events.foldl after verdict).stopped = true ↔
      verdict.stopped = true ∨
        ∃ context result, ⟨.executeRuntime context, .ok result⟩ ∈ events ∧
          result.status = .cancelled := by
  induction events generalizing verdict with
  | nil => simp
  | cons event rest induction =>
      rw [List.foldl_cons, induction, stopped_after, or_assoc]
      simp only [List.mem_cons, or_and_right, exists_or]

/-- Once the runtime is detached, only a check takes that back. -/
theorem detached_after
    {verdict : Verdict} {event : AgentEvent}
    (attached : (verdict.after event).detached = false) :
    (∃ stop, event = ⟨.load .cancelRequested, stop⟩) ∨
      verdict.detached = false := by
  unfold after at attached
  split at attached
  · exact Or.inl ⟨_, rfl⟩
  · exact Or.inr attached
  · cases attached
  · exact Or.inr attached

theorem load_of_detached
    {events : List AgentEvent} {verdict : Verdict}
    (detached : verdict.detached = true)
    (checked : (events.foldl after verdict).detached = false) :
    ∃ stop, ⟨.load .cancelRequested, stop⟩ ∈ events := by
  induction events generalizing verdict with
  | nil => exact absurd (detached.symm.trans checked) nofun
  | cons event rest induction =>
      rw [List.foldl_cons] at checked
      cases still : (verdict.after event).detached with
      | true =>
          obtain ⟨stop, member⟩ := induction still checked
          exact ⟨stop, List.mem_cons_of_mem _ member⟩
      | false =>
          rcases detached_after still with ⟨stop, rfl⟩ | attached
          · exact ⟨stop, List.mem_cons_self⟩
          · exact absurd (detached.symm.trans attached) nofun

end Verdict

theorem Course.foldl_armed (events : List AgentEvent) (verdict : Verdict) :
    events.foldl Course.after (.armed verdict) =
      .armed (events.foldl Verdict.after verdict) := by
  induction events generalizing verdict with
  | nil => rfl
  | cons event rest induction => exact induction (verdict.after event)

/-! ## The flag between its reset and a check -/

variable {Thread : Type} [DecidableEq Thread]

/-- What a step does to the shared memory. -/
theorem shared_step
    {Call Value : Type} {program : Call → Program agents Value}
    {source target : Threads Thread Value (Memory Thread) agents}
    {event : ThreadEvent Thread Call Value agents}
    (step : Threads.Step memoryOf program source event target) :
    (∃ thread op answer, event = .performs thread ⟨op, answer⟩ ∧
        target.shared = source.shared.update thread op) ∨
      ((∀ thread performed, event ≠ .performs thread performed) ∧
        target.shared = source.shared) := by
  cases step with
  | calls thread call idle => exact Or.inr ⟨fun _ _ => nofun, rfl⟩
  | returns thread runs => exact Or.inr ⟨fun _ _ => nofun, rfl⟩
  | performs thread runs performed =>
      exact Or.inl ⟨thread, _, _, rfl, performed.2⟩

omit [DecidableEq Thread] in
/-- Only a write to a flag changes it. -/
theorem flags_update
    {memory : Memory Thread} {thread : Thread} {name : Flag} {op : AgentOp}
    (notStored : ∀ value, op ≠ .store name value)
    (notExchanged : ∀ value, op ≠ .exchange name value) :
    (memory.update thread op).flags name = memory.flags name := by
  cases op with
  | store other value =>
      refine Function.update_of_ne ?_ _ _
      rintro rfl
      exact notStored value rfl
  | exchange other value =>
      refine Function.update_of_ne ?_ _ _
      rintro rfl
      exact notExchanged value rfl
  | _ => rfl

/--
A flag that was reset and is not reset again is set exactly when some thread
has set it since.
-/
theorem flags_since_reset
    {Call Value : Type} {program : Call → Program agents Value}
    {initial : Memory Thread} {name : Flag} {thread : Thread}
    {past since : List (ThreadEvent Thread Call Value agents)}
    {system : Threads Thread Value (Memory Thread) agents}
    (execution : Execution (Threads.Step memoryOf program)
      (Threads.idle initial)
      (past ++ .performs thread ⟨.store name false, ()⟩ :: since) system)
    (kept : ∀ other op answer, .performs other ⟨op, answer⟩ ∈ since →
      op ≠ .store name false ∧ ∀ value, op ≠ .exchange name value) :
    system.shared.flags name = true ↔
      ∃ canceller, .performs canceller ⟨.store name true, ()⟩ ∈ since := by
  induction since using List.reverseRecOn generalizing system with
  | nil =>
      obtain ⟨source, _, step⟩ := execution.last
      cases step with
      | performs _ runs performed =>
          rw [performed.2]
          simp [Memory.update]
  | append_singleton since event induction =>
      rw [← List.cons_append, ← List.append_assoc] at execution
      obtain ⟨source, earlier, step⟩ := execution.last
      have before := induction earlier fun other op answer member =>
        kept other op answer (List.mem_append_left _ member)
      rcases shared_step step with
        ⟨other, op, answer, rfl, updated⟩ | ⟨foreign, unchanged⟩
      · obtain ⟨unset, unexchanged⟩ := kept other op answer (by simp)
        by_cases sets : op = .store name true
        · subst sets
          rw [updated]
          refine iff_of_true (by simp [Memory.update]) ⟨other, ?_⟩
          exact List.mem_append_right _ (List.mem_singleton.mpr rfl)
        · rw [updated, flags_update ?_ unexchanged, before]
          · apply exists_congr
            intro canceller
            rw [List.mem_append, List.mem_singleton]
            refine (or_iff_left ?_).symm
            intro same
            injection same with _ same
            exact sets (congrArg Event.op same).symm
          · rintro (_ | _)
            · exact unset
            · exact sets
      · rw [unchanged, before]
        apply exists_congr
        intro canceller
        rw [List.mem_append, List.mem_singleton]
        exact (or_iff_left fun same => foreign _ _ same.symm).symm

/-! ## One execution among the others -/

section Interleavings

variable {registry : AgentRegistry} {hasFactory : Bool}
  {past before since : OrchestratorLog Thread}
  {system : OrchestratorThreads Thread} {executor : Thread}
  {profileId : String} {task : AgentTask} {text progress attached : Bool}
  {history : List AgentEvent}

/-- Only a call past the gate resets or reads the flag. -/
theorem pastGate_of_performs
    {other : Thread} {op : AgentOp} {answer : agents.Answer op}
    (execution : Execution
      (Threads.Step memoryOf (body registry hasFactory))
      (Threads.idle {}) (past ++ .performs other ⟨op, answer⟩ :: since)
      system)
    (own : op = .store .cancelRequested false ∨ op = .load .cancelRequested) :
    PastGate .orchestratorExecuting past other := by
  obtain ⟨source, target, earlier, step⟩ := execution.step_of_log
  cases step with
  | performs _ runs performed =>
      obtain ⟨phase, atPhase, allowed⟩ :=
        Threads.allowed_of_performs (body_verified registry hasFactory)
          earlier runs
      refine (pastGate_iff earlier other).mpr ⟨phase, atPhase, ?_⟩
      cases phase with
      | gated scope => exact ⟨scope, rfl⟩
      | inspecting found =>
          cases found <;> rcases own with rfl | rfl <;>
            simp [Allowed] at allowed
      | _ => rcases own with rfl | rfl <;> simp [Allowed] at allowed

/-- No call writes the flag by an exchange. -/
theorem not_exchange
    {other : Thread} {value : Bool} {answer : Bool} :
    Execution (Threads.Step memoryOf (body registry hasFactory))
        (Threads.idle {})
        (past ++
          .performs other ⟨.exchange .cancelRequested value, answer⟩ :: since)
        system →
      False := by
  intro execution
  obtain ⟨source, target, earlier, step⟩ := execution.step_of_log
  cases step with
  | performs _ runs performed =>
      obtain ⟨phase, _, allowed⟩ :=
        Threads.allowed_of_performs (body_verified registry hasFactory)
          earlier runs
      cases phase with
      | gated scope => exact allowed
      | inspecting found => cases found <;> simp [Allowed] at allowed
      | _ => simp [Allowed] at allowed

/-- The log up to a point after the reset of the flag. -/
abbrev resetLog (past : OrchestratorLog Thread) (executor : Thread)
    (since : OrchestratorLog Thread) : OrchestratorLog Thread :=
  past ++ .performs executor ⟨.store .cancelRequested false, ()⟩ :: since

/-- The gate is not passed again, and the flag is not written. -/
def Armed (events : List AgentEvent) : Prop :=
  ∀ event ∈ events,
    (∀ value, event.op ≠ .exchange .orchestratorExecuting value) ∧
      ∀ value, event.op ≠ .store .cancelRequested value

theorem armed_of_runs
    {program rest : Program agents OrchestratorReturn}
    {events : List AgentEvent}
    (holds : program.Holds (monitored Course.after) Course.Allows Course.Post
      .unarmed)
    (run : program.Runs
      (history ++ ⟨.store .cancelRequested false, ()⟩ :: events) rest) :
    Armed events ∧
      rest.Holds (monitored Course.after) Course.Allows Course.Post
        (.armed (events.foldl Verdict.after {})) := by
  obtain ⟨allowed, ends⟩ := holds.runs run
  have first := allowed history _ events rfl
  have unarmed : history.foldl Course.after .unarmed = .unarmed := by
    cases reached : history.foldl Course.after .unarmed with
    | unarmed => rfl
    | armed verdict =>
        rw [reached] at first
        exact first.elim
  have armed : ∀ events : List AgentEvent,
      (history ++ ⟨.store .cancelRequested false, ()⟩ :: events).foldl
          Course.after .unarmed =
        .armed (events.foldl Verdict.after {}) := by
    intro events
    rw [List.foldl_append, unarmed, List.foldl_cons]
    exact Course.foldl_armed events {}
  rw [armed] at ends
  refine ⟨?_, ends⟩
  intro event member
  obtain ⟨front, back, rfl⟩ := List.append_of_mem member
  have permitted := allowed
    (history ++ ⟨.store .cancelRequested false, ()⟩ :: front) event back
    (by simp)
  rw [armed] at permitted
  constructor
  · intro value same
    rw [same] at permitted
    exact permitted
  · intro value same
    rw [same] at permitted
    exact permitted

/-- What an execution did since the reset, and what it may still return. -/
theorem armed_of_execution
    {rest : Program agents OrchestratorReturn}
    (execution : Execution
      (Threads.Step memoryOf (body registry hasFactory))
      (Threads.idle {}) (resetLog past executor since) system)
    (atCall : Threads.current past executor =
      some (.executeAgent profileId task text progress attached, history))
    (stays : Threads.StaysInCall executor since)
    (running : system.running executor = some rest) :
    Armed (Threads.eventsOf executor since) ∧
      rest.Holds (monitored Course.after) Course.Allows Course.Post
        (.armed ((Threads.eventsOf executor since).foldl Verdict.after {})) := by
  have stays' : Threads.StaysInCall executor
      (.performs executor ⟨.store .cancelRequested false, ()⟩ :: since :
        OrchestratorLog Thread) := by
    simpa [Threads.StaysInCall] using stays
  have runs := Threads.runs_current execution executor
  rw [Threads.current_append atCall stays', running] at runs
  have events : Threads.eventsOf executor
      (.performs executor ⟨.store .cancelRequested false, ()⟩ :: since :
        OrchestratorLog Thread) =
      ⟨.store .cancelRequested false, ()⟩ ::
        Threads.eventsOf executor since := by
    simp [Threads.eventsOf, Threads.eventOf]
  rw [events] at runs
  cases runs with
  | runs run =>
      exact armed_of_runs (body_armed profileId task attached) run

/-- Some thread has requested the cancellation. -/
def Requested (log : OrchestratorLog Thread) : Prop :=
  ∃ canceller, .performs canceller ⟨.store .cancelRequested true, ()⟩ ∈ log

/-- A check finds the requests since the reset. -/
theorem load_iff
    {after : OrchestratorLog Thread} {stop : Bool}
    (execution : Execution
      (Threads.Step memoryOf (body registry hasFactory))
      (Threads.idle {})
      (resetLog past executor (before ++
        .performs executor ⟨.load .cancelRequested, stop⟩ :: after)) system)
    (armed : Armed (Threads.eventsOf executor before)) :
    stop = true ↔ Requested before := by
  have split : resetLog past executor (before ++
      .performs executor ⟨.load .cancelRequested, stop⟩ :: after) =
        resetLog past executor before ++
          .performs executor ⟨.load .cancelRequested, stop⟩ :: after := by
    simp [resetLog]
  have inside := pastGate_of_performs execution (Or.inl rfl)
  rw [split] at execution
  have still := pastGate_of_performs execution (Or.inr rfl)
  have notLeft : .performs executor
      ⟨.store .orchestratorExecuting false, ()⟩ ∉ before := by
    intro left
    obtain ⟨first, rest, rfl⟩ := List.append_of_mem left
    have left : ¬ PastGate .orchestratorExecuting
        (resetLog past executor first ++
          .performs executor ⟨.store .orchestratorExecuting false, ()⟩ :: rest)
        executor := by
      refine Threads.not_within_of_left ?_ ?_
      · intro same
        cases congrArg Event.op same
      · intro again
        refine (armed ⟨.exchange .orchestratorExecuting true, false⟩
          (Threads.mem_eventsOf.mpr ?_)).1 true rfl
        simp [Threads.mem_eventsOf.mp again]
    exact left (by simpa [resetLog] using still)
  have kept : ∀ other op answer, .performs other ⟨op, answer⟩ ∈ before →
      op ≠ .store .cancelRequested false ∧
        ∀ value, op ≠ .exchange .cancelRequested value := by
    intro other op answer member
    obtain ⟨first, rest, rfl⟩ := List.append_of_mem member
    have here : resetLog past executor
          (first ++ .performs other ⟨op, answer⟩ :: rest) ++
          .performs executor ⟨.load .cancelRequested, stop⟩ :: after =
        resetLog past executor first ++ .performs other ⟨op, answer⟩ ::
          (rest ++
            .performs executor ⟨.load .cancelRequested, stop⟩ :: after) := by
      simp [resetLog]
    rw [here] at execution
    constructor
    · -- Whoever resets the flag is past the gate, and so is this execution.
      rintro rfl
      obtain ⟨_, _, earlier, _⟩ := execution.step_of_log
      obtain ⟨_, otherPhase, _, rfl⟩ := (pastGate_iff earlier other).mp
        (pastGate_of_performs execution (Or.inl rfl))
      have executing : PastGate .orchestratorExecuting
          (resetLog past executor first) executor := by
        refine inside.append ?_
        intro leaves
        rcases List.mem_cons.mp leaves with same | later
        · injection same with _ same
          cases congrArg Event.op same
        · exact notLeft (List.mem_append_left _ later)
      obtain ⟨_, ownPhase, _, rfl⟩ :=
        (pastGate_iff earlier executor).mp executing
      obtain rfl := (exclusive earlier).gate.unique otherPhase ownPhase
      exact (armed _ (Threads.mem_eventsOf.mpr member)).2 false rfl
    · rintro value rfl
      exact not_exchange execution
  obtain ⟨source, target, earlier, step⟩ := execution.step_of_log
  cases step with
  | performs _ runs performed =>
      have answered : stop = source.shared.flags .cancelRequested :=
        performed.1
      rw [answered]
      exact flags_since_reset earlier kept

/-- A check of the execution came after a request. -/
def Noticed (executor : Thread) (since : OrchestratorLog Thread) : Prop :=
  ∃ before stop after, since = before ++
      .performs executor ⟨.load .cancelRequested, stop⟩ :: after ∧
    Requested before

/-- The runtime of the execution returned as cancelled. -/
def RuntimeStopped (executor : Thread) (since : OrchestratorLog Thread) :
    Prop :=
  ∃ context result,
    .performs executor ⟨.executeRuntime context, .ok result⟩ ∈ since ∧
      result.status = .cancelled

/-- A request came before the runtime of the execution was detached. -/
def InTime (executor : Thread) (since : OrchestratorLog Thread) : Prop :=
  ∃ before after, since = before ++
      .performs executor ⟨.clear .activeRuntime, ()⟩ :: after ∧
    Requested before

/-- How the result of an execution reflects the requests since the reset. -/
structure CancellationReflected (executor : Thread)
    (since : OrchestratorLog Thread) (result : AgentResult) : Prop where
  /-- It is cancelled by a request that a check noticed, or by its runtime. -/
  exact : result.status = .cancelled ↔
    Noticed executor since ∨ RuntimeStopped executor since
  /-- No request up to the detachment of its runtime is lost. -/
  inTime : InTime executor since → result.status = .cancelled

/-- The checks that found the flag set are those after a request. -/
theorem noticed_iff
    {after : OrchestratorLog Thread}
    (execution : Execution
      (Threads.Step memoryOf (body registry hasFactory))
      (Threads.idle {}) (resetLog past executor (since ++ after)) system)
    (armed : Armed (Threads.eventsOf executor since)) :
    Noticed executor since ↔
      ⟨.load .cancelRequested, true⟩ ∈ Threads.eventsOf executor since := by
  have check : ∀ before stop rest, since = before ++
      .performs executor ⟨.load .cancelRequested, stop⟩ :: rest →
        (stop = true ↔ Requested before) := by
    rintro before stop rest rfl
    rw [List.append_assoc, List.cons_append] at execution
    refine load_iff execution fun event member => armed event ?_
    rw [Threads.eventsOf, List.filterMap_append]
    exact List.mem_append_left _ member
  constructor
  · rintro ⟨before, stop, rest, split, requested⟩
    obtain rfl := (check before stop rest split).mpr requested
    exact Threads.mem_eventsOf.mpr (by simp [split])
  · intro member
    obtain ⟨before, rest, split⟩ :=
      List.append_of_mem (Threads.mem_eventsOf.mp member)
    exact ⟨before, true, rest, split, (check before true rest split).mp rfl⟩

/-- The check after the detachment notices every earlier request. -/
theorem noticed_of_inTime
    {after : OrchestratorLog Thread}
    (checked : ((Threads.eventsOf executor (before ++
      .performs executor ⟨.clear .activeRuntime, ()⟩ :: after)).foldl
        Verdict.after {}).detached = false)
    (requested : Requested before) :
    Noticed executor (before ++
      .performs executor ⟨.clear .activeRuntime, ()⟩ :: after) := by
  have events : Threads.eventsOf executor (before ++
      .performs executor ⟨.clear .activeRuntime, ()⟩ :: after) =
        Threads.eventsOf executor before ++ ⟨.clear .activeRuntime, ()⟩ ::
          Threads.eventsOf executor after := by
    simp [Threads.eventsOf, Threads.eventOf]
  rw [events, List.foldl_append, List.foldl_cons] at checked
  obtain ⟨stop, member⟩ := Verdict.load_of_detached rfl checked
  obtain ⟨between, rest, rfl⟩ :=
    List.append_of_mem (Threads.mem_eventsOf.mp member)
  obtain ⟨canceller, stored⟩ := requested
  refine ⟨before ++
      .performs executor ⟨.clear .activeRuntime, ()⟩ :: between, stop, rest,
    by simp, canceller, ?_⟩
  exact List.mem_append_left _ stored

/--
An execution of a single agent among any number of other calls: its result is
cancelled exactly when a check of its own came after a request that was made
since it reset the flag, or when its runtime returned as cancelled; and a
request that was made before its runtime was detached is never lost.
-/
theorem agent_cancellation_exact
    {value : OrchestratorReturn} {later : OrchestratorLog Thread}
    (execution : Execution
      (Threads.Step memoryOf (body registry hasFactory))
      (Threads.idle {})
      (resetLog past executor (since ++ .returns executor value :: later))
      system)
    (atCall : Threads.current past executor =
      some (.executeAgent profileId task text progress attached, history))
    (stays : Threads.StaysInCall executor since) :
    ∃ result, value = .agentExecuted (.ok result) ∧
      CancellationReflected executor since result := by
  have split : resetLog past executor
      (since ++ .returns executor value :: later) =
        resetLog past executor since ++ .returns executor value :: later := by
    simp [resetLog]
  have whole := execution
  rw [split] at execution
  obtain ⟨source, target, earlier, step⟩ := execution.step_of_log
  cases step with
  | returns _ runs =>
      obtain ⟨armed, ends⟩ := armed_of_execution earlier atCall stays runs
      have posts : Course.Post (.armed ((Threads.eventsOf executor
          since).foldl Verdict.after {})) value := ends
      rcases posts with unarmed |
        ⟨_, rfl, result, verdict, rfl, same, attached, told⟩
      · cases unarmed
      · injection same with same
        subst same
        have exact : result.status = .cancelled ↔
            Noticed executor since ∨ RuntimeStopped executor since := by
          rw [told, Verdict.checked_foldl, Verdict.stopped_foldl,
            noticed_iff whole armed]
          simp [RuntimeStopped, Threads.mem_eventsOf]
        refine ⟨result, rfl, exact, ?_⟩
        rintro ⟨before, after, rfl, requested⟩
        exact exact.mpr (Or.inl (noticed_of_inTime attached requested))

end Interleavings

/-! ## A request while the runtime runs -/

/-- The part of the run between the reset of the flag and the return. -/
def cancelledSince : OrchestratorLog Bool :=
  (cancelledStage.log.drop 3).take 23

def cancelledResult : AgentResult where
  status := .cancelled
  summary := "Execution cancelled."

theorem cancelledStage_log :
    cancelledStage.log =
      resetLog (cancelledStage.log.take 2) true (cancelledSince ++
        [.returns true (.agentExecuted (.ok cancelledResult))]) := by
  rfl

theorem agent_cancellation_exact_cancelled :
    ∃ result, OrchestratorReturn.agentExecuted (.ok cancelledResult) =
        .agentExecuted (.ok result) ∧
      CancellationReflected true cancelledSince result := by
  have execution : Execution
      (Threads.Step memoryOf (body oneProfile true)) (Threads.idle {})
      cancelledStage.log cancelledStage.system :=
    Threads.play_execution (scheduled_performs fun _ _ => quiet) _
  rw [cancelledStage_log] at execution
  have atCall : Threads.current (cancelledStage.log.take 2) true =
      some (.executeAgent "helper"
          { id := "t", objective := "Help", workingDirectory := "/w" }
          false false false,
        [⟨.exchange .orchestratorExecuting true, false⟩]) := rfl
  refine agent_cancellation_exact execution atCall ?_
  have each : cancelledSince.Forall fun event =>
      (∀ call, event ≠ .calls true call) ∧
        ∀ value, event ≠ .returns true value := by
    repeat' apply And.intro
    all_goals rintro value ⟨⟩
  rw [List.forall_iff_forall_mem] at each
  exact ⟨fun call member => (each _ member).1 call rfl,
    fun value member => (each _ member).2 value rfl⟩

end ArnCore.Agent.AgentCancellation
