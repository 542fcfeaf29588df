import ArnCore.Agent.WorkflowSteps

/-!
# Cancelling a workflow

A cancellation of a workflow travels through two flags and two pointers.  It
is lost where the workflow resets its flag after the cancellation set it, and
where a runtime attaches its session after the cancellation looked for one.
Otherwise the workflow returns as cancelled, and once the cancellation has
returned no stage starts a turn or calls a tool.
-/

namespace ArnCore.Agent.WorkflowCancellation

open ArnCore.Interaction
open ArnCore.Provider
open ArnCore.Agent.AgentOrchestrator
open ArnCore.Agent.Environment
open ArnCore.Agent.GuardedWork
open ArnCore.Agent.SharedMemory
open ArnCore.Agent.WorkflowProtocol
open ArnCore.Agent.WorkflowSteps

/-! ## Conditions on the order of the steps -/

/-- The flag is not set between a check of it and the work behind the check. -/
def AtomicChecks (log : WorkflowLog) : Prop :=
  ∀ (before between : WorkflowLog) (op : AgentOp)
    (answer : agents.Answer op) (after : WorkflowLog),
    log = before ++ .performs .executor ⟨.load .cancelled, false⟩ ::
        (between ++ .performs .executor ⟨op, answer⟩ :: after) →
      StartsWork op →
        (∀ stop, .performs .executor ⟨.load .cancelled, stop⟩ ∉ between) →
          .performs .canceller ⟨.store .cancelled true, ()⟩ ∉ between

/-- The workflow does not reset its flag after the cancellation set it. -/
def NotOverwritten (log : WorkflowLog) : Prop :=
  ∀ before after,
    log = before ++
        .performs .canceller ⟨.store .cancelRequested true, ()⟩ :: after →
      .performs .executor ⟨.store .cancelRequested false, ()⟩ ∉ after

/-- No session is attached after the cancellation looked for one in vain. -/
def NoLateAttachment (log : WorkflowLog) : Prop :=
  ∀ before after,
    log = before ++
        .performs .canceller ⟨.present .activeSession, false⟩ :: after →
      .performs .executor ⟨.publish .activeSession, ()⟩ ∉ after

section Conditions

variable {log more : WorkflowLog}

theorem NotOverwritten.earlier
    (kept : NotOverwritten (log ++ more)) :
    NotOverwritten log := by
  rintro before after rfl member
  exact kept before (after ++ more) (by simp) (List.mem_append_left _ member)

theorem NoLateAttachment.earlier
    (attached : NoLateAttachment (log ++ more)) :
    NoLateAttachment log := by
  rintro before after rfl member
  exact attached before (after ++ more) (by simp)
    (List.mem_append_left _ member)

end Conditions

/-! ## What is known after every run -/

/-- What the log and the memory say about the workflow and the cancellation. -/
structure Known (log : WorkflowLog) (memory : Memory Caller) : Prop where
  tracks : Tracks (course log) (search log) memory
  recorded : Recorded (course log) log
  searched : Searched (search log) log

theorem known_start : Known [] {} where
  tracks :=
    { gate := fun _ => rfl
      passed := by rintro ⟨⟩
      published := fun published => published.elim
      attached := iff_of_false (fun set => set rfl) id
      later := fun attached => attached.elim
      requested := fun stored => absurd rfl stored
      missedRuntime := by rintro ⟨⟩
      missedSession := by rintro ⟨⟩
      found := by rintro (found | found) <;> cases found
      flagged := by rintro ⟨⟩ }
  recorded :=
    { excused := by rintro ⟨⟩
      behind := by rintro (atCourse | atCourse) <;> cases atCourse
      checked := by rintro ⟨⟩
      read := by rintro scope stage ⟨⟩ }
  searched :=
    { requested := iff_of_false (fun stored => stored rfl) List.not_mem_nil
      missed := iff_of_false (by rintro ⟨⟩) List.not_mem_nil
      cancelled := iff_of_false (by rintro ⟨⟩) List.not_mem_nil }

section Runs

variable {parts : OrchestratorParts} {log : WorkflowLog}
  {system : WorkflowThreads}

/-- Beginning a call or returning from it shows nothing. -/
theorem Known.foreign
    {memory : Memory Caller}
    {entry : ThreadEvent Caller WorkflowCall WorkflowReturn agents}
    (known : Known log memory)
    (other : ∀ caller event, entry ≠ .performs caller event) :
    Known (log ++ [entry]) memory where
  tracks := by
    rw [course_foreign (other _), search_foreign (other _)]
    exact known.tracks
  recorded := by
    rw [course_foreign (other _)]
    exact known.recorded.foreign (other _)
  searched := by
    rw [search_foreign (other _)]
    exact known.searched.foreign (other _)

/-- A step of the workflow. -/
theorem Known.executes
    {memory : Memory Caller} {op : AgentOp} {answer : agents.Answer op}
    (known : Known log memory)
    (allowed : (course log).Allows op)
    (answers : memory.Answers op answer)
    (kept : NotOverwritten (log ++ [.performs .executor ⟨op, answer⟩]))
    (attached : NoLateAttachment (log ++ [.performs .executor ⟨op, answer⟩])) :
    Known (log ++ [.performs .executor ⟨op, answer⟩])
      (memory.update .executor op) := by
  have moves := moves_of_allows answer allowed
  have foreign : ∀ event,
      (.performs .executor ⟨op, answer⟩ :
        ThreadEvent Caller WorkflowCall WorkflowReturn agents) ≠
          .performs .canceller event := by
    rintro event ⟨⟩
  constructor
  · rw [course_performs, search_foreign foreign]
    apply known.tracks.executes moves answers
    · rintro rfl
      by_contra stored
      obtain ⟨before, after, rfl⟩ :=
        List.append_of_mem (known.searched.requested.mp stored)
      refine kept before (after ++ [.performs .executor ⟨_, answer⟩])
        (by simp) ?_
      exact List.mem_append_right _ (List.mem_singleton.mpr rfl)
    · rintro rfl missed
      obtain ⟨before, after, rfl⟩ :=
        List.append_of_mem (known.searched.missed.mp missed)
      refine attached before (after ++ [.performs .executor ⟨_, answer⟩])
        (by simp) ?_
      exact List.mem_append_right _ (List.mem_singleton.mpr rfl)
  · rw [course_performs]
    exact known.recorded.moves moves
  · rw [search_foreign foreign]
    exact known.searched.foreign foreign

/-- A step of the cancellation. -/
theorem Known.cancels
    {memory : Memory Caller} {op : AgentOp} {answer : agents.Answer op}
    (known : Known log memory)
    (allowed : (search log).Allows op)
    (answers : memory.Answers op answer) :
    Known (log ++ [.performs .canceller ⟨op, answer⟩])
      (memory.update .canceller op) := by
  have finds := finds_of_allows answer allowed
  have foreign : ∀ event,
      (.performs .canceller ⟨op, answer⟩ :
        ThreadEvent Caller WorkflowCall WorkflowReturn agents) ≠
          .performs .executor event := by
    rintro event ⟨⟩
  constructor
  · rw [course_foreign foreign, search_performs]
    exact known.tracks.finds finds answers
  · rw [course_foreign foreign]
    exact known.recorded.foreign foreign
  · rw [search_performs]
    exact known.searched.finds finds

/-- Every run that keeps the two conditions. -/
theorem known_of_execution
    (execution : Execution (Threads.Step memoryOf (body parts))
      (Threads.idle {}) log system)
    (oneEach : OneEach log)
    (kept : NotOverwritten log)
    (attached : NoLateAttachment log) :
    Known log system.shared := by
  induction execution with
  | start => exact known_start
  | @extend log before after event past last induction =>
      have known := induction oneEach.earlier kept.earlier attached.earlier
      cases last with
      | calls caller call idle =>
          apply known.foreign
          rintro other event ⟨⟩
      | returns caller runs =>
          apply known.foreign
          rintro other event ⟨⟩
      | performs caller runs performed =>
          obtain ⟨answers, rfl⟩ := performed
          cases caller with
          | executor =>
              have holds := course_holds past oneEach.earlier runs
              exact known.executes holds.1 answers kept attached
          | canceller =>
              have holds := search_holds past oneEach.earlier runs
              exact known.cancels holds.1 answers

/-! ## Where a cancellation arrives -/

/--
The cancellation sets its flag after the workflow claimed the orchestrator,
and before the check that follows the last stage.
-/
structure InWindow (before after : WorkflowLog) : Prop where
  claimed :
    .performs .executor ⟨.exchange .orchestratorExecuting true, false⟩ ∈ before
  unchecked : ¬ (LastStageChecked before ∧
    ∀ stop, .performs .executor ⟨.load .cancelRequested, stop⟩ ∉ after)

/-- The workflow fails in preflight, in the factory, or at a callback. -/
def Excused (log : WorkflowLog) (result : OrchestrationResult) : Prop :=
  (∃ code message, result = preflightFailure code message) ∨
    (result.status = .failed ∧
      ∃ event, .performs .executor event ∈ log ∧ Excuses event)

/-- What a cancellation that arrives in time brings about. -/
structure NeverLost (log : WorkflowLog) : Prop where
  /-- The workflow returns as cancelled, unless it fails otherwise. -/
  status : ∀ before after,
    log = before ++
        .performs .canceller ⟨.store .cancelRequested true, ()⟩ :: after →
      InWindow before after → ∀ value, .returns .executor value ∈ log →
        ∃ result, value = .executed (.ok result) ∧
          (result.status = .cancelled ∨ Excused log result)
  /-- Once the cancellation has returned, no stage starts any work. -/
  stops : ∀ before after,
    log = before ++
        .performs .canceller ⟨.store .cancelRequested true, ()⟩ :: after →
      InWindow before after → ∀ past value since,
        log = past ++ .returns .canceller value :: since →
          ∀ op answer, .performs .executor ⟨op, answer⟩ ∈ since →
            ¬ StartsWork op

/-! ## The result of the workflow -/

/-- The flag stays set from the cancellation on. -/
theorem stored_of_requested
    (execution : Execution (Threads.Step memoryOf (body parts))
      (Threads.idle {}) log system)
    (oneEach : OneEach log)
    (kept : NotOverwritten log)
    (attached : NoLateAttachment log)
    (requested :
      .performs .canceller ⟨.store .cancelRequested true, ()⟩ ∈ log) :
    system.shared.flags .cancelRequested = true := by
  have known := known_of_execution execution oneEach kept attached
  exact known.tracks.requested (known.searched.requested.mpr requested)

/-- A check that found nothing came before the cancellation. -/
theorem not_requested_of_load
    {past since : WorkflowLog}
    (execution : Execution (Threads.Step memoryOf (body parts))
      (Threads.idle {})
      (past ++ .performs .executor ⟨.load .cancelRequested, false⟩ :: since)
      system)
    (oneEach : OneEach
      (past ++ .performs .executor ⟨.load .cancelRequested, false⟩ :: since))
    (kept : NotOverwritten
      (past ++ .performs .executor ⟨.load .cancelRequested, false⟩ :: since))
    (attached : NoLateAttachment
      (past ++ .performs .executor ⟨.load .cancelRequested, false⟩ ::
        since)) :
    .performs .canceller ⟨.store .cancelRequested true, ()⟩ ∉ past := by
  intro requested
  obtain ⟨source, target, earlier, step⟩ := execution.step_of_log
  have stored := stored_of_requested earlier oneEach.earlier kept.earlier
    attached.earlier requested
  cases step with
  | performs _ runs performed =>
      have unset : false = source.shared.flags .cancelRequested := performed.1
      rw [stored] at unset
      cases unset

/-- A workflow that returns uncancelled checked its last stage before. -/
theorem checked_of_settled
    {past rest before after : WorkflowLog} {value : WorkflowReturn}
    (execution : Execution (Threads.Step memoryOf (body parts))
      (Threads.idle {}) log system)
    (oneEach : OneEach log)
    (kept : NotOverwritten log)
    (attached : NoLateAttachment log)
    (returned : log = past ++ .returns .executor value :: rest)
    (checked : LastStageChecked past)
    (split : log = before ++
      .performs .canceller ⟨.store .cancelRequested true, ()⟩ :: after) :
    LastStageChecked before ∧
      ∀ stop, .performs .executor ⟨.load .cancelRequested, stop⟩ ∉ after := by
  obtain ⟨first, since, rfl, behind, kept'⟩ := checked
  have silent : ∀ stop, .performs .executor ⟨.load .cancelRequested, stop⟩ ∉
      since ++ .returns .executor value :: rest := by
    intro stop member
    rcases List.mem_append.mp member with earlier | later
    · exact kept' stop earlier
    · rcases List.mem_cons.mp later with same | later
      · cases same
      · have idle : Threads.eventsOf .executor rest = [] := by
          rw [returned] at execution
          apply Threads.CalledOnce.returned _ execution
          rw [← returned]
          exact oneEach.once .executor
        have performed := Threads.mem_eventsOf.mpr later
        rw [idle] at performed
        cases performed
  rw [List.append_assoc, List.cons_append] at returned
  subst returned
  have unrequested := not_requested_of_load execution oneEach kept attached
  rcases List.append_eq_append_iff.mp split with
    ⟨between, rfl, others⟩ | ⟨between, rfl, others⟩
  · cases between with
    | nil => cases others
    | cons load between =>
        injection others with same others
        subst same
        rw [others] at silent
        refine ⟨⟨first, between, rfl, behind, ?_⟩, ?_⟩
        · exact fun stop member =>
            silent stop (List.mem_append_left _ member)
        · exact fun stop member =>
            silent stop (List.mem_append_right _ (List.mem_cons_of_mem _ member))
  · cases between with
    | nil => cases others
    | cons store between =>
        injection others with same others
        subst same
        exact absurd (by simp) unrequested

/-- A workflow cancelled in time returns as cancelled, unless it failed. -/
theorem status_of_returned
    {before after : WorkflowLog} {value : WorkflowReturn}
    (execution : Execution (Threads.Step memoryOf (body parts))
      (Threads.idle {}) log system)
    (oneEach : OneEach log)
    (kept : NotOverwritten log)
    (attached : NoLateAttachment log)
    (split : log = before ++
      .performs .canceller ⟨.store .cancelRequested true, ()⟩ :: after)
    (window : InWindow before after)
    (returned : .returns .executor value ∈ log) :
    ∃ result, value = .executed (.ok result) ∧
      (result.status = .cancelled ∨ Excused log result) := by
  obtain ⟨past, rest, same⟩ := List.append_of_mem returned
  have run := execution
  rw [same] at run
  obtain ⟨source, target, earlier, step⟩ := run.step_of_log
  have earlierOnce : OneEach past := by
    rw [same] at oneEach
    exact oneEach.earlier
  have earlierKept : NotOverwritten past := by
    rw [same] at kept
    exact kept.earlier
  have earlierAttached : NoLateAttachment past := by
    rw [same] at attached
    exact attached.earlier
  have known :=
    known_of_execution earlier earlierOnce earlierKept earlierAttached
  cases step with
  | returns _ runs =>
      obtain ⟨outcome, rfl, result, rfl, ends⟩ :=
        course_holds earlier earlierOnce runs
      refine ⟨result, rfl, ?_⟩
      generalize reached : course past = atCourse at ends
      cases atCourse with
      | refused => exact absurd reached known.tracks.passed
      | preflight => exact Or.inr (Or.inl ends)
      | stopped => exact Or.inl ends
      | excused =>
          obtain ⟨event, member, excuses⟩ := known.recorded.excused reached
          refine Or.inr (Or.inr ⟨ends, event, ?_, excuses⟩)
          rw [same]
          exact List.mem_append_left _ member
      | settled =>
          exact absurd
            (checked_of_settled execution oneEach kept attached same
              (known.recorded.checked reached) split)
            window.unchecked
      | _ => exact ends.elim

/-! ## The stages after a cancellation -/

/-- Work is started in an attached session whose flag was read as unset. -/
theorem working
    {course : Course} {op : AgentOp}
    (allowed : course.Allows op)
    (starts : StartsWork op) :
    ∃ scope stage, course = .running scope stage (some false) ∧
      scope.active = true := by
  cases op with
  | startTurn request =>
      cases course with
      | running scope stage read =>
          exact ⟨scope, stage, by rw [allowed.2.2 trivial], allowed.1.2.1⟩
      | _ => exact allowed.elim
  | continueTurn request =>
      cases course with
      | running scope stage read =>
          exact ⟨scope, stage, by rw [allowed.2.2 trivial], allowed.1.2.1⟩
      | _ => exact allowed.elim
  | enterTool name arguments =>
      cases course with
      | running scope stage read =>
          exact ⟨scope, stage, by rw [allowed.2.2 trivial], allowed.1.2.1⟩
      | _ => exact allowed.elim
  | _ => exact starts.elim

/-- A check that found nothing came before the flag was set. -/
theorem not_cancelled_of_load
    {past since : WorkflowLog}
    (execution : Execution (Threads.Step memoryOf (body parts))
      (Threads.idle {})
      (past ++ .performs .executor ⟨.load .cancelled, false⟩ :: since)
      system)
    (oneEach : OneEach
      (past ++ .performs .executor ⟨.load .cancelled, false⟩ :: since))
    (kept : NotOverwritten
      (past ++ .performs .executor ⟨.load .cancelled, false⟩ :: since))
    (attached : NoLateAttachment
      (past ++ .performs .executor ⟨.load .cancelled, false⟩ :: since)) :
    .performs .canceller ⟨.store .cancelled true, ()⟩ ∉ past := by
  intro cancelled
  obtain ⟨source, target, earlier, step⟩ := execution.step_of_log
  have known := known_of_execution earlier oneEach.earlier kept.earlier
    attached.earlier
  have flagged :=
    known.tracks.flagged (known.searched.cancelled.mpr cancelled)
  cases step with
  | performs _ runs performed =>
      have unset : false = source.shared.flags .cancelled := performed.1
      rw [flagged] at unset
      cases unset

/-- The search of a cancellation that has returned is over. -/
theorem over_of_returned
    {past between : WorkflowLog} {value : WorkflowReturn}
    (execution : Execution (Threads.Step memoryOf (body parts))
      (Threads.idle {}) (past ++ .returns .canceller value :: between) system)
    (oneEach : OneEach (past ++ .returns .canceller value :: between)) :
    (search (past ++ .returns .canceller value :: between)).Over := by
  have idle :=
    Threads.CalledOnce.returned (oneEach.once .canceller) execution
  obtain ⟨source, target, earlier, step⟩ := execution.step_of_log
  cases step with
  | returns _ runs =>
      have finished : (search past).Over :=
        search_holds earlier oneEach.earlier runs
      rw [search, Threads.eventsOf, List.filterMap_append,
        List.filterMap_cons]
      change Search.Over ((Threads.eventsOf Caller.canceller past ++
        Threads.eventsOf Caller.canceller between).foldl _ _)
      rw [idle, List.append_nil]
      exact finished

/-- No stage starts any work once the search of the cancellation is over. -/
theorem no_work_after
    {past between rest : WorkflowLog} {value : WorkflowReturn}
    {op : AgentOp} {answer : agents.Answer op}
    (execution : Execution (Threads.Step memoryOf (body parts))
      (Threads.idle {})
      ((past ++ .returns .canceller value :: between) ++
        .performs .executor ⟨op, answer⟩ :: rest) system)
    (oneEach : OneEach
      ((past ++ .returns .canceller value :: between) ++
        .performs .executor ⟨op, answer⟩ :: rest))
    (atomic : AtomicChecks
      ((past ++ .returns .canceller value :: between) ++
        .performs .executor ⟨op, answer⟩ :: rest))
    (kept : NotOverwritten
      ((past ++ .returns .canceller value :: between) ++
        .performs .executor ⟨op, answer⟩ :: rest))
    (attached : NoLateAttachment
      ((past ++ .returns .canceller value :: between) ++
        .performs .executor ⟨op, answer⟩ :: rest)) :
    ¬ StartsWork op := by
  intro starts
  obtain ⟨source, target, earlier, step⟩ := execution.step_of_log
  have known := known_of_execution earlier oneEach.earlier kept.earlier
    attached.earlier
  have finished := over_of_returned earlier oneEach.earlier
  cases step with
  | performs _ runs performed =>
      obtain ⟨scope, stage, atCourse, active⟩ :=
        working (course_holds earlier oneEach.earlier runs).1 starts
      have inside : InRuntime
          (course (past ++ .returns .canceller value :: between)) := by
        rw [atCourse]
        trivial
      have isAttached : Attached
          (course (past ++ .returns .canceller value :: between)) := by
        rw [atCourse]
        exact active
      rcases finished with missed | missed | cancelled
      · exact known.tracks.missedRuntime missed inside
      · exact known.tracks.missedSession missed isAttached
      · have stored := known.searched.cancelled.mp cancelled
        obtain ⟨first, since, same, silent⟩ :=
          known.recorded.read scope stage atCourse
        rw [same] at stored earlier
        rcases List.mem_append.mp stored with before | later
        · refine not_cancelled_of_load earlier ?_ ?_ ?_ before
          · rw [← same]
            exact oneEach.earlier
          · rw [← same]
            exact kept.earlier
          · rw [← same]
            exact attached.earlier
        · rcases List.mem_cons.mp later with same | later
          · cases same
          · refine atomic first since op answer rest ?_ starts silent later
            rw [same]
            simp

/--
In every interleaving in which the workflow neither resets its flag after the
cancellation set it, nor attaches a session after the cancellation looked for
one, the cancellation is never lost.
-/
theorem workflow_cancellation_never_lost
    (execution : Execution (Threads.Step memoryOf (body parts))
      (Threads.idle {}) log system)
    (oneEach : OneEach log)
    (atomic : AtomicChecks log)
    (kept : NotOverwritten log)
    (attached : NoLateAttachment log) :
    NeverLost log where
  status before after split window value returned :=
    status_of_returned execution oneEach kept attached split window returned
  stops before after split window past value since returned op answer
      performed := by
    obtain ⟨between, rest, rfl⟩ := List.append_of_mem performed
    subst returned
    rw [← List.cons_append, ← List.append_assoc] at execution oneEach
    rw [← List.cons_append, ← List.append_assoc] at atomic kept attached
    exact no_work_after execution oneEach atomic kept attached

end Runs

/-! ## Runs that keep or break the conditions -/

abbrev WorkflowEntry := ThreadEvent Caller WorkflowCall WorkflowReturn agents

/-- The caller begins a call. -/
def calledBy (caller : Caller) : WorkflowEntry → Bool
  | .calls other _ => other = caller
  | _ => false

/-- A call is made by the caller that does not serve it. -/
def misplaced : WorkflowEntry → Bool
  | .calls .executor (.cancel _) => true
  | .calls .canceller (.execute _ _ _ _ _ _ _) => true
  | _ => false

def isClaim : WorkflowEntry → Bool
  | .performs .executor ⟨.exchange .orchestratorExecuting true, busy⟩ => !busy
  | _ => false

def isReset : WorkflowEntry → Bool
  | .performs .executor ⟨.store .cancelRequested false, _⟩ => true
  | _ => false

def isClear : WorkflowEntry → Bool
  | .performs .executor ⟨.clear .activeRuntime, _⟩ => true
  | _ => false

def isAttachment : WorkflowEntry → Bool
  | .performs .executor ⟨.publish .activeSession, _⟩ => true
  | _ => false

def isWork : WorkflowEntry → Bool
  | .performs .executor ⟨.startTurn _, _⟩ => true
  | .performs .executor ⟨.continueTurn _, _⟩ => true
  | .performs .executor ⟨.enterTool _ _, _⟩ => true
  | _ => false

def isRequest : WorkflowEntry → Bool
  | .performs .canceller ⟨.store .cancelRequested true, _⟩ => true
  | _ => false

def isVainLook : WorkflowEntry → Bool
  | .performs .canceller ⟨.present .activeSession, found⟩ => !found
  | _ => false

def isFlagging : WorkflowEntry → Bool
  | .performs .canceller ⟨.store .cancelled true, _⟩ => true
  | _ => false

def isCancelReturn : WorkflowEntry → Bool
  | .returns .canceller _ => true
  | _ => false

/-- The workflow returns as completed. -/
def isCompletion : WorkflowEntry → Bool
  | .returns .executor (.executed (.ok result)) => result.status = .completed
  | _ => false

section Checks

variable {log : WorkflowLog}

/-- Every caller makes one call, and only the calls it serves. -/
def separate (log : WorkflowLog) : Bool :=
  !log.any misplaced &&
    !Threads.followed (calledBy .executor) (calledBy .executor) log &&
    !Threads.followed (calledBy .canceller) (calledBy .canceller) log

theorem oneEach_of_checks
    (separated : separate log = true) :
    OneEach log := by
  simp only [separate, Bool.and_eq_true, Bool.not_eq_true'] at separated
  obtain ⟨⟨placed, executes⟩, cancels⟩ := separated
  constructor
  · rintro caller past call since rfl other member
    cases caller with
    | executor =>
        exact Threads.not_mem_of_not_followed executes rfl rfl member
    | canceller =>
        exact Threads.not_mem_of_not_followed cancels rfl rfl member
  · intro caller call member
    have served := List.any_eq_false.mp placed _ member
    cases caller <;> cases call <;>
      first
      | exact trivial
      | exact absurd rfl served

theorem atomicChecks_of_checks
    (idle : Threads.followed isFlagging isWork log = false) :
    AtomicChecks log := by
  rintro before between op answer after rfl starts _ member
  obtain ⟨first, since, rfl⟩ := List.append_of_mem member
  have split : ∀ work : WorkflowEntry,
      before ++ .performs .executor ⟨.load .cancelled, false⟩ ::
          ((first ++ .performs .canceller ⟨.store .cancelled true, ()⟩ ::
            since) ++ work :: after) =
        (before ++ .performs .executor ⟨.load .cancelled, false⟩ :: first) ++
          .performs .canceller ⟨.store .cancelled true, ()⟩ ::
            (since ++ work :: after) := by
    simp
  rw [split] at idle
  have working : isWork (.performs .executor ⟨op, answer⟩) = true := by
    cases op with
    | startTurn request => rfl
    | continueTurn request => rfl
    | enterTool name arguments => rfl
    | _ => exact starts.elim
  exact Threads.not_mem_of_not_followed idle rfl working (by simp)

theorem notOverwritten_of_checks
    (kept : Threads.followed isRequest isReset log = false) :
    NotOverwritten log := by
  rintro before after rfl
  exact Threads.not_mem_of_not_followed kept rfl rfl

theorem noLateAttachment_of_checks
    (attached : Threads.followed isVainLook isAttachment log = false) :
    NoLateAttachment log := by
  rintro before after rfl
  exact Threads.not_mem_of_not_followed attached rfl rfl

/-- The cancellation follows the claim, and no stage was left before it. -/
theorem inWindow_of_checks
    (claimed : Threads.followed isClaim isRequest log = true)
    (unchecked : Threads.followed isClear isRequest log = false) :
    ∃ before after,
      log = before ++
          .performs .canceller ⟨.store .cancelRequested true, ()⟩ :: after ∧
        InWindow before after := by
  obtain ⟨past, claim, since, rfl, claims, request, member, requests⟩ :=
    Threads.followed_iff.mp claimed
  obtain ⟨between, after, rfl⟩ := List.append_of_mem member
  have sameClaim : claim = .performs .executor
      ⟨.exchange .orchestratorExecuting true, false⟩ := by
    unfold isClaim at claims
    split at claims
    · rename_i busy
      cases busy with
      | false => rfl
      | true => cases claims
    · cases claims
  have sameRequest : request = .performs .canceller
      ⟨.store .cancelRequested true, ()⟩ := by
    unfold isRequest at requests
    split at requests
    · rfl
    · cases requests
  subst sameClaim
  subst sameRequest
  refine ⟨past ++ .performs .executor
    ⟨.exchange .orchestratorExecuting true, false⟩ :: between, after,
    by simp, by simp, ?_⟩
  rintro ⟨⟨first, rest, split, ⟨cleared, later, rfl, _⟩, _⟩, _⟩
  rw [← List.cons_append, ← List.append_assoc, split] at unchecked
  rw [List.append_assoc, List.append_assoc, List.cons_append] at unchecked
  have sets : isRequest (.performs .canceller
      ⟨.store .cancelRequested true, ()⟩) = true := rfl
  exact Threads.not_mem_of_not_followed unchecked rfl sets (by simp)

/-- A cancellation in time is lost where the workflow completes. -/
theorem lost_of_completed
    (claimed : Threads.followed isClaim isRequest log = true)
    (unchecked : Threads.followed isClear isRequest log = false)
    (completed : log.any isCompletion = true) :
    ¬ NeverLost log := by
  intro never
  obtain ⟨before, after, split, window⟩ :=
    inWindow_of_checks claimed unchecked
  obtain ⟨entry, member, completes⟩ := List.any_eq_true.mp completed
  unfold isCompletion at completes
  split at completes
  · rename_i result
    have status : result.status = .completed := of_decide_eq_true completes
    obtain ⟨_, ⟨⟩, cancelled | ⟨code, message, rfl⟩ | ⟨failed, _⟩⟩ :=
      never.status before after split window _ member
    · rw [status] at cancelled
      cases cancelled
    · cases status
    · rw [status] at failed
      cases failed
  · cases completes

/-- A cancellation in time is lost where a stage works after it returned. -/
theorem lost_of_work
    (claimed : Threads.followed isClaim isRequest log = true)
    (unchecked : Threads.followed isClear isRequest log = false)
    (worked : Threads.followed isCancelReturn isWork log = true) :
    ¬ NeverLost log := by
  intro never
  obtain ⟨before, after, split, window⟩ :=
    inWindow_of_checks claimed unchecked
  obtain ⟨past, left, since, rfl, leaves, work, member, works⟩ :=
    Threads.followed_iff.mp worked
  unfold isCancelReturn at leaves
  split at leaves
  · unfold isWork at works
    split at works
    · exact never.stops before after split window past _ since rfl _ _ member
        trivial
    · exact never.stops before after split window past _ since rfl _ _ member
        trivial
    · exact never.stops before after split window past _ since rfl _ _ member
        trivial
    · cases works
  · cases leaves

end Checks

/-- A workflow of four runtimes that do not know any tool. -/
def fourRuntimes : OrchestratorParts where
  registry := OrchestrationFlow.fourProfiles
  hasFactory := true
  json := .knowing []
  runtimes _ :=
    { hasProvider := true
      apiKey := "key"
      model := "model"
      bindings := [] }

/--
The execution makes some of its steps, then the cancellation is made, then the
execution goes on.
-/
def cancelledAfter (steps : Nat) :
    Threads.Played Caller WorkflowCall WorkflowReturn (Memory Caller) agents :=
  Threads.play (scheduled fun _ _ => quiet) (body fourRuntimes) {}
    (.starts .executor (.execute
        { id := "t", objective := "Fix it", workingDirectory := "/w" }
        false false false false false false) ::
      List.replicate steps (.continues .executor) ++
      .starts .canceller (.cancel
        { hasProvider := true
          apiKey := "key"
          model := "model"
          bindings := [] }) ::
      List.replicate 13 (.continues .canceller) ++
      List.replicate 200 (.continues .executor))

theorem cancelledAfter_execution (steps : Nat) :
    Execution (Threads.Step memoryOf (body fourRuntimes)) (Threads.idle {})
      (cancelledAfter steps).log (cancelledAfter steps).system :=
  Threads.play_execution (scheduled_performs fun _ _ => quiet) _

/-- The cancellation finds the session of the first stage attached. -/
theorem workflow_cancellation_never_lost_attached :
    NeverLost (cancelledAfter 23).log := by
  have checks : separate (cancelledAfter 23).log = true ∧
      Threads.followed isFlagging isWork (cancelledAfter 23).log = false ∧
      Threads.followed isRequest isReset (cancelledAfter 23).log = false ∧
      Threads.followed isVainLook isAttachment (cancelledAfter 23).log =
        false := by
    decide +kernel
  obtain ⟨separated, idle, kept, attached⟩ := checks
  exact workflow_cancellation_never_lost (cancelledAfter_execution 23)
    (oneEach_of_checks separated) (atomicChecks_of_checks idle)
    (notOverwritten_of_checks kept) (noLateAttachment_of_checks attached)

/--
Neither condition can be dropped.  A cancellation between the claim and the
reset is overwritten, and the workflow completes; behind a cancellation that
came between the check and the attachment, the stage starts its turn.
-/
theorem workflow_cancellation_lost :
    (Execution (Threads.Step memoryOf (body fourRuntimes)) (Threads.idle {})
        (cancelledAfter 1).log (cancelledAfter 1).system ∧
      OneEach (cancelledAfter 1).log ∧ AtomicChecks (cancelledAfter 1).log ∧
      NoLateAttachment (cancelledAfter 1).log ∧
      ¬ NeverLost (cancelledAfter 1).log) ∧
    Execution (Threads.Step memoryOf (body fourRuntimes)) (Threads.idle {})
        (cancelledAfter 10).log (cancelledAfter 10).system ∧
      OneEach (cancelledAfter 10).log ∧ AtomicChecks (cancelledAfter 10).log ∧
      NotOverwritten (cancelledAfter 10).log ∧
      ¬ NeverLost (cancelledAfter 10).log := by
  constructor
  · have checks : separate (cancelledAfter 1).log = true ∧
        Threads.followed isFlagging isWork (cancelledAfter 1).log = false ∧
        Threads.followed isVainLook isAttachment (cancelledAfter 1).log =
          false ∧
        Threads.followed isClaim isRequest (cancelledAfter 1).log = true ∧
        Threads.followed isClear isRequest (cancelledAfter 1).log = false ∧
        (cancelledAfter 1).log.any isCompletion = true := by
      decide +kernel
    obtain ⟨separated, idle, attached, claimed, unchecked, completed⟩ := checks
    exact ⟨cancelledAfter_execution 1, oneEach_of_checks separated,
      atomicChecks_of_checks idle, noLateAttachment_of_checks attached,
      lost_of_completed claimed unchecked completed⟩
  · have checks : separate (cancelledAfter 10).log = true ∧
        Threads.followed isFlagging isWork (cancelledAfter 10).log = false ∧
        Threads.followed isRequest isReset (cancelledAfter 10).log = false ∧
        Threads.followed isClaim isRequest (cancelledAfter 10).log = true ∧
        Threads.followed isClear isRequest (cancelledAfter 10).log = false ∧
        Threads.followed isCancelReturn isWork (cancelledAfter 10).log =
          true := by
      decide +kernel
    obtain ⟨separated, idle, kept, claimed, unchecked, worked⟩ := checks
    exact ⟨cancelledAfter_execution 10, oneEach_of_checks separated,
      atomicChecks_of_checks idle, notOverwritten_of_checks kept,
      lost_of_work claimed unchecked worked⟩

end ArnCore.Agent.WorkflowCancellation
