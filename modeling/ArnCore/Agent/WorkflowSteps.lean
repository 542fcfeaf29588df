import ArnCore.Agent.SharedMemory
import ArnCore.Agent.WorkflowProtocol

/-!
# The steps of a workflow and of its cancellation

One workflow over runtimes and one cancellation of it share the memory of the
agent layer.  What one step of either can do is said once; what their events
record and what the memory shows is preserved by every step, as long as the
workflow neither resets its flag after the cancellation set it nor attaches a
session after the cancellation looked for one.
-/

namespace ArnCore.Agent.WorkflowSteps

open ArnCore.Interaction
open ArnCore.Provider
open ArnCore.Agent.Environment
open ArnCore.Agent.GuardedWork
open ArnCore.Agent.SharedMemory
open ArnCore.Agent.WorkflowProtocol

/-! ## One execution and one cancellation -/

inductive Caller where
  | executor
  | canceller
deriving DecidableEq

abbrev WorkflowLog :=
  List (ThreadEvent Caller WorkflowCall WorkflowReturn agents)

abbrev WorkflowThreads :=
  Threads Caller WorkflowReturn (Memory Caller) agents

/-- The executor executes and the canceller cancels. -/
def Serves : Caller → WorkflowCall → Prop
  | .executor, .execute _ _ _ _ _ _ _ => True
  | .canceller, .cancel _ => True
  | _, _ => False

/-- One execution and one cancellation. -/
structure OneEach (log : WorkflowLog) : Prop where
  once : ∀ caller, Threads.CalledOnce caller log
  roles : ∀ caller call, .calls caller call ∈ log → Serves caller call

theorem OneEach.earlier
    {log more : WorkflowLog}
    (oneEach : OneEach (log ++ more)) :
    OneEach log where
  once caller := (oneEach.once caller).earlier
  roles caller call member :=
    oneEach.roles caller call (List.mem_append_left _ member)

/-- The course of the workflow that a log shows. -/
def course (log : WorkflowLog) : Course :=
  (Threads.eventsOf .executor log).foldl Course.after .entering

/-- What the cancellation in a log has found. -/
def search (log : WorkflowLog) : Search :=
  (Threads.eventsOf .canceller log).foldl Search.after .storing

theorem course_performs (log : WorkflowLog) (event : AgentEvent) :
    course (log ++ [.performs .executor event]) =
      (course log).after event := by
  rw [course, Threads.eventsOf, List.filterMap_append, List.foldl_append]
  rfl

theorem search_performs (log : WorkflowLog) (event : AgentEvent) :
    search (log ++ [.performs .canceller event]) =
      (search log).after event := by
  rw [search, Threads.eventsOf, List.filterMap_append, List.foldl_append]
  rfl

/-- What is not a step of the workflow does not change its course. -/
theorem course_foreign
    {log : WorkflowLog}
    {entry : ThreadEvent Caller WorkflowCall WorkflowReturn agents}
    (other : ∀ event, entry ≠ .performs .executor event) :
    course (log ++ [entry]) = course log := by
  have silent : Threads.eventOf .executor entry = none := by
    cases entry with
    | performs caller event =>
        cases caller with
        | executor => exact absurd rfl (other event)
        | canceller => rfl
    | _ => rfl
  rw [course, Threads.eventsOf, List.filterMap_append]
  simp [silent, course, Threads.eventsOf]

/-- What is not a step of the cancellation does not change its search. -/
theorem search_foreign
    {log : WorkflowLog}
    {entry : ThreadEvent Caller WorkflowCall WorkflowReturn agents}
    (other : ∀ event, entry ≠ .performs .canceller event) :
    search (log ++ [entry]) = search log := by
  have silent : Threads.eventOf .canceller entry = none := by
    cases entry with
    | performs caller event =>
        cases caller with
        | canceller => exact absurd rfl (other event)
        | executor => rfl
    | _ => rfl
  rw [search, Threads.eventsOf, List.filterMap_append]
  simp [silent, search, Threads.eventsOf]

section Runs

variable {parts : OrchestratorParts} {log : WorkflowLog}
  {system : WorkflowThreads}

/-- What a caller is running is what its call has come to. -/
theorem run_of_running
    (execution : Execution (Threads.Step memoryOf (body parts))
      (Threads.idle {}) log system)
    (oneEach : OneEach log)
    {caller : Caller} {rest : Program agents WorkflowReturn}
    (runs : system.running caller = some rest) :
    ∃ call, Serves caller call ∧
      (body parts call).Runs (Threads.eventsOf caller log) rest := by
  have running := Threads.runs_current execution caller
  rw [runs] at running
  generalize atCall : Threads.current log caller = called at running
  cases running with
  | @runs call history _ run =>
      obtain ⟨called, same⟩ :=
        (oneEach.once caller).current execution atCall
      refine ⟨call, oneEach.roles caller call called, ?_⟩
      rwa [same]

/-- The executor does what the course of the workflow allows. -/
theorem course_holds
    (execution : Execution (Threads.Step memoryOf (body parts))
      (Threads.idle {}) log system)
    (oneEach : OneEach log)
    {rest : Program agents WorkflowReturn}
    (runs : system.running .executor = some rest) :
    rest.Holds (monitored Course.after) Course.Allows
      (fun course value =>
        ∃ outcome, value = .executed outcome ∧ course.Returns outcome)
      (course log) := by
  obtain ⟨call, serves, run⟩ := run_of_running execution oneEach runs
  cases call with
  | execute task started finished continuation text progress attached =>
      exact ((execute_verified task).runs run).2
  | cancel active => exact serves.elim

/-- The canceller does what its search allows. -/
theorem search_holds
    (execution : Execution (Threads.Step memoryOf (body parts))
      (Threads.idle {}) log system)
    (oneEach : OneEach log)
    {rest : Program agents WorkflowReturn}
    (runs : system.running .canceller = some rest) :
    rest.Holds (monitored Search.after) Search.Allows
      (fun search _ => search.Over) (search log) := by
  obtain ⟨call, serves, run⟩ := run_of_running execution oneEach runs
  cases call with
  | execute => exact serves.elim
  | cancel active => exact ((cancel_verified active).runs run).2

end Runs

/-! ## What one step can do -/

/-- The workflow fails in the factory, or because a callback threw. -/
def Excuses : AgentEvent → Prop
  | ⟨.createRuntime _, .ok made⟩ => made = false
  | ⟨.createRuntime _, .error _⟩ => True
  | ⟨.stageFinished _ _, .error _⟩ => True
  | ⟨.beforeNextStage _ _ _, .error _⟩ => True
  | _ => False

/-- The workflow is about to enter the runtime of a stage, or inside it. -/
def InRuntime : Course → Prop
  | .starting => True
  | .running _ _ _ => True
  | _ => False

/-- The runtime of a stage is published, and has not been left. -/
def Published : Course → Prop
  | .published => True
  | .starting => True
  | .running _ _ _ => True
  | _ => False

/-- The session of the running stage is attached. -/
def Attached : Course → Prop
  | .running scope _ _ => scope.active = true
  | _ => False

/-- The running stage has attached its session, or detached it already. -/
def Later : Course → Prop
  | .starting => False
  | .running _ stage _ => stage.Later
  | _ => True

/-- What a workflow does between its stages without showing it. -/
def Silent : AgentOp → Prop
  | .lock .orchestrator => True
  | .unlock .orchestrator => True
  | .construct .runtime => True
  | .destroy .runtime => True
  | .store .orchestratorExecuting false => True
  | .stageStarted _ => True
  | .stageFinished _ _ => True
  | .beforeNextStage _ _ _ => True
  | _ => False

/-- Where a check that finds the flag unset leads. -/
inductive Passes : Course → Course → Prop where
  | first : Passes .preflight .chosen
  | guards : Passes .published .starting
  | settles : Passes .cleared .settled
  | again : Passes .settled .settled

/-- What one step of a workflow can do. -/
inductive Moves : Course → AgentEvent → Course → Prop where
  | refuses :
      Moves .entering ⟨.exchange .orchestratorExecuting true, true⟩ .refused
  | claims :
      Moves .entering ⟨.exchange .orchestratorExecuting true, false⟩ .claimed
  | resets : Moves .claimed ⟨.store .cancelRequested false, ()⟩ .preflight
  | stops {course : Course}
      (outside : ¬ InRuntime course) :
      Moves course ⟨.load .cancelRequested, true⟩ .stopped
  | proceeds {course next : Course}
      (passes : Passes course next) :
      Moves course ⟨.load .cancelRequested, false⟩ next
  | stays {course : Course} {op : AgentOp} {answer : agents.Answer op}
      (silent : Silent op) :
      Moves course ⟨op, answer⟩ course
  | creates {course : Course} {profile : AgentProfile}
      (outside : ¬ InRuntime course) :
      Moves course ⟨.createRuntime profile, .ok true⟩ .created
  | excuses {course : Course} {event : AgentEvent}
      (outside : ¬ InRuntime course)
      (excuses : Excuses event) :
      Moves course event .excused
  | publishes : Moves .created ⟨.publish .activeRuntime, ()⟩ .published
  | clears {course next : Course}
      (outside : ¬ InRuntime course)
      (left : next = .cleared ∨ next = .stopped) :
      Moves course ⟨.clear .activeRuntime, ()⟩ next
  | enters :
      Moves .starting ⟨.exchange .runtimeExecuting true, false⟩
        (.running {} .untouched none)
  | misses : Moves .starting ⟨.exchange .runtimeExecuting true, true⟩ .ran
  | runs {scope : RuntimeProtocol.Scope} {stage : RuntimeStages.Stage}
      {read : Option Bool} {op : AgentOp} {answer : agents.Answer op}
      (stays : ∀ value, op ≠ .store .runtimeExecuting value)
      (permitted : scope.Allows op)
      (staged : stage.Allows op) :
      Moves (.running scope stage read) ⟨op, answer⟩
        (.running (scope.after op) (stage.after ⟨op, answer⟩)
          (lastCheck read ⟨op, answer⟩))
  | leaves {stage : RuntimeStages.Stage} {read : Option Bool} :
      Moves (.running {} stage read) ⟨.store .runtimeExecuting false, ()⟩ .ran

theorem moves_of_claim (busy : Bool) :
    Moves .entering ⟨.exchange .orchestratorExecuting true, busy⟩
      (bif busy then .refused else .claimed) := by
  cases busy with
  | true => exact .refuses
  | false => exact .claims

theorem moves_of_check
    {course next : Course}
    (passes : Passes course next)
    (stop : Bool) :
    Moves course ⟨.load .cancelRequested, stop⟩
      (Course.checked next stop) := by
  cases stop with
  | true => exact .stops (by cases passes <;> exact id)
  | false => exact .proceeds passes

theorem moves_of_made
    {course : Course} {profile : AgentProfile}
    (outside : ¬ InRuntime course)
    (outcome : Except Exception Bool) :
    Moves course ⟨.createRuntime profile, outcome⟩ (Course.made outcome) := by
  rcases outcome with failure | _ | _
  · exact .excuses outside trivial
  · exact .excuses outside rfl
  · exact .creates outside

theorem moves_of_finish
    {profileId : String} {result : AgentResult}
    (outcome : Except Exception Unit) :
    Moves .cleared ⟨.stageFinished profileId result, outcome⟩
      (Course.unlessThrown .cleared outcome) := by
  cases outcome with
  | error failure => exact .excuses id trivial
  | ok value => exact .stays trivial

theorem moves_of_decision
    {profileId : String} {result : AgentResult} {artifact : ContextArtifact}
    (outcome : Except Exception ContinuationDecision) :
    Moves .settled ⟨.beforeNextStage profileId result artifact, outcome⟩
      (Course.unlessThrown .settled outcome) := by
  cases outcome with
  | error failure => exact .excuses id trivial
  | ok value => exact .stays trivial

theorem moves_of_gate (busy : Bool) :
    Moves .starting ⟨.exchange .runtimeExecuting true, busy⟩
      (bif busy then .ran else .running {} .untouched none) := by
  cases busy with
  | true => exact .misses
  | false => exact .enters

theorem moves_of_running
    {scope : RuntimeProtocol.Scope} {stage : RuntimeStages.Stage}
    {read : Option Bool} {op : AgentOp} (answer : agents.Answer op)
    (allowed : (Course.running scope stage read).Allows op) :
    Moves (.running scope stage read) ⟨op, answer⟩
      ((Course.running scope stage read).after ⟨op, answer⟩) := by
  obtain ⟨permitted, staged, _⟩ := allowed
  by_cases stays : ∀ value, op ≠ .store .runtimeExecuting value
  · rw [after_running stays]
    exact .runs stays permitted staged
  · obtain ⟨value, same⟩ := not_forall.mp stays
    obtain rfl := not_not.mp same
    cases value with
    | true => exact permitted.1.elim
    | false =>
        obtain rfl : scope = {} := permitted
        exact .leaves

/-- A workflow makes the steps its course allows. -/
theorem moves_of_allows
    {course : Course} {op : AgentOp} (answer : agents.Answer op)
    (allowed : course.Allows op) :
    Moves course ⟨op, answer⟩ (course.after ⟨op, answer⟩) := by
  unfold Course.Allows at allowed
  split at allowed
  all_goals
    first
    | exact .stays trivial
    | exact moves_of_claim answer
    | exact .resets
    | exact moves_of_check .first answer
    | exact moves_of_check .guards answer
    | exact moves_of_check .settles answer
    | exact moves_of_check .again answer
    | exact moves_of_made id answer
    | exact .publishes
    | exact .clears id (Or.inl rfl)
    | exact .clears id (Or.inr rfl)
    | exact moves_of_gate answer
    | exact moves_of_running answer allowed
    | exact moves_of_finish answer
    | exact moves_of_decision answer
    | exact allowed.elim

/-- What one step of a cancellation can do. -/
inductive Finds : Search → AgentEvent → Search → Prop where
  | requests : Finds .storing ⟨.store .cancelRequested true, ()⟩ .stored
  | looks (found : Bool) :
      Finds .stored ⟨.present .activeRuntime, found⟩
        (bif found then .foundRuntime else .missedRuntime)
  | inspects (found : Bool) :
      Finds .foundRuntime ⟨.present .activeSession, found⟩
        (bif found then .foundSession else .missedSession)
  | flags : Finds .foundSession ⟨.store .cancelled true, ()⟩ .cancelled
  | rests {search : Search} {op : AgentOp} {answer : agents.Answer op}
      (quiet : Search.Quiet op) :
      Finds search ⟨op, answer⟩ search

/-- What is quiet does not change what was found. -/
theorem finds_of_quiet
    {search : Search} {op : AgentOp} (answer : agents.Answer op)
    (quiet : Search.Quiet op) :
    Finds search ⟨op, answer⟩ (search.after ⟨op, answer⟩) := by
  have same : search.after ⟨op, answer⟩ = search := by
    cases op with
    | lock name => cases search <;> rfl
    | unlock name => cases search <;> rfl
    | cancelProvider => cases search <;> rfl
    | present name =>
        cases name with
        | activeProvider => cases search <;> rfl
        | _ => exact quiet.elim
    | _ => exact quiet.elim
  rw [same]
  exact .rests quiet

/-- A cancellation makes the steps its search allows. -/
theorem finds_of_allows
    {search : Search} {op : AgentOp} (answer : agents.Answer op)
    (allowed : search.Allows op) :
    Finds search ⟨op, answer⟩ (search.after ⟨op, answer⟩) := by
  cases search with
  | storing =>
      obtain rfl : op = .store .cancelRequested true := allowed
      exact .requests
  | stored =>
      rcases allowed with rfl | rfl
      · exact .rests trivial
      · exact .looks answer
  | foundRuntime =>
      rcases allowed with rfl | rfl
      · exact .rests trivial
      · exact .inspects answer
  | foundSession =>
      obtain rfl : op = .store .cancelled true := allowed
      exact .flags
  | _ => exact finds_of_quiet answer allowed

/-! ## What a log records -/

/-- The workflow left its last runtime, and has published no other one. -/
def BehindStage (log : WorkflowLog) : Prop :=
  Threads.Within (⟨.clear .activeRuntime, ()⟩ : AgentEvent)
    ⟨.publish .activeRuntime, ()⟩ log .executor

/-- The last check of the workflow follows a stage, and found nothing. -/
def LastStageChecked (log : WorkflowLog) : Prop :=
  ∃ past since,
    log = past ++ .performs .executor ⟨.load .cancelRequested, false⟩ ::
        since ∧
      BehindStage past ∧
        ∀ stop, .performs .executor ⟨.load .cancelRequested, stop⟩ ∉ since

/-- The execution has last read its flag as unset. -/
def ReadUnset (log : WorkflowLog) : Prop :=
  ∃ past since,
    log = past ++ .performs .executor ⟨.load .cancelled, false⟩ :: since ∧
      ∀ stop, .performs .executor ⟨.load .cancelled, stop⟩ ∉ since

/-- The events that brought a workflow to its course. -/
structure Recorded (course : Course) (log : WorkflowLog) : Prop where
  excused : course = .excused →
    ∃ event, .performs .executor event ∈ log ∧ Excuses event
  behind : course = .cleared ∨ course = .settled → BehindStage log
  checked : course = .settled → LastStageChecked log
  read : ∀ scope stage, course = .running scope stage (some false) →
    ReadUnset log

/-- The events that brought a cancellation to what it has found. -/
structure Searched (search : Search) (log : WorkflowLog) : Prop where
  requested : search ≠ .storing ↔
    .performs .canceller ⟨.store .cancelRequested true, ()⟩ ∈ log
  missed : search = .missedSession ↔
    .performs .canceller ⟨.present .activeSession, false⟩ ∈ log
  cancelled : search = .cancelled ↔
    .performs .canceller ⟨.store .cancelled true, ()⟩ ∈ log

section Records

variable {log : WorkflowLog} {course next : Course} {search found : Search}
  {event : AgentEvent}
  {entry : ThreadEvent Caller WorkflowCall WorkflowReturn agents}

theorem LastStageChecked.snoc
    (checked : LastStageChecked log)
    (silent : ∀ stop,
      entry ≠ .performs .executor ⟨.load .cancelRequested, stop⟩) :
    LastStageChecked (log ++ [entry]) := by
  obtain ⟨past, since, rfl, behind, kept⟩ := checked
  refine ⟨past, since ++ [entry], by simp, behind, ?_⟩
  intro stop member
  rcases List.mem_append.mp member with earlier | last
  · exact kept stop earlier
  · exact silent stop (List.mem_singleton.mp last).symm

theorem ReadUnset.snoc
    (read : ReadUnset log)
    (silent : ∀ stop,
      entry ≠ .performs .executor ⟨.load .cancelled, stop⟩) :
    ReadUnset (log ++ [entry]) := by
  obtain ⟨past, since, rfl, kept⟩ := read
  refine ⟨past, since ++ [entry], by simp, ?_⟩
  intro stop member
  rcases List.mem_append.mp member with earlier | last
  · exact kept stop earlier
  · exact silent stop (List.mem_singleton.mp last).symm

theorem BehindStage.snoc
    (behind : BehindStage log)
    (stays : entry ≠ .performs .executor ⟨.publish .activeRuntime, ()⟩) :
    BehindStage (log ++ [entry]) :=
  Threads.within_snoc.mpr (Or.inr ⟨behind, stays⟩)

/-- What somebody else does is not recorded of the workflow. -/
theorem Recorded.foreign
    (recorded : Recorded course log)
    (other : ∀ event, entry ≠ .performs .executor event) :
    Recorded course (log ++ [entry]) where
  excused atCourse := by
    obtain ⟨event, member, excuses⟩ := recorded.excused atCourse
    exact ⟨event, List.mem_append_left _ member, excuses⟩
  behind atCourse := (recorded.behind atCourse).snoc (other _)
  checked atCourse := (recorded.checked atCourse).snoc fun _ => other _
  read scope stage atCourse :=
    (recorded.read scope stage atCourse).snoc fun _ => other _

/-- The read of a running execution is what it has last checked. -/
theorem ReadUnset.lastCheck
    {read : Option Bool}
    (recorded : read = some false → ReadUnset log)
    (reads : lastCheck read event = some false) :
    ReadUnset (log ++ [.performs .executor event]) := by
  obtain ⟨op, answer⟩ := event
  by_cases loads : op = .load .cancelled
  · subst loads
    obtain rfl : answer = false := Option.some.inj reads
    exact ⟨log, [], rfl, fun _ member => by cases member⟩
  · have same : GuardedWork.lastCheck read ⟨op, answer⟩ = read := by
      cases op with
      | load name =>
          cases name with
          | cancelled => exact absurd rfl loads
          | _ => rfl
      | _ => rfl
    refine (recorded (same.symm.trans reads)).snoc ?_
    rintro stop ⟨⟩
    exact loads rfl

/-- A step of the workflow is recorded where it is made. -/
theorem Recorded.moves
    (recorded : Recorded course log)
    (moves : Moves course event next) :
    Recorded next (log ++ [.performs .executor event]) := by
  cases moves with
  | stays silent =>
      constructor
      · intro atCourse
        obtain ⟨event, member, excuses⟩ := recorded.excused atCourse
        exact ⟨event, List.mem_append_left _ member, excuses⟩
      · intro atCourse
        apply (recorded.behind atCourse).snoc
        rintro ⟨⟩
        exact silent
      · intro atCourse
        apply (recorded.checked atCourse).snoc
        rintro stop ⟨⟩
        exact silent
      · intro scope stage atCourse
        apply (recorded.read scope stage atCourse).snoc
        rintro stop ⟨⟩
        exact silent
  | proceeds passes =>
      have behind : next = .settled → BehindStage log := by
        rintro rfl
        cases passes with
        | settles => exact recorded.behind (Or.inl rfl)
        | again => exact recorded.behind (Or.inr rfl)
      constructor
      · rintro rfl
        cases passes
      · rintro (rfl | rfl)
        · cases passes
        · exact (behind rfl).snoc (by rintro ⟨⟩)
      · intro atCourse
        exact ⟨log, [], rfl, behind atCourse,
          fun _ member => by cases member⟩
      · rintro scope stage rfl
        cases passes
  | excuses outside excuses =>
      constructor
      · exact fun _ => ⟨event, by simp, excuses⟩
      · rintro (atCourse | atCourse) <;> cases atCourse
      · rintro ⟨⟩
      · rintro scope stage ⟨⟩
  | clears outside left =>
      constructor
      · rintro rfl
        rcases left with left | left <;> cases left
      · exact fun _ => Threads.within_snoc.mpr (Or.inl rfl)
      · rintro rfl
        rcases left with left | left <;> cases left
      · rintro scope stage rfl
        rcases left with left | left <;> cases left
  | runs stays permitted staged =>
      constructor
      · rintro ⟨⟩
      · rintro (atCourse | atCourse) <;> cases atCourse
      · rintro ⟨⟩
      · intro scope stage atCourse
        injection atCourse with _ _ reads
        exact ReadUnset.lastCheck
          (fun wasUnset => recorded.read _ _ (by rw [wasUnset])) reads
  | _ =>
      constructor
      · rintro ⟨⟩
      · rintro (atCourse | atCourse) <;> cases atCourse
      · rintro ⟨⟩
      · rintro scope stage ⟨⟩

/-- What somebody else does is not recorded of the cancellation. -/
theorem Searched.foreign
    (searched : Searched search log)
    (other : ∀ event, entry ≠ .performs .canceller event) :
    Searched search (log ++ [entry]) := by
  have foreign : ∀ event, .performs .canceller event ∈ log ++ [entry] ↔
      .performs .canceller event ∈ log := by
    intro event
    rw [List.mem_append, List.mem_singleton, or_iff_left]
    exact fun same => other event same.symm
  constructor
  · rw [foreign]
    exact searched.requested
  · rw [foreign]
    exact searched.missed
  · rw [foreign]
    exact searched.cancelled

/-- What a step of the cancellation adds to what it has found. -/
theorem Finds.told
    (finds : Finds search event found) :
    (found ≠ .storing ↔
      search ≠ .storing ∨ ⟨.store .cancelRequested true, ()⟩ = event) ∧
    (found = .missedSession ↔
      search = .missedSession ∨ ⟨.present .activeSession, false⟩ = event) ∧
    (found = .cancelled ↔
      search = .cancelled ∨ ⟨.store .cancelled true, ()⟩ = event) := by
  cases finds with
  | requests =>
      refine ⟨iff_of_true ?_ (Or.inr rfl), iff_of_false ?_ ?_,
        iff_of_false ?_ ?_⟩
      · rintro ⟨⟩
      · rintro ⟨⟩
      · rintro (same | same) <;> cases same
      · rintro ⟨⟩
      · rintro (same | same) <;> cases same
  | looks present =>
      refine ⟨iff_of_true ?_ (Or.inl ?_), iff_of_false ?_ ?_,
        iff_of_false ?_ ?_⟩
      · cases present <;> rintro ⟨⟩
      · rintro ⟨⟩
      · cases present <;> rintro ⟨⟩
      · rintro (same | same) <;> cases same
      · cases present <;> rintro ⟨⟩
      · rintro (same | same) <;> cases same
  | inspects present =>
      cases present with
      | false =>
          refine ⟨iff_of_true ?_ (Or.inl ?_), iff_of_true rfl (Or.inr rfl),
            iff_of_false ?_ ?_⟩
          · rintro ⟨⟩
          · rintro ⟨⟩
          · rintro ⟨⟩
          · rintro (same | same) <;> cases same
      | true =>
          refine ⟨iff_of_true ?_ (Or.inl ?_), iff_of_false ?_ ?_,
            iff_of_false ?_ ?_⟩
          · rintro ⟨⟩
          · rintro ⟨⟩
          · rintro ⟨⟩
          · rintro (same | same) <;> cases same
          · rintro ⟨⟩
          · rintro (same | same) <;> cases same
  | flags =>
      refine ⟨iff_of_true ?_ (Or.inl ?_), iff_of_false ?_ ?_,
        iff_of_true rfl (Or.inr rfl)⟩
      · rintro ⟨⟩
      · rintro ⟨⟩
      · rintro ⟨⟩
      · rintro (same | same) <;> cases same
  | rests quiet =>
      refine ⟨(or_iff_left ?_).symm, (or_iff_left ?_).symm,
        (or_iff_left ?_).symm⟩
      · rintro ⟨⟩
        exact quiet
      · rintro ⟨⟩
        exact quiet
      · rintro ⟨⟩
        exact quiet

/-- A step of the cancellation is recorded where it is made. -/
theorem Searched.finds
    (searched : Searched search log)
    (finds : Finds search event found) :
    Searched found (log ++ [.performs .canceller event]) := by
  have grows : ∀ other : AgentEvent,
      .performs .canceller other ∈ log ++ [.performs .canceller event] ↔
        .performs .canceller other ∈ log ∨ other = event := by
    simp
  obtain ⟨requested, missed, cancelled⟩ := finds.told
  constructor
  · rw [grows, ← searched.requested]
    exact requested
  · rw [grows, ← searched.missed]
    exact missed
  · rw [grows, ← searched.cancelled]
    exact cancelled

end Records

/-! ## What the memory shows -/

/-- The cancellation has found the session of a stage. -/
def FoundSession (search : Search) : Prop :=
  search = .foundSession ∨ search = .cancelled

/-- The memory against what the workflow and the cancellation have done. -/
structure Tracks (course : Course) (search : Search)
    (memory : Memory Caller) : Prop where
  gate : course = .entering → memory.flags .orchestratorExecuting = false
  passed : course ≠ .refused
  published : Published course → memory.pointers .activeRuntime ≠ none
  attached : memory.pointers .activeSession ≠ none ↔ Attached course
  later : Attached course → Later course
  requested : search ≠ .storing → memory.flags .cancelRequested = true
  missedRuntime : search = .missedRuntime → ¬ InRuntime course
  missedSession : search = .missedSession → ¬ Attached course
  found : FoundSession search → Later course
  flagged : search = .cancelled → memory.flags .cancelled = true

section Memory

variable {course next : Course} {search found : Search}
  {memory after : Memory Caller} {event : AgentEvent}

/-- A course that neither enters nor leaves anything. -/
def Plain : Course → Prop
  | .entering => False
  | .refused => False
  | .published => False
  | .starting => False
  | .running _ _ _ => False
  | _ => True

/-- A step to a place where no runtime is published. -/
theorem Tracks.leads
    (tracks : Tracks course search memory)
    (detached : ¬ Attached course)
    (plain : Plain next)
    (session : after.pointers .activeSession = memory.pointers .activeSession)
    (requested : search ≠ .storing → after.flags .cancelRequested = true)
    (cancelled : after.flags .cancelled = memory.flags .cancelled) :
    Tracks next search after := by
  have unpublished : ¬ Published next := by
    cases next <;> first | exact id | exact plain.elim
  have outside : ¬ InRuntime next := by
    cases next <;> first | exact id | exact plain.elim
  have unattached : ¬ Attached next := by
    cases next <;> first | exact id | exact plain.elim
  have later : Later next := by
    cases next <;> first | exact trivial | exact plain.elim
  constructor
  · rintro rfl
    exact plain.elim
  · rintro rfl
    exact plain
  · exact fun published => absurd published unpublished
  · rw [session, tracks.attached]
    exact iff_of_false detached unattached
  · exact fun attached => absurd attached unattached
  · exact requested
  · exact fun _ => outside
  · exact fun _ => unattached
  · exact fun _ => later
  · rw [cancelled]
    exact tracks.flagged

theorem not_attached_of_outside
    (outside : ¬ InRuntime course) :
    ¬ Attached course := by
  cases course <;> first | exact id | exact absurd trivial outside

/-- A silent step of the workflow. -/
theorem Tracks.stays
    {op : AgentOp} (silent : Silent op)
    (tracks : Tracks course search memory) :
    Tracks course search (memory.update .executor op) := by
  have frame : (memory.update .executor op).pointers = memory.pointers ∧
      (memory.update .executor op).flags .cancelRequested =
        memory.flags .cancelRequested ∧
      (memory.update .executor op).flags .cancelled =
        memory.flags .cancelled ∧
      (memory.flags .orchestratorExecuting = false →
        (memory.update .executor op).flags .orchestratorExecuting =
          false) := by
    cases op with
    | store name value =>
        cases name with
        | orchestratorExecuting =>
            cases value with
            | false => exact ⟨rfl, rfl, rfl, fun _ => rfl⟩
            | true => exact silent.elim
        | _ => exact silent.elim
    | exchange name value => exact silent.elim
    | publish name => exact silent.elim
    | clear name => exact silent.elim
    | _ => exact ⟨rfl, rfl, rfl, id⟩
  obtain ⟨pointers, requested, cancelled, gate⟩ := frame
  constructor
  · exact fun entering => gate (tracks.gate entering)
  · exact tracks.passed
  · rw [pointers]
    exact tracks.published
  · rw [pointers]
    exact tracks.attached
  · exact tracks.later
  · rw [requested]
    exact tracks.requested
  · exact tracks.missedRuntime
  · exact tracks.missedSession
  · exact tracks.found
  · rw [cancelled]
    exact tracks.flagged

/-! ## A step of the workflow -/

/-- An execution past its gate does not touch the orchestrator. -/
theorem frame_of_running
    {scope : RuntimeProtocol.Scope} {op : AgentOp}
    (permitted : scope.Allows op) :
    (memory.update .executor op).pointers .activeRuntime =
        memory.pointers .activeRuntime ∧
      (memory.update .executor op).flags .cancelRequested =
        memory.flags .cancelRequested := by
  cases op with
  | publish name =>
      cases name with
      | activeRuntime => exact permitted.1.elim
      | _ => exact ⟨rfl, rfl⟩
  | clear name =>
      cases name with
      | activeRuntime => exact permitted.1.elim
      | _ => exact ⟨rfl, rfl⟩
  | store name value =>
      cases name with
      | cancelRequested => exact permitted.1.elim
      | _ => exact ⟨rfl, rfl⟩
  | exchange name value => exact permitted.1.elim
  | _ => exact ⟨rfl, rfl⟩

/-- The scope of an execution and the pointer to its session agree. -/
theorem attached_of_running
    {scope : RuntimeProtocol.Scope} {op : AgentOp}
    (attached : memory.pointers .activeSession ≠ none ↔ scope.active = true) :
    (memory.update .executor op).pointers .activeSession ≠ none ↔
      (scope.after op).active = true := by
  cases op with
  | publish name =>
      cases name with
      | activeSession => exact iff_of_true (by rintro ⟨⟩) rfl
      | _ => exact attached
  | clear name =>
      cases name with
      | activeSession => exact iff_of_false (fun set => set rfl) (by rintro ⟨⟩)
      | _ => exact attached
  | store name value => cases name <;> cases value <;> exact attached
  | construct name => cases name <;> exact attached
  | destroy name => cases name <;> exact attached
  | lock name => cases name <;> exact attached
  | unlock name => cases name <;> exact attached
  | _ => exact attached

/-- A session is attached by publishing it. -/
theorem active_of_after
    {scope : RuntimeProtocol.Scope} {op : AgentOp}
    (active : (scope.after op).active = true) :
    op = .publish .activeSession ∨ scope.active = true := by
  cases op with
  | publish name =>
      cases name with
      | activeSession => exact Or.inl rfl
      | _ => exact Or.inr active
  | clear name =>
      cases name with
      | activeSession => cases active
      | _ => exact Or.inr active
  | store name value =>
      cases name <;> cases value <;> exact Or.inr active
  | construct name => cases name <;> exact Or.inr active
  | destroy name => cases name <;> exact Or.inr active
  | lock name => cases name <;> exact Or.inr active
  | unlock name => cases name <;> exact Or.inr active
  | _ => exact Or.inr active

/-- The flag of an execution is not created again once it was attached. -/
theorem flag_of_later
    {stage : RuntimeStages.Stage} {scope : RuntimeProtocol.Scope}
    {op : AgentOp}
    (later : stage.Later)
    (permitted : scope.Allows op)
    (staged : stage.Allows op) :
    (memory.update .executor op).flags .cancelled =
      memory.flags .cancelled := by
  cases op with
  | store name value =>
      cases name with
      | cancelled =>
          cases value with
          | false => exact absurd staged later.2
          | true => exact permitted.1.elim
      | _ => rfl
  | exchange name value => exact permitted.1.elim
  | _ => rfl

/-- A step of the runtime of a stage. -/
theorem Tracks.runs
    {scope : RuntimeProtocol.Scope} {stage : RuntimeStages.Stage}
    {read checked : Option Bool} {op : AgentOp} {answer : agents.Answer op}
    (tracks : Tracks (.running scope stage read) search memory)
    (permitted : scope.Allows op)
    (staged : stage.Allows op)
    (attaches : op = .publish .activeSession → search ≠ .missedSession) :
    Tracks
      (.running (scope.after op) (stage.after ⟨op, answer⟩) checked)
      search (memory.update .executor op) := by
  obtain ⟨runtime, requested⟩ := frame_of_running permitted
  constructor
  · rintro ⟨⟩
  · rintro ⟨⟩
  · rw [runtime]
    exact fun _ => tracks.published trivial
  · exact attached_of_running tracks.attached
  · intro active
    rcases active_of_after active with rfl | earlier
    · have clean : stage = .clean := staged
      subst clean
      exact ⟨by rintro ⟨⟩, by rintro ⟨⟩⟩
    · exact (tracks.later earlier).after ⟨op, answer⟩
  · rw [requested]
    exact tracks.requested
  · exact fun missed => absurd trivial (tracks.missedRuntime missed)
  · intro missed active
    rcases active_of_after active with attach | earlier
    · exact attaches attach missed
    · exact tracks.missedSession missed earlier
  · exact fun found => (tracks.found found).after ⟨op, answer⟩
  · intro cancelled
    rw [flag_of_later (tracks.found (Or.inr cancelled)) permitted staged]
    exact tracks.flagged cancelled

/-- A check that finds the flag unset comes before the cancellation. -/
theorem Tracks.proceeds
    (tracks : Tracks course search memory)
    (passes : Passes course next)
    (unset : memory.flags .cancelRequested = false) :
    Tracks next search memory := by
  have storing : search = .storing := by
    by_contra stored
    rw [tracks.requested stored] at unset
    cases unset
  have detached : ¬ Attached course := by
    cases passes <;> exact id
  have requested : search ≠ .storing →
      memory.flags .cancelRequested = true := tracks.requested
  subst storing
  cases passes with
  | first => exact tracks.leads detached trivial rfl requested rfl
  | settles => exact tracks.leads detached trivial rfl requested rfl
  | again => exact tracks
  | guards =>
      exact
        { gate := by rintro ⟨⟩
          passed := by rintro ⟨⟩
          published := fun _ => tracks.published trivial
          attached := tracks.attached
          later := fun attached => attached.elim
          requested := requested
          missedRuntime := by rintro ⟨⟩
          missedSession := by rintro ⟨⟩
          found := by rintro (found | found) <;> cases found
          flagged := by rintro ⟨⟩ }

/-- A step of the workflow, where it neither overwrites nor attaches late. -/
theorem Tracks.executes
    (tracks : Tracks course search memory)
    (moves : Moves course event next)
    (answers : memory.Answers event.op event.answer)
    (resets : event.op = .store .cancelRequested false → search = .storing)
    (attaches : event.op = .publish .activeSession →
      search ≠ .missedSession) :
    Tracks next search (memory.update .executor event.op) := by
  cases moves with
  | refuses =>
      have busy : true = memory.flags .orchestratorExecuting := answers
      rw [tracks.gate rfl] at busy
      cases busy
  | claims => exact tracks.leads id trivial rfl tracks.requested rfl
  | resets =>
      refine tracks.leads id trivial rfl ?_ rfl
      exact fun stored => absurd (resets rfl) stored
  | stops outside =>
      exact tracks.leads (not_attached_of_outside outside) trivial rfl
        tracks.requested rfl
  | proceeds passes => exact tracks.proceeds passes answers.symm
  | stays silent => exact tracks.stays silent
  | creates outside =>
      exact tracks.leads (not_attached_of_outside outside) trivial rfl
        tracks.requested rfl
  | excuses outside excuses =>
      have frame : memory.update .executor event.op = memory := by
        obtain ⟨op, answer⟩ := event
        cases op with
        | createRuntime profile => rfl
        | stageFinished profileId result => rfl
        | beforeNextStage profileId result artifact => rfl
        | _ => exact excuses.elim
      rw [frame]
      exact tracks.leads (not_attached_of_outside outside) trivial rfl
        tracks.requested rfl
  | publishes =>
      exact
        { gate := by rintro ⟨⟩
          passed := by rintro ⟨⟩
          published := by rintro - ⟨⟩
          attached := tracks.attached
          later := fun attached => attached.elim
          requested := tracks.requested
          missedRuntime := fun _ inside => inside
          missedSession := fun _ attached => attached
          found := fun _ => trivial
          flagged := tracks.flagged }
  | clears outside left =>
      refine tracks.leads (not_attached_of_outside outside) ?_ rfl
        tracks.requested rfl
      rcases left with rfl | rfl <;> trivial
  | enters =>
      exact
        { gate := by rintro ⟨⟩
          passed := by rintro ⟨⟩
          published := fun _ => tracks.published trivial
          attached := tracks.attached.trans
            (iff_of_false id (by rintro ⟨⟩))
          later := by rintro ⟨⟩
          requested := tracks.requested
          missedRuntime := fun missed =>
            absurd trivial (tracks.missedRuntime missed)
          missedSession := by rintro - ⟨⟩
          found := fun found => (tracks.found found).elim
          flagged := tracks.flagged }
  | misses => exact tracks.leads id trivial rfl tracks.requested rfl
  | runs stays permitted staged =>
      exact tracks.runs permitted staged attaches
  | leaves =>
      exact tracks.leads (by rintro ⟨⟩) trivial rfl tracks.requested rfl

/-! ## A step of the cancellation -/

/-- A step of the cancellation leaves the workflow where it is. -/
theorem Tracks.searches
    (tracks : Tracks course search memory)
    (pointers : after.pointers = memory.pointers)
    (gate : after.flags .orchestratorExecuting =
      memory.flags .orchestratorExecuting)
    (requested : found ≠ .storing → after.flags .cancelRequested = true)
    (missedRuntime : found = .missedRuntime → ¬ InRuntime course)
    (missedSession : found = .missedSession → ¬ Attached course)
    (later : FoundSession found → Later course)
    (flagged : found = .cancelled → after.flags .cancelled = true) :
    Tracks course found after where
  gate := by
    rw [gate]
    exact tracks.gate
  passed := tracks.passed
  published := by
    rw [pointers]
    exact tracks.published
  attached := by
    rw [pointers]
    exact tracks.attached
  later := tracks.later
  requested := requested
  missedRuntime := missedRuntime
  missedSession := missedSession
  found := later
  flagged := flagged

/-- A cancellation that looks for something has set the flag before. -/
theorem Tracks.finds
    (tracks : Tracks course search memory)
    (finds : Finds search event found)
    (answers : memory.Answers event.op event.answer) :
    Tracks course found (memory.update .canceller event.op) := by
  cases finds with
  | requests =>
      refine tracks.searches rfl rfl (fun _ => rfl) ?_ ?_ ?_ ?_
      · rintro ⟨⟩
      · rintro ⟨⟩
      · rintro (found | found) <;> cases found
      · rintro ⟨⟩
  | looks present =>
      have set : present = (memory.pointers .activeRuntime).isSome := answers
      have requested := tracks.requested (by rintro ⟨⟩)
      cases present with
      | true =>
          refine tracks.searches rfl rfl (fun _ => requested) ?_ ?_ ?_ ?_
          · rintro ⟨⟩
          · rintro ⟨⟩
          · rintro (found | found) <;> cases found
          · rintro ⟨⟩
      | false =>
          have unset := Option.isSome_eq_false_iff.mp set.symm
          refine tracks.searches rfl rfl (fun _ => requested) ?_ ?_ ?_ ?_
          · intro _ inside
            refine tracks.published ?_ (Option.isNone_iff_eq_none.mp unset)
            cases course <;> first | exact inside.elim | exact trivial
          · rintro ⟨⟩
          · rintro (found | found) <;> cases found
          · rintro ⟨⟩
  | inspects present =>
      have set : present = (memory.pointers .activeSession).isSome := answers
      have requested := tracks.requested (by rintro ⟨⟩)
      cases present with
      | true =>
          refine tracks.searches rfl rfl (fun _ => requested) ?_ ?_ ?_ ?_
          · rintro ⟨⟩
          · rintro ⟨⟩
          · intro _
            apply tracks.later
            apply tracks.attached.mp
            exact Option.ne_none_iff_isSome.mpr set.symm
          · rintro ⟨⟩
      | false =>
          have unset := Option.isSome_eq_false_iff.mp set.symm
          refine tracks.searches rfl rfl (fun _ => requested) ?_ ?_ ?_ ?_
          · rintro ⟨⟩
          · intro _ attached
            exact tracks.attached.mpr attached
              (Option.isNone_iff_eq_none.mp unset)
          · rintro (found | found) <;> cases found
          · rintro ⟨⟩
  | flags =>
      have requested := tracks.requested (by rintro ⟨⟩)
      refine tracks.searches rfl rfl (fun _ => requested) ?_ ?_ ?_ ?_
      · rintro ⟨⟩
      · rintro ⟨⟩
      · exact fun _ => tracks.found (Or.inl rfl)
      · exact fun _ => rfl
  | @rests _ op answer quiet =>
      have frame : (memory.update .canceller op).pointers = memory.pointers ∧
          (memory.update .canceller op).flags = memory.flags := by
        cases op with
        | lock name => exact ⟨rfl, rfl⟩
        | unlock name => exact ⟨rfl, rfl⟩
        | present name => exact ⟨rfl, rfl⟩
        | cancelProvider => exact ⟨rfl, rfl⟩
        | _ => exact quiet.elim
      obtain ⟨pointers, flags⟩ := frame
      refine tracks.searches pointers (by rw [flags]) ?_ tracks.missedRuntime
        tracks.missedSession tracks.found ?_
      · rw [flags]
        exact tracks.requested
      · rw [flags]
        exact tracks.flagged

end Memory

end ArnCore.Agent.WorkflowSteps
