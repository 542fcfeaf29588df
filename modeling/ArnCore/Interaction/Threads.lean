import ArnCore.Interaction.Program
import Mathlib.Data.List.Induction
import Mathlib.Logic.Function.Basic

/-!
# Threads over a shared state

Any number of threads make calls; the body of a call is a program.  A step of
the system is one operation of one thread, so an execution is an arbitrary
interleaving.  A call that is made from inside an operation of another call is
a thread of its own: while it runs, its caller makes no step.

What one thread does is a run of the program of its call.  What all threads
have done is therefore known through conditions on single programs, and
`Threads.invariant` combines such conditions with the shared state.
-/

namespace ArnCore.Interaction

variable {Thread Call Value Shared Phase : Type} {signature : Signature}

/-- The shared state and the programs the threads are running. -/
structure Threads (Thread Value Shared : Type) (signature : Signature) where
  shared : Shared
  running : Thread → Option (Program signature Value)

/-- One step of an interleaving as an observer sees it. -/
inductive ThreadEvent (Thread Call Value : Type) (signature : Signature) where
  | calls (thread : Thread) (call : Call)
  | performs (thread : Thread) (event : Event signature)
  | returns (thread : Thread) (value : Value)

namespace ThreadEvent

/-- The thread that made a step. -/
def thread : ThreadEvent Thread Call Value signature → Thread
  | .calls thread _ => thread
  | .performs thread _ => thread
  | .returns thread _ => thread

end ThreadEvent

namespace Threads

variable [DecidableEq Thread]

/-- A thread starts a call, performs one operation of it, or returns. -/
inductive Step (worlds : Thread → World signature Shared)
    (program : Call → Program signature Value) :
    Threads Thread Value Shared signature →
      ThreadEvent Thread Call Value signature →
        Threads Thread Value Shared signature → Prop where
  | calls {system : Threads Thread Value Shared signature}
      (thread : Thread) (call : Call)
      (idle : system.running thread = none) :
      Step worlds program system (.calls thread call)
        { system with
          running :=
            Function.update system.running thread (some (program call)) }
  | performs {system : Threads Thread Value Shared signature}
      (thread : Thread) {op : signature.Op}
      {next : signature.Answer op → Program signature Value}
      {answer : signature.Answer op} {after : Shared}
      (runs : system.running thread = some (.call op next))
      (performed : (worlds thread).perform system.shared op answer after) :
      Step worlds program system (.performs thread ⟨op, answer⟩)
        { shared := after
          running :=
            Function.update system.running thread (some (next answer)) }
  | returns {system : Threads Thread Value Shared signature}
      (thread : Thread) {value : Value}
      (runs : system.running thread = some (.done value)) :
      Step worlds program system (.returns thread value)
        { system with
          running := Function.update system.running thread none }

/-- No thread has made a call yet. -/
def idle (shared : Shared) : Threads Thread Value Shared signature where
  shared := shared
  running := fun _ => none

/-! ## The call of a thread -/

/-- The call a thread is in, with the events of that call so far. -/
abbrev Current (Call : Type) (signature : Signature) :=
  Option (Call × List (Event signature))

/-- What one step does to the current call of every thread. -/
def advance (current : Thread → Current Call signature) :
    ThreadEvent Thread Call Value signature →
      Thread → Current Call signature
  | .calls thread call => Function.update current thread (some (call, []))
  | .performs thread event =>
      Function.update current thread
        ((current thread).map fun call => (call.1, call.2 ++ [event]))
  | .returns thread _ => Function.update current thread none

/-- The current calls after a log. -/
def current (log : List (ThreadEvent Thread Call Value signature)) :
    Thread → Current Call signature :=
  log.foldl advance fun _ => none

theorem current_snoc
    (log : List (ThreadEvent Thread Call Value signature))
    (event : ThreadEvent Thread Call Value signature) :
    current (log ++ [event]) = advance (current log) event := by
  rw [current, List.foldl_append]
  rfl

/-- A step changes the current call of its own thread only. -/
theorem advance_of_ne
    {current : Thread → Current Call signature}
    {event : ThreadEvent Thread Call Value signature} {thread : Thread}
    (other : thread ≠ event.thread) :
    advance current event thread = current thread := by
  cases event <;> exact Function.update_of_ne other _ _

variable {worlds : Thread → World signature Shared}
  {program : Call → Program signature Value} {shared : Shared}
  {log : List (ThreadEvent Thread Call Value signature)}
  {system : Threads Thread Value Shared signature}

/-- A step runs the program of its own thread only. -/
theorem Step.running_of_ne
    {before after : Threads Thread Value Shared signature}
    {event : ThreadEvent Thread Call Value signature} {thread : Thread}
    (step : Step worlds program before event after)
    (other : thread ≠ event.thread) :
    after.running thread = before.running thread := by
  cases step <;> exact Function.update_of_ne other _ _

/-- A thread is idle, or its current call has come to what it is running. -/
inductive Running (program : Call → Program signature Value) :
    Current Call signature → Option (Program signature Value) → Prop where
  | idle : Running program none none
  | runs {call : Call} {history : List (Event signature)}
      {rest : Program signature Value}
      (run : (program call).Runs history rest) :
      Running program (some (call, history)) (some rest)

/-- What a thread has done is a run of the program of its call. -/
theorem runs_current
    (execution : Execution (Step worlds program) (idle shared) log system)
    (thread : Thread) :
    Running program (current log thread) (system.running thread) := by
  induction execution with
  | start => exact .idle
  | @extend log before after event past last induction =>
      rw [current_snoc]
      by_cases same : thread = event.thread
      · subst same
        cases last with
        | calls thread call idle =>
            show Running program
              (Function.update (current log) thread _ thread)
              (Function.update before.running thread _ thread)
            rw [Function.update_self, Function.update_self]
            exact .runs .refl
        | @performs thread op next answer after runs performed =>
            show Running program
              (Function.update (current log) thread _ thread)
              (Function.update before.running thread _ thread)
            rw [Function.update_self, Function.update_self]
            change Running program (current log thread)
              (before.running thread) at induction
            rw [runs] at induction
            generalize current log thread = call at induction
            cases induction with
            | runs run => exact .runs (run.tail (.perform answer rfl))
        | returns thread runs =>
            show Running program
              (Function.update (current log) thread _ thread)
              (Function.update before.running thread _ thread)
            rw [Function.update_self, Function.update_self]
            exact .idle
      · rw [advance_of_ne same, last.running_of_ne same]
        exact induction

/-- What a thread performs, its call has come to. -/
theorem call_of_performs
    {past since : List (ThreadEvent Thread Call Value signature)}
    {thread : Thread} {event : Event signature}
    (execution : Execution (Step worlds program) (idle shared)
      (past ++ .performs thread event :: since) system) :
    ∃ call history next, current past thread = some (call, history) ∧
      (program call).Runs history (.call event.op next) := by
  obtain ⟨source, target, earlier, step⟩ := execution.step_of_log
  have atCall := runs_current earlier thread
  cases step with
  | performs _ runs performed =>
      rw [runs] at atCall
      generalize current past thread = call at atCall ⊢
      cases atCall with
      | runs run => exact ⟨_, _, _, rfl, run⟩

/--
A world that remembers more: what happens in it happens in the coarser world.
-/
theorem project
    {Fine : Type} {fine : Thread → World signature Fine} {start : Fine}
    (view : Fine → Shared)
    (respects : ∀ thread before op answer after,
      (fine thread).perform before op answer after →
        (worlds thread).perform (view before) op answer (view after))
    {system : Threads Thread Value Fine signature}
    (execution : Execution (Step fine program) (idle start) log system) :
    Execution (Step worlds program) (idle (view start)) log
      { shared := view system.shared
        running := system.running } := by
  induction execution with
  | start => exact .start
  | extend past last induction =>
      cases last with
      | calls thread call idle =>
          exact induction.extend (.calls thread call idle)
      | performs thread runs performed =>
          exact induction.extend
            (.performs thread runs (respects _ _ _ _ _ performed))
      | returns thread runs => exact induction.extend (.returns thread runs)

/-- The same call with the same answers goes on in the same way. -/
theorem running_eq_of_current_eq
    {Other OtherShared : Type} [DecidableEq Other]
    {others : Other → World signature OtherShared} {start : OtherShared}
    {otherLog : List (ThreadEvent Other Call Value signature)}
    {otherSystem : Threads Other Value OtherShared signature}
    (execution : Execution (Step worlds program) (idle shared) log system)
    (otherExecution : Execution (Step others program) (idle start) otherLog
      otherSystem)
    {thread : Thread} {other : Other}
    (same : current log thread = current otherLog other) :
    system.running thread = otherSystem.running other := by
  have running := runs_current execution thread
  have otherRunning := runs_current otherExecution other
  rw [same] at running
  generalize current otherLog other = entry at running otherRunning
  generalize system.running thread = rest at running ⊢
  generalize otherSystem.running other = otherRest at otherRunning ⊢
  cases running with
  | idle =>
      cases otherRunning with
      | idle => rfl
  | runs run =>
      cases otherRunning with
      | runs otherRun => rw [run.unique otherRun]

/-! ## The events of a thread -/

/-- The event of a thread in one entry of the log. -/
def eventOf (thread : Thread) :
    ThreadEvent Thread Call Value signature → Option (Event signature)
  | .performs other event => if other = thread then some event else none
  | _ => none

/-- The events of one thread, in order. -/
def eventsOf (thread : Thread)
    (log : List (ThreadEvent Thread Call Value signature)) :
    List (Event signature) :=
  log.filterMap (eventOf thread)

theorem mem_eventsOf
    {thread : Thread} {event : Event signature}
    {log : List (ThreadEvent Thread Call Value signature)} :
    event ∈ eventsOf thread log ↔ .performs thread event ∈ log := by
  constructor
  · intro member
    obtain ⟨entry, inLog, found⟩ := List.mem_filterMap.mp member
    cases entry with
    | performs other step =>
        by_cases own : other = thread
        · subst own
          rw [eventOf, if_pos rfl] at found
          rwa [← Option.some.inj found]
        · rw [eventOf, if_neg own] at found
          cases found
    | calls other started => cases found
    | returns other value => cases found
  · intro member
    exact List.mem_filterMap.mpr ⟨_, member, if_pos rfl⟩

/-- A thread neither starts nor ends a call. -/
def StaysInCall (thread : Thread)
    (log : List (ThreadEvent Thread Call Value signature)) : Prop :=
  (∀ call, .calls thread call ∉ log) ∧ ∀ value, .returns thread value ∉ log

/-- What a thread does in its call is added to the history of the call. -/
theorem current_append
    {past since : List (ThreadEvent Thread Call Value signature)}
    {thread : Thread} {call : Call} {history : List (Event signature)}
    (atCall : current past thread = some (call, history))
    (stays : StaysInCall thread since) :
    current (past ++ since) thread =
      some (call, history ++ eventsOf thread since) := by
  induction since using List.reverseRecOn with
  | nil => simpa [eventsOf] using atCall
  | append_singleton since last induction =>
      have earlier : StaysInCall thread since :=
        ⟨fun call member => stays.1 call (List.mem_append_left _ member),
          fun value member => stays.2 value (List.mem_append_left _ member)⟩
      rw [← List.append_assoc, current_snoc]
      by_cases own : thread = last.thread
      · subst own
        cases last with
        | calls thread other =>
            exact absurd (by simp [ThreadEvent.thread]) (stays.1 other)
        | returns thread value =>
            exact absurd (by simp [ThreadEvent.thread]) (stays.2 value)
        | performs thread event =>
            show Function.update _ thread _ thread = _
            have before := induction earlier
            simp only [ThreadEvent.thread] at before ⊢
            rw [Function.update_self, before]
            simp [eventsOf, eventOf]
      · rw [advance_of_ne own, induction earlier]
        have silent : eventOf thread last = none := by
          cases last with
          | performs other event =>
              exact if_neg fun same => own same.symm
          | _ => rfl
        simp [eventsOf, silent]

/-- The call a thread is in was started, and has been performed since. -/
theorem exists_of_current
    {log : List (ThreadEvent Thread Call Value signature)}
    {thread : Thread} {call : Call} {history : List (Event signature)}
    (atCall : current log thread = some (call, history)) :
    ∃ past since, log = past ++ .calls thread call :: since ∧
      StaysInCall thread since ∧ eventsOf thread since = history := by
  induction log using List.reverseRecOn generalizing history with
  | nil => cases atCall
  | append_singleton log last induction =>
      rw [current_snoc] at atCall
      by_cases own : thread = last.thread
      · subst own
        cases last with
        | calls thread started =>
            rw [advance] at atCall
            simp only [ThreadEvent.thread, Function.update_self] at atCall
            cases atCall
            exact ⟨log, [], rfl, ⟨nofun, nofun⟩, rfl⟩
        | performs thread event =>
            rw [advance] at atCall
            simp only [ThreadEvent.thread, Function.update_self] at atCall
            cases before : current log thread with
            | none =>
                rw [before] at atCall
                cases atCall
            | some earlier =>
                rw [before] at atCall
                cases atCall
                obtain ⟨past, since, rfl, stays, events⟩ := induction before
                refine ⟨past, since ++ [.performs thread event], by simp,
                  ⟨?_, ?_⟩, ?_⟩
                · simpa using stays.1
                · simpa using stays.2
                · rw [← events]
                  simp [eventsOf, eventOf, ThreadEvent.thread]
        | returns thread value =>
            rw [advance] at atCall
            simp only [ThreadEvent.thread, Function.update_self] at atCall
            cases atCall
      · rw [advance_of_ne own] at atCall
        obtain ⟨past, since, rfl, stays, events⟩ := induction atCall
        refine ⟨past, since ++ [last], by simp, ⟨?_, ?_⟩, ?_⟩
        · intro other member
          rcases List.mem_append.mp member with earlier | final
          · exact stays.1 other earlier
          · rw [← List.mem_singleton.mp final] at own
            exact own rfl
        · intro value member
          rcases List.mem_append.mp member with earlier | final
          · exact stays.2 value earlier
          · rw [← List.mem_singleton.mp final] at own
            exact own rfl
        · have silent : eventOf thread last = none := by
            cases last with
            | performs other event =>
                exact if_neg fun same => own same.symm
            | _ => rfl
          rw [← events]
          simp [eventsOf, silent]

/-- Every event of the current call is an event of the log. -/
theorem split_of_current
    {log : List (ThreadEvent Thread Call Value signature)}
    {thread : Thread} {call : Call} {event : Event signature}
    {before after : List (Event signature)}
    (atCall : current log thread = some (call, before ++ event :: after)) :
    ∃ earlier later,
      log = earlier ++ .performs thread event :: later ∧
        current earlier thread = some (call, before) ∧
        StaysInCall thread later ∧ eventsOf thread later = after := by
  obtain ⟨past, since, rfl, stays, events⟩ := exists_of_current atCall
  obtain ⟨first, rest, rfl, firstEvents, restEvents⟩ :=
    List.filterMap_eq_append_iff.mp events
  obtain ⟨silent, entry, later, rfl, nothing, found, laterEvents⟩ :=
    List.filterMap_eq_cons_iff.mp restEvents
  have isEvent : entry = .performs thread event := by
    cases entry with
    | performs other step =>
        by_cases own : other = thread
        · subst own
          rw [eventOf, if_pos rfl] at found
          rw [Option.some.inj found]
        · rw [eventOf, if_neg own] at found
          cases found
    | calls other started => cases found
    | returns other value => cases found
  subst isEvent
  have within : ∀ part : List (ThreadEvent Thread Call Value signature),
      part ⊆ first ++ (silent ++ .performs thread event :: later) →
        StaysInCall thread part :=
    fun part inside => ⟨fun call member => stays.1 call (inside member),
      fun value member => stays.2 value (inside member)⟩
  refine ⟨past ++ .calls thread call :: (first ++ silent), later, by simp, ?_,
    within later (by intro x; simp; tauto), laterEvents⟩
  have started : current (past ++ [.calls thread call]) thread =
      some (call, []) := by
    rw [current_snoc, advance, Function.update_self]
  have reached := current_append started
    (within (first ++ silent) (by intro x; simp; tauto))
  have unchanged : eventsOf thread silent = [] :=
    List.filterMap_eq_nil_iff.mpr nothing
  have events : eventsOf thread (first ++ silent) = before := by
    rw [eventsOf, List.filterMap_append, firstEvents]
    change before ++ eventsOf thread silent = before
    rw [unchanged, List.append_nil]
  rw [events, List.nil_append, List.append_assoc] at reached
  exact reached

/-- A thread that does not return from its call does not leave it. -/
theorem staysInCall_of_not_returns
    {past since : List (ThreadEvent Thread Call Value signature)}
    {thread : Thread} {call : Call} {history : List (Event signature)}
    (execution : Execution (Step worlds program) (idle shared)
      (past ++ since) system)
    (atCall : current past thread = some (call, history))
    (stays : ∀ value, .returns thread value ∉ since) :
    StaysInCall thread since := by
  induction since using List.reverseRecOn generalizing system with
  | nil => exact ⟨nofun, nofun⟩
  | append_singleton since last induction =>
      rw [← List.append_assoc] at execution
      obtain ⟨source, target, earlier, step⟩ := execution.step_of_log
      have inCall := induction earlier
        fun value member => stays value (List.mem_append_left _ member)
      refine ⟨?_, stays⟩
      intro other member
      rcases List.mem_append.mp member with before | final
      · exact inCall.1 other before
      · rw [List.mem_singleton] at final
        subst final
        cases step with
        | calls _ _ idle =>
            have running := runs_current earlier thread
            rw [current_append atCall inCall, idle] at running
            cases running

/-! ## Threads that make one call -/

/-- A thread outside a call that makes no call does nothing. -/
theorem silent_of_idle
    {past since : List (ThreadEvent Thread Call Value signature)}
    {thread : Thread}
    (execution : Execution (Step worlds program) (idle shared)
      (past ++ since) system)
    (outside : current past thread = none)
    (uncalled : ∀ call, .calls thread call ∉ since) :
    current (past ++ since) thread = none ∧ eventsOf thread since = [] := by
  induction since using List.reverseRecOn generalizing system with
  | nil => exact ⟨by rwa [List.append_nil], rfl⟩
  | append_singleton since last induction =>
      rw [← List.append_assoc] at execution ⊢
      obtain ⟨source, target, earlier, step⟩ := execution.step_of_log
      obtain ⟨idle, silent⟩ := induction earlier
        fun call member => uncalled call (List.mem_append_left _ member)
      by_cases own : thread = last.thread
      · subst own
        have running := runs_current earlier last.thread
        rw [idle] at running
        cases step with
        | calls thread call _ =>
            exact absurd (by simp [ThreadEvent.thread]) (uncalled call)
        | performs thread runs performed =>
            rw [ThreadEvent.thread, runs] at running
            cases running
        | returns thread runs =>
            rw [ThreadEvent.thread, runs] at running
            cases running
      · rw [current_snoc, advance_of_ne own]
        refine ⟨idle, ?_⟩
        have foreign : eventOf thread last = none := by
          cases last with
          | performs other event =>
              exact if_neg fun same => own same.symm
          | _ => rfl
        rw [eventsOf, List.filterMap_append, ← eventsOf, silent]
        simp [foreign]

/-- A thread makes at most one call. -/
def CalledOnce (thread : Thread)
    (log : List (ThreadEvent Thread Call Value signature)) : Prop :=
  ∀ past call since, log = past ++ .calls thread call :: since →
    ∀ other, .calls thread other ∉ since

omit [DecidableEq Thread] in
theorem CalledOnce.earlier
    {more : List (ThreadEvent Thread Call Value signature)} {thread : Thread}
    (once : CalledOnce thread (log ++ more)) :
    CalledOnce thread log := by
  rintro past call since rfl other member
  refine once past call (since ++ more) (by simp) other ?_
  exact List.mem_append_left _ member

/-- All a thread did that makes one call, it did in that call. -/
theorem CalledOnce.current
    {thread : Thread} {call : Call} {history : List (Event signature)}
    (once : CalledOnce thread log)
    (execution : Execution (Step worlds program) (idle shared) log system)
    (atCall : Threads.current log thread = some (call, history)) :
    .calls thread call ∈ log ∧ eventsOf thread log = history := by
  obtain ⟨past, since, rfl, _, events⟩ := exists_of_current atCall
  obtain ⟨_, before⟩ := execution.earlier
  have uncalled : ∀ other, .calls thread other ∉ past := by
    intro other member
    obtain ⟨first, between, rfl⟩ := List.append_of_mem member
    refine once first other (between ++ .calls thread call :: since) ?_ call ?_
    · simp
    · simp
  have silent := (silent_of_idle (by rwa [List.nil_append]) rfl uncalled).2
  refine ⟨by simp, ?_⟩
  rw [eventsOf, List.filterMap_append, ← eventsOf, silent]
  exact events

/-- A thread that makes one call does nothing once it has returned. -/
theorem CalledOnce.returned
    {past since : List (ThreadEvent Thread Call Value signature)}
    {thread : Thread} {value : Value}
    (once : CalledOnce thread (past ++ .returns thread value :: since))
    (execution : Execution (Step worlds program) (idle shared)
      (past ++ .returns thread value :: since) system) :
    eventsOf thread since = [] := by
  obtain ⟨source, target, earlier, step⟩ := execution.step_of_log
  cases step with
  | returns _ runs =>
      have running := runs_current earlier thread
      rw [runs] at running
      generalize atCall : Threads.current past thread = called at running
      cases running with
      | @runs call history _ run =>
          have called := (once.earlier.current earlier atCall).1
          rw [← List.singleton_append, ← List.append_assoc] at execution
          obtain ⟨first, between, rfl⟩ := List.append_of_mem called
          refine (silent_of_idle execution ?_ ?_).2
          · rw [current_snoc, advance, Function.update_self]
          · intro other member
            refine once first call
              (between ++ .returns thread value :: since) (by simp) other ?_
            simp [member]

/-! ## Phases -/

section Phases

variable (start : Call → Phase)
  (observe : Phase → Event signature → Phase)

/-- What an observer of single calls has seen of the current call. -/
def phases (log : List (ThreadEvent Thread Call Value signature))
    (thread : Thread) : Option Phase :=
  (current log thread).map fun call => call.2.foldl observe (start call.1)

theorem phases_calls (thread : Thread) (call : Call) :
    phases start observe (log ++ [.calls thread call]) =
      Function.update (phases start observe log) thread
        (some (start call)) := by
  funext other
  rw [phases, current_snoc, advance]
  by_cases same : other = thread
  · subst same
    rw [Function.update_self, Function.update_self]
    rfl
  · rw [Function.update_of_ne same, Function.update_of_ne same]
    rfl

theorem phases_performs (thread : Thread) (event : Event signature) :
    phases start observe (log ++ [.performs thread event]) =
      Function.update (phases start observe log) thread
        ((phases start observe log thread).map (observe · event)) := by
  funext other
  rw [phases, current_snoc, advance]
  by_cases same : other = thread
  · subst same
    rw [Function.update_self, Function.update_self, phases]
    cases current log other with
    | none => rfl
    | some call =>
        show some ((call.2 ++ [event]).foldl observe (start call.1)) = _
        rw [List.foldl_append]
        rfl
  · rw [Function.update_of_ne same, Function.update_of_ne same]
    rfl

theorem phases_returns (thread : Thread) (value : Value) :
    phases start observe (log ++ [.returns thread value]) =
      Function.update (phases start observe log) thread none := by
  funext other
  rw [phases, current_snoc, advance]
  by_cases same : other = thread
  · subst same
    rw [Function.update_self, Function.update_self]
    rfl
  · rw [Function.update_of_ne same, Function.update_of_ne same]
    rfl

end Phases

section Verified

variable {start : Call → Phase}
  {observe : Phase → Event signature → Phase}
  {allowed : Phase → signature.Op → Prop} {post : Phase → Value → Prop}

/-- A thread performs only what the phase of its call allows. -/
theorem allowed_of_performs
    (verified : ∀ call, (program call).Holds (monitored observe) allowed post
      (start call))
    (execution : Execution (Step worlds program) (idle shared) log system)
    {thread : Thread} {op : signature.Op}
    {next : signature.Answer op → Program signature Value}
    (runs : system.running thread = some (.call op next)) :
    ∃ phase, phases start observe log thread = some phase ∧
      allowed phase op := by
  have local_ := runs_current execution thread
  rw [runs] at local_
  unfold phases
  generalize current log thread = call at local_
  cases local_ with
  | @runs call history _ run =>
      exact ⟨_, rfl, ((verified call).runs run).2.1⟩

/-- A thread returns only what the phase of its call lets it return. -/
theorem post_of_returns
    (verified : ∀ call, (program call).Holds (monitored observe) allowed post
      (start call))
    (execution : Execution (Step worlds program) (idle shared) log system)
    {thread : Thread} {value : Value}
    (runs : system.running thread = some (.done value)) :
    ∃ phase, phases start observe log thread = some phase ∧
      post phase value := by
  have local_ := runs_current execution thread
  rw [runs] at local_
  unfold phases
  generalize current log thread = call at local_
  cases local_ with
  | @runs call history _ run =>
      exact ⟨_, rfl, ((verified call).runs run).2⟩

/-- An idle thread has no phase. -/
theorem phases_of_idle
    (execution : Execution (Step worlds program) (idle shared) log system)
    {thread : Thread} (idle : system.running thread = none) :
    phases start observe log thread = none := by
  have local_ := runs_current execution thread
  rw [idle] at local_
  unfold phases
  generalize current log thread = call at local_
  cases local_
  rfl

/--
An invariant of the phases and the shared state: it is enough to look at what
the phases allow, not at the programs.
-/
theorem invariant
    (verified : ∀ call, (program call).Holds (monitored observe) allowed post
      (start call))
    {inv : (Thread → Option Phase) → Shared → Prop}
    (base : inv (fun _ => none) shared)
    (calls : ∀ phases shared thread call, inv phases shared →
      phases thread = none →
        inv (Function.update phases thread (some (start call))) shared)
    (performs : ∀ phases shared thread phase op answer after,
      inv phases shared → phases thread = some phase → allowed phase op →
        (worlds thread).perform shared op answer after →
          inv (Function.update phases thread
            (some (observe phase ⟨op, answer⟩))) after)
    (returns : ∀ phases shared thread phase value, inv phases shared →
      phases thread = some phase → post phase value →
        inv (Function.update phases thread none) shared)
    (execution : Execution (Step worlds program) (idle shared) log system) :
    inv (phases start observe log) system.shared := by
  induction execution with
  | start => exact base
  | @extend log before after event past last induction =>
      cases last with
      | calls thread call idle =>
          rw [phases_calls]
          exact calls _ _ thread call induction (phases_of_idle past idle)
      | performs thread runs performed =>
          obtain ⟨phase, atPhase, permitted⟩ :=
            allowed_of_performs verified past runs
          rw [phases_performs, atPhase]
          exact performs _ _ thread phase _ _ _ induction atPhase permitted
            performed
      | returns thread runs =>
          obtain ⟨phase, atPhase, ends⟩ :=
            post_of_returns verified past runs
          rw [phases_returns]
          exact returns _ _ thread phase _ induction atPhase ends

/-! ## Between two events of a thread -/

/-- The thread performed an event and has not performed another one since. -/
def Within (enters leaves : Event signature)
    (log : List (ThreadEvent Thread Call Value signature))
    (thread : Thread) : Prop :=
  ∃ before after,
    log = before ++ .performs thread enters :: after ∧
      .performs thread leaves ∉ after

omit [DecidableEq Thread] in
theorem within_snoc
    {enters leaves : Event signature}
    {event : ThreadEvent Thread Call Value signature} {thread : Thread} :
    Within enters leaves (log ++ [event]) thread ↔
      event = .performs thread enters ∨
        (Within enters leaves log thread ∧
          event ≠ .performs thread leaves) := by
  constructor
  · rintro ⟨before, after, split, stays⟩
    rcases snoc_eq_append_cons split with
      ⟨_, sameEvent, _⟩ | ⟨shorter, samePast, sameAfter⟩
    · exact Or.inl sameEvent.symm
    · subst sameAfter
      refine Or.inr ⟨⟨before, shorter, samePast, ?_⟩, ?_⟩
      · exact fun left => stays (List.mem_append_left _ left)
      · rintro rfl
        exact stays (List.mem_append_right _ (List.mem_singleton.mpr rfl))
  · rintro (same | ⟨⟨before, after, split, stays⟩, silent⟩)
    · exact ⟨log, [], by rw [same], nofun⟩
    · refine ⟨before, after ++ [event], by simp [split], ?_⟩
      intro left
      rcases List.mem_append.mp left with earlier | last
      · exact stays earlier
      · exact silent (List.mem_singleton.mp last).symm

omit [DecidableEq Thread] in
theorem Within.append
    {enters leaves : Event signature} {thread : Thread}
    {later : List (ThreadEvent Thread Call Value signature)}
    (within : Within enters leaves log thread)
    (stays : .performs thread leaves ∉ later) :
    Within enters leaves (log ++ later) thread := by
  obtain ⟨before, after, rfl, silent⟩ := within
  refine ⟨before, after ++ later, by simp, ?_⟩
  intro left
  exact (List.mem_append.mp left).elim silent stays

omit [DecidableEq Thread] in
theorem Within.prepend
    {enters leaves : Event signature} {thread : Thread}
    (within : Within enters leaves log thread)
    (earlier : List (ThreadEvent Thread Call Value signature)) :
    Within enters leaves (earlier ++ log) thread := by
  obtain ⟨before, after, rfl, silent⟩ := within
  exact ⟨earlier ++ before, after, by simp, silent⟩

omit [DecidableEq Thread] in
/-- A thread entered before or after a point of the log. -/
theorem within_append
    {enters leaves : Event signature} {thread : Thread}
    {since : List (ThreadEvent Thread Call Value signature)}
    (within : Within enters leaves (log ++ since) thread) :
    Within enters leaves log thread ∨ Within enters leaves since thread := by
  obtain ⟨before, after, split, stays⟩ := within
  rcases List.append_eq_append_iff.mp split with
    ⟨between, rfl, rest⟩ | ⟨between, rfl, rest⟩
  · exact Or.inr ⟨between, after, rest, stays⟩
  · cases between with
    | nil => exact Or.inr ⟨[], after, rest.symm, stays⟩
    | cons first between =>
        injection rest with same rest
        subst same
        refine Or.inl ⟨before, between, rfl, ?_⟩
        rw [rest] at stays
        exact fun member => stays (List.mem_append_left _ member)

/-- After leaving, a thread has to enter again. -/
theorem not_within_of_left
    {enters leaves : Event signature} {thread : Thread}
    {before after : List (ThreadEvent Thread Call Value signature)}
    (different : enters ≠ leaves) (silent : enters ∉ eventsOf thread after) :
    ¬ Within enters leaves (before ++ .performs thread leaves :: after)
      thread := by
  rintro ⟨earlier, later, split, stays⟩
  rcases List.append_eq_append_iff.mp split with
    ⟨between, rfl, rest⟩ | ⟨between, rfl, rest⟩
  · cases between with
    | nil =>
        injection rest with same
        injection same with _ same
        exact different same.symm
    | cons first between =>
        injection rest with _ rest
        apply silent
        rw [rest]
        exact mem_eventsOf.mpr (by simp)
  · cases between with
    | nil =>
        injection rest with same
        injection same with _ same
        exact different same
    | cons first between =>
        injection rest with _ rest
        apply stays
        rw [rest]
        simp

/--
The events in the log agree with the phases: a call is inside from an entering
event to a leaving event, and is neither started nor returned from inside.
-/
theorem within_iff
    (verified : ∀ call, (program call).Holds (monitored observe) allowed post
      (start call))
    {enters leaves : Event signature} {inside : Phase → Prop}
    (outsideFirst : ∀ call, ¬ inside (start call))
    (follows : ∀ phase op answer, allowed phase op →
      (inside (observe phase ⟨op, answer⟩) ↔
        (⟨op, answer⟩ : Event signature) = enters ∨
          (inside phase ∧ (⟨op, answer⟩ : Event signature) ≠ leaves)))
    (outsideLast : ∀ phase value, post phase value → ¬ inside phase)
    (execution : Execution (Step worlds program) (idle shared) log system)
    (thread : Thread) :
    Within enters leaves log thread ↔
      ∃ phase, phases start observe log thread = some phase ∧
        inside phase := by
  induction execution with
  | start =>
      refine iff_of_false ?_ nofun
      rintro ⟨before, after, split, _⟩
      simp at split
  | @extend log before after event past last induction =>
      rw [within_snoc, induction]
      by_cases own : thread = event.thread
      · subst own
        cases last with
        | calls thread call idle =>
            rw [phases_calls]
            simp only [ThreadEvent.thread, Function.update_self,
              phases_of_idle past idle]
            refine iff_of_false ?_ ?_
            · rintro (same | ⟨⟨_, ⟨⟩, _⟩, _⟩)
              cases same
            · rintro ⟨_, ⟨⟩, entered⟩
              exact outsideFirst call entered
        | @performs thread op next answer after runs performed =>
            obtain ⟨phase, atPhase, permitted⟩ :=
              allowed_of_performs verified past runs
            rw [phases_performs]
            simp only [ThreadEvent.thread, Function.update_self, atPhase,
              Option.map_some, Option.some.injEq, exists_eq_left',
              ThreadEvent.performs.injEq, true_and, ne_eq]
            exact (follows phase op answer permitted).symm
        | @returns thread value runs =>
            obtain ⟨phase, atPhase, ends⟩ :=
              post_of_returns verified past runs
            rw [phases_returns]
            simp only [ThreadEvent.thread, Function.update_self, atPhase]
            refine iff_of_false ?_ nofun
            rintro (same | ⟨⟨_, ⟨⟩, entered⟩, _⟩)
            · cases same
            · exact outsideLast _ value ends entered
      · have other : ∀ step, event ≠ .performs thread step := by
          rintro step rfl
          exact own rfl
        have same : phases start observe (log ++ [event]) thread =
            phases start observe log thread := by
          rw [phases, current_snoc, advance_of_ne own]
          rfl
        rw [same]
        constructor
        · rintro (now | ⟨entered, _⟩)
          · exact absurd now (other _)
          · exact entered
        · exact fun entered => Or.inr ⟨entered, other _⟩

end Verified

/-! ## The order of two entries -/

/-- An entry of one kind is followed by an entry of another kind. -/
def followed {Entry : Type} (first later : Entry → Bool) : List Entry → Bool
  | [] => false
  | entry :: rest => first entry && rest.any later || followed first later rest

theorem followed_iff
    {Entry : Type} {first later : Entry → Bool} {log : List Entry} :
    followed first later log = true ↔
      ∃ past entry since, log = past ++ entry :: since ∧
        first entry = true ∧ ∃ other ∈ since, later other = true := by
  induction log with
  | nil => simp [followed]
  | cons entry rest induction =>
      rw [followed, Bool.or_eq_true, Bool.and_eq_true, List.any_eq_true,
        induction]
      constructor
      · rintro (⟨isFirst, other, member, isLater⟩ |
          ⟨past, found, since, rfl, isFirst, isLater⟩)
        · exact ⟨[], entry, rest, rfl, isFirst, other, member, isLater⟩
        · exact ⟨entry :: past, found, since, rfl, isFirst, isLater⟩
      · rintro ⟨past, found, since, split, isFirst, isLater⟩
        cases past with
        | nil =>
            injection split with same rest
            subst same
            subst rest
            exact Or.inl ⟨isFirst, isLater⟩
        | cons head past =>
            injection split with _ rest
            exact Or.inr ⟨past, found, since, rest, isFirst, isLater⟩

/-- Where it is not followed by one, there is none in what follows it. -/
theorem not_mem_of_not_followed
    {Entry : Type} {first later : Entry → Bool}
    {past since : List Entry} {entry other : Entry}
    (apart : followed first later (past ++ entry :: since) = false)
    (isFirst : first entry = true)
    (isLater : later other = true) :
    other ∉ since := by
  intro member
  have found := followed_iff.mpr
    ⟨past, entry, since, rfl, isFirst, other, member, isLater⟩
  rw [apart] at found
  cases found

/-! ## Schedules -/

/-- What a scheduler lets happen next. -/
inductive Move (Thread Call : Type) where
  | starts (thread : Thread) (call : Call)
  | continues (thread : Thread)

/-- A log and the system it leads to. -/
structure Played (Thread Call Value Shared : Type) (signature : Signature)
    where
  log : List (ThreadEvent Thread Call Value signature)
  system : Threads Thread Value Shared signature

/-- How a shared state answers a thread, unless the thread has to wait. -/
abbrev Responses (Thread Call Value Shared : Type) (signature : Signature) :=
  List (ThreadEvent Thread Call Value signature) → Thread → Shared →
    (op : signature.Op) → Option (signature.Answer op × Shared)

section Schedules

variable (respond : Responses Thread Call Value Shared signature)
  (program : Call → Program signature Value)

/-- One move; nothing happens when the thread cannot make it. -/
def move (played : Played Thread Call Value Shared signature) :
    Move Thread Call → Played Thread Call Value Shared signature
  | .starts thread call =>
      match played.system.running thread with
      | some _ => played
      | none =>
          { log := played.log ++ [.calls thread call]
            system :=
              { played.system with
                running :=
                  Function.update played.system.running thread
                    (some (program call)) } }
  | .continues thread =>
      match played.system.running thread with
      | none => played
      | some (.done value) =>
          { log := played.log ++ [.returns thread value]
            system :=
              { played.system with
                running :=
                  Function.update played.system.running thread none } }
      | some (.call op next) =>
          match respond played.log thread played.system.shared op with
          | none => played
          | some (answer, after) =>
              { log := played.log ++ [.performs thread ⟨op, answer⟩]
                system :=
                  { shared := after
                    running :=
                      Function.update played.system.running thread
                        (some (next answer)) } }

/-- The moves of a schedule, from an idle system on. -/
def play (shared : Shared) (moves : List (Move Thread Call)) :
    Played Thread Call Value Shared signature :=
  moves.foldl (move respond program) ⟨[], idle shared⟩

variable {respond program}

/-- A schedule is an execution when the shared state may answer so. -/
theorem play_execution
    (responds : ∀ log thread shared op answer after,
      respond log thread shared op = some (answer, after) →
        (worlds thread).perform shared op answer after)
    (moves : List (Move Thread Call)) :
    Execution (Step worlds program) (idle shared)
      (play respond program shared moves).log
      (play respond program shared moves).system := by
  have fromPlayed : ∀ (moves : List (Move Thread Call))
      (played : Played Thread Call Value Shared signature),
      Execution (Step worlds program) (idle shared) played.log
          played.system →
        Execution (Step worlds program) (idle shared)
          (moves.foldl (move respond program) played).log
          (moves.foldl (move respond program) played).system := by
    intro moves
    induction moves with
    | nil => exact fun _ past => past
    | cons next rest induction =>
        intro played past
        apply induction
        cases next with
        | starts thread call =>
            rw [move]
            split
            · exact past
            · rename_i idle
              exact past.extend (.calls thread call idle)
        | continues thread =>
            rw [move]
            split
            · exact past
            · rename_i value runs
              exact past.extend (.returns thread runs)
            · rename_i op next runs
              split
              · exact past
              · rename_i answer after responded
                exact past.extend
                  (.performs thread runs (responds _ _ _ _ _ _ responded))
  exact fromPlayed moves _ .start

/-- An entry that a schedule may write, given what may be answered. -/
inductive Planned (permits : Event signature → Prop)
    (moves : List (Move Thread Call)) :
    ThreadEvent Thread Call Value signature → Prop where
  | calls {thread : Thread} {call : Call}
      (started : .starts thread call ∈ moves) :
      Planned permits moves (.calls thread call)
  | performs {thread : Thread} {event : Event signature}
      (permitted : permits event) :
      Planned permits moves (.performs thread event)
  | returns (thread : Thread) (value : Value) :
      Planned permits moves (.returns thread value)

omit [DecidableEq Thread] in
theorem Planned.append
    {permits : Event signature → Prop} {moves : List (Move Thread Call)}
    {entry : ThreadEvent Thread Call Value signature}
    (planned : Planned permits moves entry)
    (more : List (Move Thread Call)) :
    Planned permits (moves ++ more) entry := by
  cases planned with
  | calls started => exact .calls (List.mem_append_left _ started)
  | performs permitted => exact .performs permitted
  | returns thread value => exact .returns thread value

/-- A schedule writes its own calls, what is answered, and returns. -/
theorem planned_of_play
    {permits : Event signature → Prop}
    (responds : ∀ log thread shared op answer after,
      respond log thread shared op = some (answer, after) →
        permits ⟨op, answer⟩)
    (moves : List (Move Thread Call)) :
    ∀ entry ∈ (play respond program shared moves).log,
      Planned permits moves entry := by
  induction moves using List.reverseRecOn with
  | nil => exact fun entry member => absurd member List.not_mem_nil
  | append_singleton moves last induction =>
      have earlier : ∀ entry ∈ (play respond program shared moves).log,
          Planned permits (moves ++ [last]) entry :=
        fun entry member => (induction entry member).append [last]
      have next : play respond program shared (moves ++ [last]) =
          move respond program (play respond program shared moves) last := by
        rw [play, List.foldl_append]
        rfl
      rw [next]
      cases last with
      | starts thread call =>
          rw [move]
          split
          · exact earlier
          · exact List.forall_mem_append.mpr ⟨earlier,
              List.forall_mem_singleton.mpr (.calls (by simp))⟩
      | continues thread =>
          rw [move]
          split
          · exact earlier
          · exact List.forall_mem_append.mpr ⟨earlier,
              List.forall_mem_singleton.mpr (.returns _ _)⟩
          · split
            · exact earlier
            · rename_i answer after responded
              exact List.forall_mem_append.mpr ⟨earlier,
                List.forall_mem_singleton.mpr
                  (.performs (responds _ _ _ _ _ _ responded))⟩

/-- A call under way was started by its schedule and answered as it may be. -/
theorem planned_current
    {permits : Event signature → Prop}
    (responds : ∀ log thread shared op answer after,
      respond log thread shared op = some (answer, after) →
        permits ⟨op, answer⟩)
    {moves : List (Move Thread Call)} {thread : Thread} {call : Call}
    {history : List (Event signature)}
    (atCall : current (play respond program shared moves).log thread =
      some (call, history)) :
    .starts thread call ∈ moves ∧ ∀ event ∈ history, permits event := by
  have planned : ∀ entry ∈ (play respond program shared moves).log,
      Planned permits moves entry := planned_of_play responds moves
  obtain ⟨past, since, split, _, rfl⟩ := exists_of_current atCall
  rw [split] at planned
  constructor
  · cases planned (.calls thread call) (by simp) with
    | calls started => exact started
  · intro event member
    have written := planned (.performs thread event)
      (List.mem_append_right _
        (List.mem_cons_of_mem _ (mem_eventsOf.mp member)))
    cases written with
    | performs permitted => exact permitted

end Schedules

end Threads

end ArnCore.Interaction
