import ArnCore.Agent.OutcomeTranslation
import ArnCore.Agent.RuntimeStages

/-!
# Cancellations take effect

A cancellation that finds a session attached sets the flag of its execution.
From then on the execution enters no native tool and continues no turn, and it
returns as cancelled; no other execution reads the flag.

An operation stands in the log where it is entered.  What other threads do
before the next event of its caller may happen while it runs, so a cancellation
from a callback, from the confirmation handler or from inside a tool is one of
the interleavings.
-/

namespace ArnCore.Agent.EffectiveCancellation

open ArnCore.Interaction
open ArnCore.Provider
open ArnCore.Agent.Environment
open ArnCore.Agent.ExecutionCourse
open ArnCore.Agent.ExecutionSafety
open ArnCore.Agent.ExposedTools
open ArnCore.Agent.OutcomeTranslation
open ArnCore.Agent.PromptDiscipline
open ArnCore.Agent.RuntimeExclusion
open ArnCore.Agent.RuntimeFlag
open ArnCore.Agent.RuntimeOutline
open ArnCore.Agent.RuntimeProtocol
open ArnCore.Agent.RuntimeStages
open ArnCore.Agent.SharedMemory
open ArnCore.Agent.TracedSession

variable {Thread : Type}

/-! ## Guarded operations follow a check -/

/-- In every call a guarded operation directly follows a check of the flag. -/
theorem body_checked
    (hasProvider : Bool) (apiKey model : String)
    (bindings : List NativeBinding) (call : RuntimeCall) (seen : Watch) :
    (body hasProvider apiKey model bindings call).Holds (monitored watch)
      (fun seen op => IsGuarded op → seen.clear) (fun _ _ => True) seen := by
  apply body_safe
  · intro state op isOutside guarded
    cases op with
    | continueTurn request => exact isOutside.elim
    | enterTool name arguments => exact isOutside.elim
    | _ => exact guarded.elim
  · intro json context text progress attached exposed input known _ locals
      state
    apply Action.Holds.mono (prompt_disciplined (ofNativeTools_exposed known)
      (sessionConfig context) input locals state)
    · exact fun _ _ checked => checked.2
    · exact fun _ _ _ _ => trivial

section Interleavings

variable [DecidableEq Thread] {hasProvider : Bool} {apiKey model : String}
  {bindings : List NativeBinding} {log : RuntimeLog Thread}
  {system : RuntimeThreads Thread}

/-- The last event of a thread that is about to do something guarded. -/
theorem check_of_guarded
    (execution : Execution
      (Threads.Step memoryOf (body hasProvider apiKey model bindings))
      (Threads.idle {}) log system)
    {thread : Thread} {op : AgentOp}
    {next : agents.Answer op → Program agents RuntimeReturn}
    (runs : system.running thread = some (.call op next))
    (guarded : IsGuarded op) :
    ∃ call history, Threads.current log thread =
      some (call, history ++ [⟨.load .cancelled, false⟩]) := by
  have running := Threads.runs_current execution thread
  rw [runs] at running
  generalize Threads.current log thread = current at running
  cases running with
  | @runs call history _ run =>
      have clear := ((body_checked hasProvider apiKey model bindings call
        ⟨False, False⟩).runs run).2.1 guarded
      rcases List.eq_nil_or_concat history with rfl | ⟨earlier, last, rfl⟩
      · exact clear.elim
      · rw [List.concat_eq_append] at clear ⊢
        rw [List.foldl_append] at clear
        obtain ⟨op, answer⟩ := last
        have check : IsClearCheck ⟨op, answer⟩ := clear
        cases op with
        | load name =>
            cases name with
            | cancelled =>
                cases answer with
                | false => exact ⟨call, earlier, rfl⟩
                | true => exact check.elim
            | _ => exact check.elim
        | _ => exact check.elim

/-- A cancellation stores the flag of an execution whose session it found. -/
theorem attached_of_cancelling
    {before after : RuntimeLog Thread} {canceller : Thread}
    (execution : Execution
      (Threads.Step memoryOf (body hasProvider apiKey model bindings))
      (Threads.idle {})
      (before ++ .performs canceller ⟨.store .cancelled true, ()⟩ :: after)
      system) :
    ∃ thread, Attached before thread := by
  obtain ⟨source, target, past, step⟩ := execution.step_of_log
  cases step with
  | performs _ runs performed =>
      obtain ⟨phase, atPhase, allowed⟩ := Threads.allowed_of_performs
        (body_verified hasProvider apiKey model bindings) past runs
      have inspecting := inspecting_of_store allowed
      subst inspecting
      have inv := exclusive past
      obtain ⟨owner, scope, ownPhase, _, _, _, activeCancel⟩ :=
        inv.owner_of_inspecting atPhase
      have mirrors := (inv.gate.shown gated_injective ownPhase).mirrors
      rw [mirrors.activeCancel, owned_eq_some] at activeCancel
      exact ⟨owner, (attached_iff past owner).mpr
        ⟨_, ownPhase, scope, rfl, activeCancel.1⟩⟩

/-- The call of an execution whose session is attached. -/
theorem current_of_attached
    (execution : Execution
      (Threads.Step memoryOf (body hasProvider apiKey model bindings))
      (Threads.idle {}) log system)
    {thread : Thread} (attached : Attached log thread) :
    ∃ call history, Threads.current log thread = some (call, history) ∧
      ⟨.publish .activeCancel, ()⟩ ∈ history := by
  obtain ⟨phase, atPhase, isAttached⟩ :=
    (attached_iff execution thread).mp attached
  obtain ⟨⟨call, history⟩, atCall, rfl⟩ := Option.map_eq_some_iff.mp atPhase
  exact ⟨call, history, atCall, published_of_attached isAttached⟩

/-- The flag of an execution is created before its session is attached. -/
theorem flag_not_created_again
    {past since : RuntimeLog Thread}
    (execution : Execution
      (Threads.Step memoryOf (body hasProvider apiKey model bindings))
      (Threads.idle {}) (past ++ since) system)
    {thread : Thread} (attached : Attached past thread)
    (stays : ∀ value, .returns thread value ∉ since) :
    .performs thread ⟨.store .cancelled false, ()⟩ ∉ since := by
  intro member
  obtain ⟨before, after, rfl⟩ := List.append_of_mem member
  obtain ⟨_, pastExecution⟩ := execution.earlier
  rw [← List.append_assoc] at execution
  obtain ⟨source, target, reached, step⟩ := execution.step_of_log
  obtain ⟨call, history, atCall, published⟩ :=
    current_of_attached pastExecution attached
  have inCall := Threads.staysInCall_of_not_returns reached atCall
    fun value returned => stays value (List.mem_append_left _ returned)
  have running := Threads.runs_current reached thread
  cases step with
  | performs _ runs performed =>
      rw [Threads.current_append atCall inCall, runs] at running
      cases running with
      | runs run =>
          have created := ((body_staged hasProvider apiKey model bindings
            call).runs run).2.1
          have later := later_of_published run
            (List.mem_append_left _ published)
          exact later.2 created

/-! ## After the flag is stored -/

/-- Each check of the flag and the guarded call behind it are one step. -/
def AtomicChecks (log : RuntimeLog Thread) : Prop :=
  ∀ (before : RuntimeLog Thread) (thread : Thread)
    (between : RuntimeLog Thread) (op : AgentOp) (answer : agents.Answer op)
    (after : RuntimeLog Thread),
    log = before ++ .performs thread ⟨.load .cancelled, false⟩ ::
        (between ++ .performs thread ⟨op, answer⟩ :: after) →
      Threads.eventsOf thread between = [] → IsGuarded op →
        ∀ canceller,
          .performs canceller ⟨.store .cancelled true, ()⟩ ∉ between

/-- A cancelled execution does nothing guarded until it returns. -/
theorem not_guarded_of_cancelled
    (atomic : AtomicChecks log)
    {thread canceller : Thread} {before between after : RuntimeLog Thread}
    {op : AgentOp} {answer : agents.Answer op}
    (split : log = before ++
      .performs canceller ⟨.store .cancelled true, ()⟩ ::
        (between ++ .performs thread ⟨op, answer⟩ :: after))
    (execution : Execution
      (Threads.Step memoryOf (body hasProvider apiKey model bindings))
      (Threads.idle {}) log system)
    (attached : Attached before thread)
    (stays : ∀ value, .returns thread value ∉ between) :
    ¬ IsGuarded op := by
  intro guarded
  have whole := execution
  rw [split, ← List.cons_append, ← List.append_assoc] at execution
  obtain ⟨source, target, past, step⟩ := execution.step_of_log
  cases step with
  | performs _ runs performed =>
      obtain ⟨call, history, atCall⟩ := check_of_guarded past runs guarded
      obtain ⟨earlier, later, atLoad, _, _, silent⟩ :=
        Threads.split_of_current atCall
      rcases List.append_eq_append_iff.mp atLoad with
        ⟨middle, sameEarlier, rest⟩ | ⟨middle, sameBefore, rest⟩
      · -- The flag was read after it had been stored.
        cases middle with
        | nil => cases rest
        | cons first middle =>
            injection rest with sameFirst sameBetween
            subst sameFirst
            change between = middle ++
              .performs thread ⟨.load .cancelled, false⟩ :: later
                at sameBetween
            have kept := flag_not_created_again past attached
              (by simpa using stays)
            have cancelled : Cancelled (before ++
                .performs canceller ⟨.store .cancelled true, ()⟩ :: middle)
                thread := by
              refine ⟨before, middle, canceller, rfl, attached, ?_⟩
              intro again
              apply kept
              rw [sameBetween]
              exact List.mem_cons_of_mem _ (List.mem_append_left _ again)
            rw [sameBetween, ← List.cons_append, ← List.append_assoc] at past
            have read := (load_iff past).mpr cancelled
            cases read
      · -- The flag was stored between the check and the guarded call.
        cases middle with
        | nil => cases rest
        | cons first middle =>
            injection rest with sameFirst sameLater
            subst sameFirst
            refine atomic earlier thread later op answer after ?_ silent
              guarded canceller ?_
            · rw [split, sameBefore, sameLater]
              simp
            · rw [sameLater]
              simp

/-- The result of a cancelled execution. -/
def executionCancelled : AgentResult where
  status := .cancelled
  summary := "Execution cancelled."

/-- A cancelled execution that nothing throws at returns as cancelled. -/
theorem returns_cancelled
    {thread canceller : Thread} {before after : RuntimeLog Thread}
    (execution : Execution
      (Threads.Step memoryOf (body hasProvider apiKey model bindings))
      (Threads.idle {})
      (before ++ .performs canceller ⟨.store .cancelled true, ()⟩ :: after)
      system)
    (attached : Attached before thread)
    (stays : ∀ value, .returns thread value ∉ after)
    {json : JsonText} {context : AgentContext}
    {text progress withHandler : Bool} {history : List AgentEvent}
    {input : String} {value : RuntimeReturn}
    (atCall : Threads.current
        (before ++ .performs canceller ⟨.store .cancelled true, ()⟩ :: after)
        thread =
      some (.execute json context text progress withHandler, history))
    (returned : system.running thread = some (.done value))
    (calm : Calm history)
    (serialized : json.dump (promptJson context) = .ok input) :
    value = .executed (.ok executionCancelled) := by
  have stays' : ∀ value, .returns thread value ∉
      (.performs canceller ⟨.store .cancelled true, ()⟩ :: after :
        RuntimeLog Thread) := by
    simpa using stays
  have kept := flag_not_created_again execution attached stays'
  have cancelled : Cancelled (before ++
      .performs canceller ⟨.store .cancelled true, ()⟩ :: after) thread :=
    ⟨before, after, canceller, rfl, attached,
      fun again => kept (List.mem_cons_of_mem _ again)⟩
  have published : ⟨.publish .activeCancel, ()⟩ ∈ history := by
    obtain ⟨_, past⟩ := execution.earlier
    obtain ⟨call, earlier, wasAtCall, member⟩ :=
      current_of_attached past attached
    have inCall :=
      Threads.staysInCall_of_not_returns execution wasAtCall stays'
    rw [Threads.current_append wasAtCall inCall] at atCall
    cases atCall
    exact List.mem_append_left _ member
  have running := Threads.runs_current execution thread
  rw [atCall, returned] at running
  cases running with
  | runs run =>
      obtain ⟨outcome, rfl, ⟨_, silent⟩ | ⟨_, course⟩⟩ :=
        execute_course serialized (Program.runs_done_iff.mp run) calm
      · exact absurd published silent
      · cases course with
        | @completes capabilities registry prompted result permission stop
            known prompts =>
            have stopped : (result.cancelled || stop) = true := by
              cases reported : result.cancelled with
              | true => rfl
              | false =>
                  rw [Bool.false_or]
                  exact (course_reads_flag execution atCall
                    reported).mpr cancelled
            rw [conclusion, if_pos stopped]
            rfl

/-- The flag an execution reads was stored while its own session was attached. -/
theorem own_cancellation
    {thread : Thread} {past since later : RuntimeLog Thread}
    {call : RuntimeCall}
    (execution : Execution
      (Threads.Step memoryOf (body hasProvider apiKey model bindings))
      (Threads.idle {})
      ((past ++ .calls thread call :: since) ++
        .performs thread ⟨.load .cancelled, true⟩ :: later) system)
    (stays : Threads.StaysInCall thread since) :
    ∃ before canceller after,
      since = before ++
          .performs canceller ⟨.store .cancelled true, ()⟩ :: after ∧
        Attached before thread := by
  obtain ⟨before, after, canceller, split, attached, kept⟩ :=
    (load_iff execution).mp rfl
  obtain ⟨source, target, reached, step⟩ := execution.step_of_log
  have begun : Threads.current (past ++ [.calls thread call]) thread =
      some (call, []) := by
    rw [Threads.current_snoc, Threads.advance, Function.update_self]
  have atCall := Threads.current_append begun stays
  rw [List.append_assoc, List.singleton_append, List.nil_append] at atCall
  have created : .performs thread ⟨.store .cancelled false, ()⟩ ∈ since := by
    cases step with
    | performs _ runs performed =>
        obtain ⟨scope, atPhase, ready⟩ := ready_of_load reached runs
        rw [Threads.phases, atCall, Option.map_some,
          Option.some.injEq] at atPhase
        exact Threads.mem_eventsOf.mp (created_of_ready atPhase ready)
  obtain ⟨first, rest, rfl⟩ := List.append_of_mem created
  have ordered : (past ++ .calls thread call :: first) ++
      .performs thread ⟨.store .cancelled false, ()⟩ :: rest =
        before ++ .performs canceller ⟨.store .cancelled true, ()⟩ ::
          after := by
    rw [← split]
    simp
  obtain ⟨between, rfl, rfl⟩ := append_cons_of_not_mem ordered (by
    intro same
    injection same with _ same
    cases congrArg Event.op same) kept
  refine ⟨first ++ .performs thread ⟨.store .cancelled false, ()⟩ :: between,
    canceller, after, by simp, ?_⟩
  have regroup : ∀ last : RuntimeLog Thread,
      past ++ .calls thread call :: last =
        (past ++ [.calls thread call]) ++ last := by simp
  rw [List.append_assoc, List.cons_append, regroup] at attached
  rw [regroup] at reached
  obtain ⟨_, pastExecution⟩ := reached.earlier
  rcases Threads.within_append attached with earlier | own
  · -- A call that has just begun has not attached a session.
    obtain ⟨phase, atPhase, scope, rfl, _⟩ :=
      (attached_iff pastExecution thread).mp earlier
    rw [Threads.phases, begun] at atPhase
    cases call <;> cases atPhase
  · exact own

/-- What a cancellation brings about for the execution whose session it found. -/
structure Effective (log : RuntimeLog Thread)
    (system : RuntimeThreads Thread) (before after : RuntimeLog Thread)
    (thread : Thread) : Prop where
  /-- The session of exactly this execution was attached. -/
  found : ∀ other, Attached before other ↔ other = thread
  /-- No native tool is entered and no turn continued until it returns. -/
  stops : ∀ (between : RuntimeLog Thread) (op : AgentOp)
    (answer : agents.Answer op) (rest : RuntimeLog Thread),
    after = between ++ .performs thread ⟨op, answer⟩ :: rest →
      (∀ value, .returns thread value ∉ between) → ¬ IsGuarded op
  /-- Whatever the session returns, the execution returns as cancelled. -/
  returns : (∀ value, .returns thread value ∉ after) →
    ∀ json context text progress withHandler history input value,
      Threads.current log thread =
          some (.execute json context text progress withHandler, history) →
        system.running thread = some (.done value) →
        (∀ event ∈ history, ¬ Throws event) →
        json.dump (promptJson context) = .ok input →
          value = .executed (.ok executionCancelled)

/-- What cancellations do not change for any other execution. -/
structure Unaffected (log : RuntimeLog Thread)
    (system : RuntimeThreads Thread) : Prop where
  /-- An execution reads a set flag only when its own session was found. -/
  flag : ∀ past thread call since later,
    log = (past ++ .calls thread call :: since) ++
        .performs thread ⟨.load .cancelled, true⟩ :: later →
      Threads.StaysInCall thread since →
        ∃ before canceller after,
          since = before ++
              .performs canceller ⟨.store .cancelled true, ()⟩ :: after ∧
            Attached before thread
  /-- The gate is open and no pointer is left for the next execution. -/
  gate : (∀ thread, ¬ PastGate .runtimeExecuting log thread) →
    AtRest system.shared

end Interleavings

/-! ## A cancellation while the host is asked -/

/-- Whether an entry of a log stores a cancellation. -/
def isCancelling :
    ThreadEvent Bool RuntimeCall RuntimeReturn agents → Bool
  | .performs _ ⟨.store .cancelled true, _⟩ => true
  | _ => false

/-- Whether an entry of a log enters a native tool or continues a turn. -/
def isGuarded :
    ThreadEvent Bool RuntimeCall RuntimeReturn agents → Bool
  | .performs _ ⟨.continueTurn _, _⟩ => true
  | .performs _ ⟨.enterTool _ _, _⟩ => true
  | _ => false

/-- Where nothing guarded follows a cancellation, checks are atomic. -/
theorem atomicChecks_of_not_followed
    {log : RuntimeLog Bool}
    (apart : Threads.followed isCancelling isGuarded log = false) :
    AtomicChecks log := by
  rintro before thread between op answer after rfl - guarded canceller member
  obtain ⟨first, later, rfl⟩ := List.append_of_mem member
  have isLater : isGuarded (.performs thread ⟨op, answer⟩) = true := by
    cases op with
    | continueTurn request => rfl
    | enterTool name arguments => rfl
    | _ => exact guarded.elim
  rw [← Bool.not_eq_true, Threads.followed_iff] at apart
  exact apart ⟨before ++ .performs thread ⟨.load .cancelled, false⟩ :: first,
    .performs canceller ⟨.store .cancelled true, ()⟩,
    later ++ .performs thread ⟨op, answer⟩ :: after, by simp, rfl,
    .performs thread ⟨op, answer⟩, by simp, isLater⟩

example :
    stoppedWrite.log.length = 50 ∧ stoppedWrite.log.any isGuarded = true := by
  decide +kernel

end ArnCore.Agent.EffectiveCancellation
