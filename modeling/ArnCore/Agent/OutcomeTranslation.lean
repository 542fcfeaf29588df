import ArnCore.Agent.ExecutionCourse
import ArnCore.Agent.RuntimeFlag
import ArnCore.Agent.TracedSession

/-!
# The outcome of an execution

The status of an execution that nothing throws at is a function of the run:
whether its flag was set while its session was attached, what the session
returned, and the confirmations that were requested.  The trace of the requests
is the one of `TracedSession`; with a handler of the host it is the list of the
verdicts in the history.
-/

namespace ArnCore.Agent.OutcomeTranslation

open ArnCore.Interaction
open ArnCore.Provider
open ArnCore.Agent.Environment
open ArnCore.Agent.ExecutionCourse
open ArnCore.Agent.ExposedTools
open ArnCore.Agent.PromptDiscipline
open ArnCore.Agent.RuntimeExclusion
open ArnCore.Agent.RuntimeFlag
open ArnCore.Agent.RuntimeOutline
open ArnCore.Agent.RuntimeProtocol
open ArnCore.Agent.SharedMemory
open ArnCore.Agent.TracedSession

/-- The result that what happened during the run stands for. -/
inductive Translated (profile : AgentProfile) (attached : Bool)
    (flagged : Prop) (result : ApiResult) (trace : Trace) :
    AgentResult → Prop where
  | cancelled (stopped : flagged ∨ result.cancelled = true) :
      Translated profile attached flagged result trace
        { status := .cancelled, summary := "Execution cancelled." }
  | sessionFailed (proceeds : ¬ (flagged ∨ result.cancelled = true))
      (failed : result.ok = false) :
      Translated profile attached flagged result trace
        (failure "session_failed" result.message)
  | needsConfirmation (proceeds : ¬ (flagged ∨ result.cancelled = true))
      (ok : result.ok = true) (absent : attached = false)
      (requested : trace ≠ []) :
      Translated profile attached flagged result trace
        (failure "confirmation_required"
          "A tool requires a confirmation handler." .needsConfirmation)
  | permissionDenied (proceeds : ¬ (flagged ∨ result.cancelled = true))
      (ok : result.ok = true) (present : attached = true)
      (declined : ∃ request, (request, false) ∈ trace) :
      Translated profile attached flagged result trace
        (failure "permission_denied" "A tool operation was declined.")
  | completed (proceeds : ¬ (flagged ∨ result.cancelled = true))
      (ok : result.ok = true) (handled : attached = false → trace = [])
      (approved : ∀ entry ∈ trace, entry.2 = true) :
      Translated profile attached flagged result trace
        { status := .completed
          summary := result.message
          artifacts :=
            [{ type := .generic
               producer := profile.id
               content := result.message }] }

/-- The two bits of an execution are enough to translate its outcome. -/
theorem translated_conclusion
    {profile : AgentProfile} {attached stop : Bool} {flagged : Prop}
    {result : ApiResult} {trace : Trace}
    (reads : result.cancelled = false → (stop = true ↔ flagged)) :
    Translated profile attached flagged result trace
      (conclusion profile result stop (summary attached trace)) := by
  unfold conclusion
  by_cases stopped : (result.cancelled || stop) = true
  · rw [if_pos stopped]
    refine .cancelled ?_
    cases reported : result.cancelled with
    | true => exact Or.inr rfl
    | false =>
        rw [reported, Bool.false_or] at stopped
        exact Or.inl ((reads reported).mp stopped)
  · rw [if_neg stopped]
    rw [Bool.not_eq_true, Bool.or_eq_false_iff] at stopped
    have proceeds : ¬ (flagged ∨ result.cancelled = true) := by
      rintro (set | reported)
      · exact absurd ((reads stopped.1).mpr set) (by simp [stopped.2])
      · exact absurd reported (by simp [stopped.1])
    cases ok : result.ok with
    | false => exact .sessionFailed proceeds ok
    | true =>
        cases attached with
        | false =>
            cases trace with
            | nil =>
                exact .completed proceeds ok (fun _ => rfl)
                  (List.forall_mem_nil _)
            | cons entry rest =>
                exact .needsConfirmation proceeds ok rfl (by simp)
        | true =>
            by_cases declined : trace.any (fun entry => !entry.2) = true
            · simp only [summary, declined]
              refine .permissionDenied proceeds ok rfl ?_
              obtain ⟨⟨request, verdict⟩, member, refused⟩ :=
                List.any_eq_true.mp declined
              cases verdict with
              | true => cases refused
              | false => exact ⟨request, member⟩
            · simp only [summary, declined]
              refine .completed proceeds ok (fun absent => ?_) ?_
              · cases absent
              intro entry member
              by_contra refused
              apply declined
              apply List.any_eq_true.mpr
              exact ⟨entry, member, by simpa using refused⟩

/-- A completed execution has asked for nothing that was not approved. -/
theorem Translated.approved
    {profile : AgentProfile} {attached : Bool} {flagged : Prop}
    {result : ApiResult} {trace : Trace} {outcome : AgentResult}
    (translated : Translated profile attached flagged result trace outcome)
    (completed : outcome.status = .completed) :
    ∀ entry ∈ trace, entry.2 = true := by
  cases translated with
  | completed proceeds ok handled approved => exact approved
  | _ => cases completed

/-! ## The flag at the end of an execution -/

section Course

variable {Thread : Type} [DecidableEq Thread] {hasProvider : Bool}
  {apiKey model : String} {bindings : List NativeBinding}
  {log : RuntimeLog Thread} {system : RuntimeThreads Thread}
  {thread : Thread} {call : RuntimeCall}

/-- The last check of an execution reads whether it was cancelled. -/
theorem load_iff_cancelled
    (execution : Execution
      (Threads.Step memoryOf (body hasProvider apiKey model bindings))
      (Threads.idle {}) log system)
    {before between after : List AgentEvent} {stop : Bool}
    (atCall : Threads.current log thread =
      some (call, before ++ ⟨.clear .activeCancel, ()⟩ ::
        (between ++ ⟨.load .cancelled, stop⟩ :: after)))
    (detached : ⟨.publish .activeCancel, ()⟩ ∉
      between ++ ⟨.load .cancelled, stop⟩ :: after)
    (kept : ⟨.store .cancelled false, ()⟩ ∉
      between ++ ⟨.load .cancelled, stop⟩ :: after) :
    stop = true ↔ Cancelled log thread := by
  have split : before ++ ⟨.clear .activeCancel, ()⟩ ::
        (between ++ ⟨.load .cancelled, stop⟩ :: after) =
      (before ++ ⟨.clear .activeCancel, ()⟩ :: between) ++
        (⟨.load .cancelled, stop⟩ : AgentEvent) :: after := by simp
  rw [split] at atCall
  obtain ⟨earlier, later, rfl, atLoad, _, since⟩ :=
    Threads.split_of_current atCall
  rw [load_iff execution]
  obtain ⟨past, middle, rfl, _, _, meanwhile⟩ :=
    Threads.split_of_current atLoad
  have events : Threads.eventsOf thread
      (middle ++ .performs thread ⟨.load .cancelled, stop⟩ :: later) =
        between ++ ⟨.load .cancelled, stop⟩ :: after := by
    rw [← meanwhile, ← since]
    simp [Threads.eventsOf, Threads.eventOf]
  have whole : Cancelled
        ((past ++ .performs thread ⟨.clear .activeCancel, ()⟩ :: middle) ++
          .performs thread ⟨.load .cancelled, stop⟩ :: later) thread ↔
      Cancelled past thread := by
    rw [List.append_assoc, List.cons_append]
    apply cancelled_iff_of_detached
    · rwa [events]
    · rwa [events]
  rw [whole]
  apply cancelled_iff_of_detached
  · rw [meanwhile]
    exact fun member => detached (List.mem_append_left _ member)
  · rw [meanwhile]
    exact fun member => kept (List.mem_append_left _ member)

/-- The course of an execution reads its flag where it is needed. -/
theorem course_reads_flag
    (execution : Execution
      (Threads.Step memoryOf (body hasProvider apiKey model bindings))
      (Threads.idle {}) log system)
    {capabilities : ModelCapabilities} {prompted : List AgentEvent}
    {result : ApiResult} {stop : Bool}
    (atCall : Threads.current log thread =
      some (call, opening model capabilities ++ attaching ++ prompted ++
        detaching ++ resetting ++ checking result stop ++ closing))
    (unreported : result.cancelled = false) :
    stop = true ↔ Cancelled log thread := by
  have split : opening model capabilities ++ attaching ++ prompted ++
        detaching ++ resetting ++ checking result stop ++ closing =
      (opening model capabilities ++ attaching ++ prompted ++
          [⟨.lock .runtime, ()⟩, ⟨.clear .activeSession, ()⟩]) ++
        (⟨.clear .activeCancel, ()⟩ : AgentEvent) ::
          ((⟨.unlock .runtime, ()⟩ :: resetting) ++
            (⟨.load .cancelled, stop⟩ : AgentEvent) :: closing) := by
    simp [detaching, checking, unreported]
  rw [split] at atCall
  apply load_iff_cancelled execution atCall
  · intro present
    repeat rcases present with _ | ⟨_, present⟩
  · intro present
    repeat rcases present with _ | ⟨_, present⟩

/-- The verdicts in a history are those of its prompt. -/
theorem answered_course
    {capabilities : ModelCapabilities} {prompted : List AgentEvent}
    {result : ApiResult} {stop : Bool} :
    (opening model capabilities ++ attaching ++ prompted ++ detaching ++
        resetting ++ checking result stop ++ closing).foldl answered [] =
      prompted.foldl answered [] := by
  have check : ∀ trace,
      (checking result stop).foldl answered trace = trace := by
    intro trace
    unfold checking
    split <;> rfl
  simp only [List.foldl_append, check]
  rfl

/--
An execution that nothing throws at is refused by a check, or its result is the
translation of what happened while its session was attached.
-/
theorem outcome_translated
    (execution : Execution
      (Threads.Step memoryOf (body hasProvider apiKey model bindings))
      (Threads.idle {}) log system)
    {json : JsonText} {context : AgentContext}
    {text progress attached : Bool} {history : List AgentEvent}
    {value : RuntimeReturn} {input : String}
    (atCall : Threads.current log thread =
      some (.execute json context text progress attached, history))
    (returned : system.running thread = some (.done value))
    (calm : ∀ event ∈ history, ¬ Throws event)
    (serialized : json.dump (promptJson context) = .ok input) :
    ∃ outcome, value = .executed (.ok outcome) ∧
      (Refused hasProvider apiKey model bindings context history outcome ∨
        ∃ exposed prompted result trace,
          exposeTools context.profile context.task.constraints
              (bindings.map NativeBinding.toBinding) [] {} =
            some (registryOf PermissionOutcome exposed) ∧
          prompted <:+: history ∧
          Action.Finishes
            ((tracedSession apiKey model attached (sessionConfig context)
              exposed).prompt (hostCallbacks text progress)
              (callerFlag true) input)
            [] prompted (.ok result) trace ∧
          (attached = true → trace = history.foldl answered []) ∧
          Translated context.profile attached (Cancelled log thread) result
            trace outcome ∧
          (outcome.status = .completed →
            ∀ entry ∈ trace, entry.2 = true)) := by
  have running := Threads.runs_current execution thread
  rw [atCall, returned] at running
  cases running with
  | runs run =>
      obtain ⟨outcome, rfl, ⟨refused, _⟩ | ⟨_, course⟩⟩ :=
        execute_course serialized (Program.runs_done_iff.mp run) calm
      · exact ⟨outcome, rfl, Or.inl refused⟩
      · cases course with
        | @completes capabilities registry prompted result permission stop
            known prompts =>
            obtain ⟨exposed, rfl⟩ := exists_exposed known
            obtain ⟨trace, rfl, traced, verdicts⟩ := exists_trace prompts.run
            have translated : Translated context.profile attached
                (Cancelled log thread) result trace
                (conclusion context.profile result stop
                  (summary attached trace)) := by
              apply translated_conclusion
              exact course_reads_flag execution atCall
            refine ⟨_, rfl, Or.inr ⟨exposed, prompted, result, trace, known,
              ?_, traced, ?_, translated, translated.approved⟩⟩
            · refine ⟨opening model capabilities ++ attaching,
                detaching ++ (resetting ++ (checking result stop ++ closing)),
                ?_⟩
              simp only [List.append_assoc]
            · intro present
              rw [answered_course]
              exact verdicts present

end Course

/-! ## A declined confirmation, and one during which the host cancels -/

/-- A profile that may read, and write when it is asked for. -/
def writerContext : AgentContext where
  profile :=
    { id := "writer"
      allowedTools := ["read_file", "write_file"]
      permissions :=
        ((AgentPermissions.empty.setDecision .readFile .allow).2.setDecision
          .writeFile .askUser).2 }
  task := { id := "1", objective := "Fix it", workingDirectory := "/w" }

def fileBinding (name : String) (operation : OperationClass) :
    NativeBinding where
  tool := some ({ name := name, description := "", parameterSchema := .null },
    false)
  operations := [operation]

def writerBindings : List NativeBinding :=
  [fileBinding "read_file" .readFile, fileBinding "write_file" .writeFile]

/-- A turn that reads and then writes. -/
def readsAndWrites : ModelTurn where
  ok := true
  toolCalls :=
    [{ id := "call_1", name := "read_file", arguments := .null },
      { id := "call_2", name := "write_file", arguments := .null }]

/-- The host decides whether the file is written. -/
def deciding (approved : Bool) : (op : AgentOp) → agents.Answer op
  | .startTurn _ => .ok readsAndWrites
  | .confirm _ => .ok approved
  | op => quiet op

theorem calm_deciding (approved : Bool) (op : AgentOp) :
    ¬ Throws ⟨op, deciding approved op⟩ := by
  cases op <;> exact id

/-- The host's answers and the memory's throw nothing. -/
theorem calm_scheduled
    {approved : Bool} {log : RuntimeLog Bool} {thread : Bool}
    {memory after : Memory Bool} {op : AgentOp} {answer : agents.Answer op}
    (responded : scheduled (fun _ _ => deciding approved) log thread memory
      op = some (answer, after)) :
    ¬ Throws ⟨op, answer⟩ := by
  cases op with
  | load flag => exact id
  | exchange flag value => exact id
  | present pointer => exact id
  | lock mutex => exact id
  | _ =>
      cases responded
      exact calm_deciding approved _

def writerCall : RuntimeCall :=
  .execute (.knowing []) writerContext false false true

/-- A schedule of the writer's runtime. -/
def scheduledWrite (approved : Bool)
    (moves : List (Threads.Move Bool RuntimeCall)) :
    Threads.Played Bool RuntimeCall RuntimeReturn (Memory Bool) agents :=
  Threads.play (scheduled fun _ _ => deciding approved)
    (body true "key" "model" writerBindings) {} moves

/-- One execution, from its start until it is about to return. -/
def wholeExecution : List (Threads.Move Bool RuntimeCall) :=
  .starts true writerCall :: List.replicate 43 (.continues true)

/-- A cancellation while the host is asked for a confirmation. -/
def cancelledAsking : List (Threads.Move Bool RuntimeCall) :=
  .starts true writerCall :: List.replicate 27 (.continues true) ++
    .starts false .cancel :: List.replicate 7 (.continues false) ++
    List.replicate 14 (.continues true)

theorem call_of_wholeExecution (call : RuntimeCall)
    (started : .starts true call ∈ wholeExecution) : call = writerCall := by
  simpa [wholeExecution, -List.reduceReplicate] using started

theorem call_of_cancelledAsking (call : RuntimeCall)
    (started : .starts true call ∈ cancelledAsking) : call = writerCall := by
  simpa [cancelledAsking, -List.reduceReplicate] using started

/-- The host declines; the turn goes on and the execution ends. -/
def declinedWrite :
    Threads.Played Bool RuntimeCall RuntimeReturn (Memory Bool) agents :=
  scheduledWrite false wholeExecution

/-- The host cancels while it is asked, and then approves. -/
def stoppedWrite :
    Threads.Played Bool RuntimeCall RuntimeReturn (Memory Bool) agents :=
  scheduledWrite true cancelledAsking

theorem execution_scheduledWrite
    (approved : Bool) (moves : List (Threads.Move Bool RuntimeCall)) :
    Execution
      (Threads.Step memoryOf (body true "key" "model" writerBindings))
      (Threads.idle {}) (scheduledWrite approved moves).log
      (scheduledWrite approved moves).system :=
  Threads.play_execution (scheduled_performs fun _ _ => deciding approved) _

/-- The outcome with which an execution is about to return. -/
def outcome? : Option (Program agents RuntimeReturn) → Option AgentResult
  | some (.done (.executed (.ok outcome))) => some outcome
  | _ => none

/-- The call behind an outcome, and what happened in it. -/
theorem writer_returned
    {approved : Bool} {moves : List (Threads.Move Bool RuntimeCall)}
    {outcome : AgentResult}
    (only : ∀ call, .starts true call ∈ moves → call = writerCall)
    (returned : outcome? ((scheduledWrite approved moves).system.running true) =
      some outcome) :
    (scheduledWrite approved moves).system.running true =
        some (.done (.executed (.ok outcome))) ∧
      ∃ history,
        Threads.current (scheduledWrite approved moves).log true =
            some (writerCall, history) ∧
          ∀ event ∈ history, ¬ Throws event := by
  have running : (scheduledWrite approved moves).system.running true =
      some (.done (.executed (.ok outcome))) := by
    unfold outcome? at returned
    split at returned
    · cases returned
      assumption
    · cases returned
  refine ⟨running, ?_⟩
  have calling :=
    Threads.runs_current (execution_scheduledWrite approved moves) true
  rw [running] at calling
  generalize atCall :
    Threads.current (scheduledWrite approved moves).log true = current
    at calling
  cases calling with
  | @runs call history _ run =>
      have planned : .starts true call ∈ moves ∧
          ∀ event ∈ history, ¬ Throws event :=
        Threads.planned_current (fun _ _ _ _ _ _ => calm_scheduled) atCall
      obtain ⟨started, calm⟩ := planned
      obtain rfl := only call started
      exact ⟨history, rfl, calm⟩

/-- What the outcome of such an execution is translated from. -/
def Accounted (log : RuntimeLog Bool) (outcome : AgentResult) : Prop :=
  ∃ history, Threads.current log true = some (writerCall, history) ∧
    (Refused true "key" "model" writerBindings writerContext history outcome ∨
      ∃ exposed prompted result trace,
        exposeTools writerContext.profile writerContext.task.constraints
            (writerBindings.map NativeBinding.toBinding) [] {} =
          some (registryOf PermissionOutcome exposed) ∧
        prompted <:+: history ∧
        Action.Finishes
          ((tracedSession "key" "model" true (sessionConfig writerContext)
            exposed).prompt (hostCallbacks false false) (callerFlag true)
            (promptJson writerContext).compact)
          [] prompted (.ok result) trace ∧
        (true = true → trace = history.foldl answered []) ∧
        Translated writerContext.profile true (Cancelled log true) result
          trace outcome ∧
        (outcome.status = .completed → ∀ entry ∈ trace, entry.2 = true))

theorem outcome_translated_writer :
    Accounted declinedWrite.log
        (failure "permission_denied" "A tool operation was declined.") ∧
      Accounted stoppedWrite.log
        { status := .cancelled, summary := "Execution cancelled." } := by
  have serialized : (JsonText.knowing []).dump (promptJson writerContext) =
      .ok (promptJson writerContext).compact := rfl
  have declined : outcome? (declinedWrite.system.running true) =
      some (failure "permission_denied" "A tool operation was declined.") := by
    decide +kernel
  have stopped : outcome? (stoppedWrite.system.running true) =
      some { status := .cancelled, summary := "Execution cancelled." } := by
    decide +kernel
  constructor
  · obtain ⟨running, history, atCall, calm⟩ :=
      writer_returned call_of_wholeExecution declined
    obtain ⟨outcome, same, accounted⟩ := outcome_translated
      (execution_scheduledWrite _ _) atCall running calm serialized
    cases same
    exact ⟨history, atCall, accounted⟩
  · obtain ⟨running, history, atCall, calm⟩ :=
      writer_returned call_of_cancelledAsking stopped
    obtain ⟨outcome, same, accounted⟩ := outcome_translated
      (execution_scheduledWrite _ _) atCall running calm serialized
    cases same
    exact ⟨history, atCall, accounted⟩

end ArnCore.Agent.OutcomeTranslation
