import ArnCore.Confirmation.TokenUse

/-!
# What a wait returns

All waits share one slot.  A cancellation is a level that `reset` lowers
again, so a wait that was cancelled keeps its verdict only while nobody
lowers the level under an approved slot and nobody approves after it was
lowered.  An answer reaches the wait that asked for it as long as no other
wait takes the slot or clears it.
-/

namespace ArnCore.Confirmation.WaitOutcome

open ArnCore.Interaction
open ArnCore.Confirmation.ConfirmationGate
open ArnCore.Confirmation.TokenUse

variable {Thread : Type}

/-! ## Cancelled waits -/

/-- A cancellation was completed after the last token of a thread. -/
def CancelledSinceEmission (log : List (GateEvent Thread))
    (thread : Thread) : Prop :=
  ∃ before after,
    log = before ++ .cancel :: after ∧ ∀ token, .emitted thread token ∉ after

/-- How one more step changes whether a wait has been cancelled. -/
theorem cancelledSinceEmission_snoc
    {log : List (GateEvent Thread)} {event : GateEvent Thread}
    {thread : Thread} :
    CancelledSinceEmission (log ++ [event]) thread ↔
      event = .cancel ∨
        (CancelledSinceEmission log thread ∧
          ∀ token, event ≠ .emitted thread token) := by
  constructor
  · rintro ⟨before, after, split, noEmission⟩
    rcases snoc_eq_append_cons split with
      ⟨_, sameEvent, _⟩ | ⟨shorter, samePast, sameAfter⟩
    · exact Or.inl sameEvent.symm
    · subst sameAfter
      refine Or.inr ⟨⟨before, shorter, samePast, ?_⟩, ?_⟩
      · intro token emitted
        exact noEmission token (List.mem_append_left _ emitted)
      · intro token same
        exact noEmission token (by simp [same])
  · rintro (same | ⟨⟨before, after, split, noEmission⟩, silent⟩)
    · exact ⟨log, [], by rw [same], by simp⟩
    · refine ⟨before, after ++ [event], by simp [split], ?_⟩
      intro token emitted
      rcases List.mem_append.mp emitted with earlier | last
      · exact noEmission token earlier
      · exact silent token (List.mem_singleton.mp last).symm

/-- A wait that was cancelled while it was blocked returns false. -/
def CancelIsFinal (log : List (GateEvent Thread)) : Prop :=
  ∀ before after thread token result,
    log = before ++ .returned thread token result :: after →
      CancelledSinceEmission before thread → result = false

/-- Some wait is still blocked although it has been cancelled. -/
def CancelledWaitBlocked (log : List (GateEvent Thread))
    (system : System Thread) : Prop :=
  ∃ thread token,
    system.blocked thread = some token ∧ CancelledSinceEmission log thread

/--
The condition on one step: while a cancelled wait is still blocked, nobody
resets the gate under an approved slot, and nobody approves the open slot.
-/
def KeepsCancelled (log : List (GateEvent Thread))
    (system : System Thread) : GateEvent Thread → Prop
  | .reset =>
      system.gate.answered = true → system.gate.approved = true →
        ¬ CancelledWaitBlocked log system
  | .answer id true _ =>
      system.gate.Open id → ¬ CancelledWaitBlocked log system
  | _ => True

/-- The slot cannot let a cancelled wait return true. -/
def VerdictKept (log : List (GateEvent Thread))
    (system : System Thread) : Prop :=
  CancelledWaitBlocked log system →
    system.gate.answered = true → system.gate.approved = true →
      system.gate.cancelled = true

variable [DecidableEq Thread]

theorem verdictKept_step
    {log : List (GateEvent Thread)} {before after : System Thread}
    {event : GateEvent Thread}
    (kept : VerdictKept log before) (step : Step before event after)
    (condition : KeepsCancelled log before event) :
    VerdictKept (log ++ [event]) after := by
  rintro ⟨thread, token, waiting, cancelled⟩ answered approved
  rw [cancelledSinceEmission_snoc] at cancelled
  cases step with
  | cancel => rfl
  | reset =>
      have earlier : CancelledSinceEmission log thread := by
        simpa using cancelled
      exact absurd ⟨thread, token, waiting, earlier⟩
        (condition answered approved)
  | answer id decision =>
      have earlier : CancelledSinceEmission log thread := by
        simpa using cancelled
      cases verdict : (before.gate.answer id decision).1 with
      | false =>
          rw [Gate.answer_rejected verdict] at answered approved ⊢
          exact kept ⟨thread, token, waiting, earlier⟩ answered approved
      | true =>
          rw [Gate.answer_accepted verdict] at approved
          subst approved
          exact absurd ⟨thread, token, waiting, earlier⟩
            (condition (Gate.answer_iff.mp verdict))
  | refused other idle closed =>
      have earlier : CancelledSinceEmission log thread := by
        simpa using cancelled
      exact kept ⟨thread, token, waiting, earlier⟩ answered approved
  | emitted other idle entered =>
      rw [Gate.waitBegin_answered entered] at answered
      exact absurd answered Bool.false_ne_true
  | returned other timedOut blocked wakes =>
      have earlier : CancelledSinceEmission log thread := by
        simpa using cancelled
      exact kept ⟨thread, token, blocked_of_update_none waiting, earlier⟩
        answered approved

/--
As long as no step undoes the cancellation of a wait that is still blocked,
every wait that was cancelled returns false.
-/
theorem cancel_is_final
    (nonce : String) (log : List (GateEvent Thread))
    (system : System Thread)
    (execution : Execution Step (initial nonce) log system)
    (kept : Throughout Step (initial nonce) KeepsCancelled log) :
    CancelIsFinal log := by
  intro before after thread token result split cancelled
  subst split
  obtain ⟨source, target, past, last⟩ := execution.step_of_log
  have verdict : VerdictKept before source := by
    refine Throughout.invariant ?_ ?_ past kept.of_append
    · rintro ⟨thread, _, waiting, _⟩
      simp [initial] at waiting
    · intro log state event next kept step condition
      exact verdictKept_step kept step condition
  generalize written : GateEvent.returned thread token result = event at last
  cases last with
  | returned waiter timedOut waiting wakes =>
      simp only [GateEvent.returned.injEq] at written
      obtain ⟨sameThread, sameToken, sameResult⟩ := written
      subst sameThread
      subst sameResult
      by_contra approved
      simp only [Gate.waitEnd, Bool.not_eq_false, Bool.and_eq_true,
        Bool.not_eq_true'] at approved
      have closed := verdict ⟨thread, _, waiting, cancelled⟩
        approved.1.1 approved.1.2
      rw [approved.2] at closed
      exact Bool.false_ne_true closed
  | _ => simp at written

/-- A cancelled request returns, although an approval and a reset follow. -/
theorem cancel_is_final_single :
    CancelIsFinal
      [GateEvent.emitted false (token "n" 1), .cancel,
        .answer (token "n" 1) true false, .reset,
        .returned false (token "n" 1) false] := by
  let cancelled : System Bool :=
    { oneWaiting "n" with gate := (oneWaiting "n").gate.cancel }
  have late : (cancelled.gate.answer (token "n" 1) true).1 = false := by decide
  have emits : Execution Step (initial "n") _ _ :=
    Execution.start.extend (.emitted false rfl rfl)
  have cancels := emits.extend .cancel
  have answer : Step cancelled _ _ := .answer (token "n" 1) true
  rw [late, Gate.answer_rejected late] at answer
  have answers := cancels.extend answer
  have resets := answers.extend .reset
  have returns := resets.extend (.returned false true rfl (Or.inl rfl))
  refine cancel_is_final "n" _ _ returns ?_
  refine Throughout.extend step_determined ?_ resets trivial
  refine Throughout.extend step_determined ?_ answers ?_
  · refine Throughout.extend step_determined ?_ cancels ?_
    · refine Throughout.extend step_determined ?_ emits trivial
      exact Throughout.extend step_determined Throughout.nil .start trivial
    · intro opened
      cases opened.2.2.2
  · intro answered
    cases answered

/-- A blocked wait whose slot is approved may return true in the next step. -/
theorem approved_wait_returns
    (system : System Thread) {thread : Thread} {token : String}
    (waiting : system.blocked thread = some token)
    (answered : system.gate.answered = true)
    (approved : system.gate.approved = true)
    (notCancelled : system.gate.cancelled = false) :
    ∃ after, Step system (.returned thread token true) after := by
  have result : system.gate.waitEnd.1 = true := by
    simp [Gate.waitEnd, answered, approved, notCancelled]
  have step : Step system _ _ :=
    .returned thread false waiting (Or.inr (by simp [Gate.woken, answered]))
  rw [result] at step
  exact ⟨_, step⟩

/--
The condition leaves out nothing else: after a step that breaks it, a wait
that was cancelled may return true.
-/
theorem undone_cancellation_returns
    {log : List (GateEvent Thread)} {before after : System Thread}
    {event : GateEvent Thread}
    (step : Step before event after)
    (broken : ¬ KeepsCancelled log before event) :
    ∃ thread token final,
      CancelledSinceEmission (log ++ [event]) thread ∧
        Step after (.returned thread token true) final := by
  by_contra final
  apply broken
  cases step with
  | reset =>
      rintro answered approved ⟨thread, token, waiting, cancelled⟩
      obtain ⟨last, returned⟩ :=
        approved_wait_returns { before with gate := before.gate.reset }
          waiting answered approved rfl
      exact final ⟨thread, token, last,
        cancelledSinceEmission_snoc.mpr (Or.inr ⟨cancelled, by simp⟩),
        returned⟩
  | answer id decision =>
      cases decision with
      | false => trivial
      | true =>
          rintro open_ ⟨thread, token, waiting, cancelled⟩
          rw [Gate.answer_accepted (Gate.answer_iff.mpr open_)] at final
          obtain ⟨last, returned⟩ :=
            approved_wait_returns
              { before with
                gate :=
                  { before.gate with answered := true, approved := true } }
              waiting rfl rfl open_.2.2.2
          exact final ⟨thread, token, last,
            cancelledSinceEmission_snoc.mpr (Or.inr ⟨cancelled, by simp⟩),
            returned⟩
  | _ => trivial

/--
A cancelled request whose thread has not run yet is revived by a reset and
an approval.
-/
theorem cancelled_wait_approved :
    ¬ ∀ (nonce : String) (log : List (GateEvent Bool))
        (system : System Bool),
        Execution Step (initial nonce) log system → CancelIsFinal log := by
  intro claim
  have accepted :
      ((oneWaiting "n").gate.answer (token "n" 1) true).1 = true := by
    decide
  have revived :
      Execution Step (initial "n")
        [GateEvent.emitted false (token "n" 1), .cancel, .reset]
        (oneWaiting "n") :=
    ((Execution.start.extend (.emitted false rfl rfl)).extend
      .cancel).extend .reset
  have answer : Step (oneWaiting "n") _ _ := .answer (token "n" 1) true
  rw [accepted, Gate.answer_accepted accepted] at answer
  have returned :=
    (revived.extend answer).extend (.returned false true rfl (Or.inl rfl))
  have kept := claim "n" _ _ returned
    [.emitted false (token "n" 1), .cancel, .reset,
      .answer (token "n" 1) true true] [] false (token "n" 1) true rfl
    ⟨[.emitted false (token "n" 1)],
      [.reset, .answer (token "n" 1) true true], rfl, by simp⟩
  exact Bool.false_ne_true kept.symm

/-! ## Answered waits -/

/--
An outstanding request is one whose wait is still blocked and has not been
cancelled since it began.  `taken`: an answer to it is accepted unless one
was accepted before.  `awake` and `delivered`: from then on the wait may
return without a time-out, and whenever it returns, it returns the answer.
-/
structure AnswersArrive (log : List (GateEvent Thread))
    (system : System Thread) : Prop where
  taken :
    ∀ thread token approved,
      system.blocked thread = some token →
        ¬ CancelledSinceEmission log thread →
          token ∉ acceptedTokens log →
            (system.gate.answer token approved).1 = true
  awake :
    ∀ before after thread token approved,
      log = before ++ .answer token approved true :: after →
        (∀ other, .emitted thread other ∉ after) →
          system.blocked thread = some token →
            ¬ CancelledSinceEmission log thread →
              system.gate.woken = true ∧ system.gate.waitEnd.1 = approved
  delivered :
    ∀ before between after thread token approved result,
      log = before ++ .answer token approved true ::
          (between ++ .returned thread token result :: after) →
        (∀ other, .emitted thread other ∉ between) →
          ¬ CancelledSinceEmission
              (before ++ .answer token approved true :: between) thread →
            result = approved

/-- The condition on one step: a wait begins only while no wait is blocked. -/
def NoOverlap (system : System Thread) : GateEvent Thread → Prop
  | .emitted _ _ => ∀ thread, system.blocked thread = none
  | _ => True

/-- The slot belongs to the one wait that is blocked. -/
structure SlotOwned (log : List (GateEvent Thread))
    (system : System Thread) : Prop where
  sole :
    ∀ thread token other,
      system.blocked thread = some token → other ≠ thread →
        system.blocked other = none
  inSlot :
    ∀ thread token, system.blocked thread = some token →
      system.gate.pending = token ∧ token ≠ ""
  notCancelled :
    ∀ thread token, system.blocked thread = some token →
      ¬ CancelledSinceEmission log thread → system.gate.cancelled = false
  unanswered :
    ∀ thread token, system.blocked thread = some token →
      token ∉ acceptedTokens log → system.gate.answered = false
  answered :
    ∀ before after thread token approved,
      log = before ++ .answer token approved true :: after →
        (∀ other, .emitted thread other ∉ after) →
          system.blocked thread = some token →
            system.gate.answered = true ∧ system.gate.approved = approved

omit [DecidableEq Thread] in
/-- Steps that leave the slot, its answer and the blocked waits alone. -/
theorem SlotOwned.silent
    {log : List (GateEvent Thread)} {system : System Thread}
    (owned : SlotOwned log system)
    {event : GateEvent Thread} {gate : Gate}
    (accepts : acceptedToken? event = none)
    (samePending : gate.pending = system.gate.pending)
    (sameAnswered : gate.answered = system.gate.answered)
    (sameApproved : gate.approved = system.gate.approved)
    (lowered :
      ∀ thread, ¬ CancelledSinceEmission (log ++ [event]) thread →
        system.gate.cancelled = false → gate.cancelled = false)
    (silent : ∀ thread token, event ≠ .emitted thread token) :
    SlotOwned (log ++ [event]) { system with gate := gate } := by
  constructor
  case sole => exact owned.sole
  case inSlot =>
    intro thread token waiting
    rw [samePending]
    exact owned.inSlot thread token waiting
  case notCancelled =>
    intro thread token waiting running
    refine lowered thread running (owned.notCancelled thread token waiting ?_)
    intro cancelled
    exact running (cancelledSinceEmission_snoc.mpr
      (Or.inr ⟨cancelled, silent thread⟩))
  case unanswered =>
    intro thread token waiting fresh
    rw [acceptedTokens_snoc, accepts, Option.toList_none,
      List.append_nil] at fresh
    rw [sameAnswered]
    exact owned.unanswered thread token waiting fresh
  case answered =>
    intro before after thread token approved split quiet waiting
    rw [sameAnswered, sameApproved]
    rcases snoc_eq_append_cons split with
      ⟨_, sameEvent, _⟩ | ⟨shorter, samePast, sameAfter⟩
    · subst sameEvent
      simp at accepts
    · subst sameAfter
      refine owned.answered before shorter thread token approved samePast
        ?_ waiting
      intro other emitted
      exact quiet other (List.mem_append_left _ emitted)

omit [DecidableEq Thread] in
theorem SlotOwned.of_idle
    (log : List (GateEvent Thread)) {system : System Thread}
    (idle : ∀ thread, system.blocked thread = none) :
    SlotOwned log system := by
  constructor <;> simp [idle]

omit [DecidableEq Thread] in
/-- The answer to the one blocked wait fills its slot. -/
theorem SlotOwned.accepted
    {log : List (GateEvent Thread)} {system : System Thread}
    (owned : SlotOwned log system)
    {id : String} {decision : Bool} (open_ : system.gate.Open id) :
    SlotOwned (log ++ [.answer id decision true])
      { system with
        gate :=
          { system.gate with answered := true, approved := decision } } := by
  obtain ⟨_, isPending, unanswered, _⟩ := open_
  constructor
  case sole => exact owned.sole
  case inSlot => exact owned.inSlot
  case notCancelled =>
    intro thread token waiting running
    refine owned.notCancelled thread token waiting ?_
    intro cancelled
    exact running (cancelledSinceEmission_snoc.mpr
      (Or.inr ⟨cancelled, by simp⟩))
  case unanswered =>
    intro thread token waiting fresh
    rw [isPending, (owned.inSlot thread token waiting).1,
      acceptedTokens_snoc] at fresh
    simp at fresh
  case answered =>
    intro before after thread token approved split quiet waiting
    rcases snoc_eq_append_cons split with
      ⟨_, sameEvent, _⟩ | ⟨shorter, samePast, sameAfter⟩
    · simp only [GateEvent.answer.injEq] at sameEvent
      exact ⟨rfl, sameEvent.2.1.symm⟩
    · subst sameAfter
      have earlier := owned.answered before shorter thread token approved
        samePast (fun other emitted =>
          quiet other (List.mem_append_left _ emitted)) waiting
      rw [unanswered] at earlier
      exact absurd earlier.1 Bool.false_ne_true

/-- A wait that begins alone owns the slot. -/
theorem SlotOwned.emitted
    {log : List (GateEvent Thread)} {blocked : Thread → Option String}
    {thread : Thread} {id : String} {gate : Gate}
    (idle : ∀ other, blocked other = none)
    (inSlot : gate.pending = id) (filled : id ≠ "")
    (notCancelled : gate.cancelled = false)
    (unanswered : gate.answered = false) :
    SlotOwned (log ++ [.emitted thread id])
      { gate := gate
        blocked := Function.update blocked thread (some id) } := by
  have owner :
      ∀ other token,
        Function.update blocked thread (some id) other = some token →
          other = thread ∧ token = id := by
    intro other token waiting
    by_cases same : other = thread
    · subst same
      rw [Function.update_self] at waiting
      exact ⟨rfl, (Option.some.inj waiting).symm⟩
    · rw [Function.update_of_ne same, idle other] at waiting
      exact absurd waiting (by simp)
  constructor
  case sole =>
    intro first token other waiting different
    have same := (owner first token waiting).1
    subst same
    simp [Function.update_of_ne different, idle other]
  case inSlot =>
    intro other token waiting
    have same := (owner other token waiting).2
    subst same
    exact ⟨inSlot, filled⟩
  case notCancelled => exact fun _ _ _ _ => notCancelled
  case unanswered => exact fun _ _ _ _ => unanswered
  case answered =>
    intro before after other token approved split quiet waiting
    have same := (owner other token waiting).1
    subst same
    rcases snoc_eq_append_cons split with
      ⟨_, sameEvent, _⟩ | ⟨shorter, samePast, sameAfter⟩
    · simp at sameEvent
    · subst sameAfter
      exact absurd (List.mem_append_right _ List.mem_cons_self) (quiet id)

theorem slotOwned_step
    {log : List (GateEvent Thread)} {before after : System Thread}
    {event : GateEvent Thread}
    (owned : SlotOwned log before)
    (step : restrict Step NoOverlap before event after) :
    SlotOwned (log ++ [event]) after := by
  obtain ⟨step, condition⟩ := step
  cases step with
  | reset =>
      exact owned.silent rfl rfl rfl rfl (fun _ _ _ => rfl) (by simp)
  | cancel =>
      refine owned.silent rfl rfl rfl rfl ?_ (by simp)
      intro thread running
      exact absurd (cancelledSinceEmission_snoc.mpr (Or.inl rfl)) running
  | refused thread idle closed =>
      exact owned.silent rfl rfl rfl rfl (fun _ _ same => same) (by simp)
  | answer id decision =>
      cases verdict : (before.gate.answer id decision).1 with
      | false =>
          rw [Gate.answer_rejected verdict]
          exact owned.silent rfl rfl rfl rfl (fun _ _ same => same) (by simp)
      | true =>
          rw [Gate.answer_accepted verdict]
          exact owned.accepted (Gate.answer_iff.mp verdict)
  | emitted thread idle entered =>
      obtain ⟨notCancelled, sameToken, sameGate⟩ := Gate.enters entered
      subst sameGate
      refine SlotOwned.emitted condition rfl ?_ notCancelled rfl
      rw [sameToken]
      exact token_ne_empty _ _
  | returned thread timedOut waiting wakes =>
      refine SlotOwned.of_idle _ ?_
      intro other
      by_cases same : other = thread
      · subst same
        exact Function.update_self ..
      · exact (Function.update_of_ne same none before.blocked).trans
          (owned.sole thread _ other waiting same)

theorem slotOwned
    {nonce : String} {log : List (GateEvent Thread)}
    {system : System Thread}
    (execution :
      Execution (restrict Step NoOverlap) (initial nonce) log system) :
    SlotOwned log system := by
  refine Execution.invariant ?_ ?_ execution
  · exact SlotOwned.of_idle _ (fun _ => rfl)
  · intro log before event after _ owned step
    exact slotOwned_step owned step

omit [DecidableEq Thread] in
/-- A wait that is not cancelled returns the answer its slot was given. -/
theorem SlotOwned.awake
    {log : List (GateEvent Thread)} {system : System Thread}
    (owned : SlotOwned log system)
    {before after : List (GateEvent Thread)} {thread : Thread}
    {token : String} {approved : Bool}
    (split : log = before ++ .answer token approved true :: after)
    (quiet : ∀ other, .emitted thread other ∉ after)
    (waiting : system.blocked thread = some token)
    (running : ¬ CancelledSinceEmission log thread) :
    system.gate.woken = true ∧ system.gate.waitEnd.1 = approved := by
  obtain ⟨answered, sameDecision⟩ :=
    owned.answered before after thread token approved split quiet waiting
  have notCancelled := owned.notCancelled thread token waiting running
  constructor
  · simp [Gate.woken, answered]
  · simp [Gate.waitEnd, answered, sameDecision, notCancelled]

/--
When every wait begins while no other wait is blocked, no answer to an
outstanding request is lost.
-/
theorem answers_arrive
    (nonce : String) (log : List (GateEvent Thread))
    (system : System Thread)
    (execution :
      Execution (restrict Step NoOverlap) (initial nonce) log system) :
    AnswersArrive log system := by
  have owned := slotOwned execution
  constructor
  case taken =>
    intro thread token approved waiting running fresh
    obtain ⟨inSlot, filled⟩ := owned.inSlot thread token waiting
    exact Gate.answer_iff.mpr
      ⟨inSlot ▸ filled, inSlot.symm,
        owned.unanswered thread token waiting fresh,
        owned.notCancelled thread token waiting running⟩
  case awake =>
    intro before after thread token approved split quiet waiting running
    exact owned.awake split quiet waiting running
  case delivered =>
    intro before between after thread token approved result split quiet
      running
    rw [← List.cons_append, ← List.append_assoc] at split
    subst split
    obtain ⟨source, target, past, last, _⟩ := execution.step_of_log
    generalize written :
      GateEvent.returned thread token result = event at last
    cases last with
    | returned waiter timedOut waiting wakes =>
        simp only [GateEvent.returned.injEq] at written
        obtain ⟨sameThread, sameToken, sameResult⟩ := written
        subst sameThread
        subst sameToken
        rw [sameResult]
        exact ((slotOwned past).awake rfl quiet waiting running).2
    | _ => simp at written

/-- One request is denied, and its wait returns the denial. -/
theorem answers_arrive_single :
    ∃ system : System Bool,
      AnswersArrive
        [.emitted false (token "n" 1), .answer (token "n" 1) false true,
          .returned false (token "n" 1) false]
        system := by
  have emitted :
      Execution (restrict Step NoOverlap) (initial "n")
        [GateEvent.emitted false (token "n" 1)] (oneWaiting "n") :=
    .extend .start ⟨.emitted false rfl rfl, fun _ => rfl⟩
  have accepted :
      ((oneWaiting "n").gate.answer (token "n" 1) false).1 = true := by
    decide
  have answer : Step (oneWaiting "n") _ _ := .answer (token "n" 1) false
  rw [accepted, Gate.answer_accepted accepted] at answer
  have returned :=
    (emitted.extend ⟨answer, trivial⟩).extend
      ⟨Step.returned false false rfl (Or.inr rfl), trivial⟩
  exact ⟨_, answers_arrive "n" _ _ returned⟩

/--
The condition leaves out nothing else: when a wait begins while another one
is blocked, the other one may clear the slot by returning first.
-/
theorem overlapping_wait_loses_slot
    {before after : System Thread} {thread other : Thread}
    {token otherToken : String}
    (step : Step before (.emitted thread token) after)
    (blocked : before.blocked other = some otherToken) :
    ∃ result final,
      Step after (.returned other otherToken result) final ∧
        final.blocked thread = some token ∧
          ∀ approved, (final.gate.answer token approved).1 = false := by
  generalize written : GateEvent.emitted thread token = event at step
  cases step with
  | emitted waiter idle entered =>
      simp only [GateEvent.emitted.injEq] at written
      obtain ⟨sameThread, sameToken⟩ := written
      subst sameThread
      subst sameToken
      have different : thread ≠ other := by
        intro same
        rw [← same, idle] at blocked
        simp at blocked
      have stillBlocked :
          Function.update before.blocked thread (some token) other =
            some otherToken := by
        rw [Function.update_of_ne different.symm, blocked]
      refine ⟨_, _, .returned other true stillBlocked (Or.inl rfl), ?_, ?_⟩
      · show Function.update
            (Function.update before.blocked thread (some token)) other none
            thread = some token
        rw [Function.update_of_ne different, Function.update_self]
      · intro approved
        by_contra accepted
        rw [Bool.not_eq_false, Gate.answer_iff] at accepted
        exact accepted.1 rfl
  | _ => simp at written

/--
Two overlapping waits: the first one is blocked and not cancelled, but an
answer to it is refused.
-/
theorem overlapped_answer_lost :
    ¬ ∀ (nonce : String) (log : List (GateEvent Bool))
        (system : System Bool),
        Execution Step (initial nonce) log system →
          AnswersArrive log system := by
  intro claim
  have both :
      Execution Step (initial "n")
        [.emitted false (token "n" 1), .emitted true (token "n" 2)]
        twoWaiting :=
    (Execution.start.extend (.emitted false rfl rfl)).extend
      (.emitted true rfl rfl)
  have running :
      ¬ CancelledSinceEmission
        [.emitted false (token "n" 1), .emitted true (token "n" 2)]
        false := by
    rintro ⟨before, after, split, _⟩
    have listed : GateEvent.cancel ∈ before ++ .cancel :: after :=
      List.mem_append_right _ List.mem_cons_self
    rw [← split] at listed
    simp at listed
  have taken := (claim "n" _ _ both).taken false (token "n" 1) true rfl
    running (by decide)
  revert taken
  decide

end ArnCore.Confirmation.WaitOutcome
