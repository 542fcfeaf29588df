import ArnCore.Interaction.Transition
import Mathlib.Algebra.Order.Ring.Int
import Mathlib.Logic.Function.Basic

/-!
# The confirmation gate

`ConfirmationGate` keeps one slot for the outstanding request: the token, and
whether and how it was answered.  Every operation is one critical section of
its mutex, except `wait`, which has two: the section that emits the token and
blocks, and the section that is entered when the predicate of the condition
variable holds or the time is over.

Any number of threads may use the gate.  A step of the system is one critical
section, so that an execution is an interleaving of critical sections.
-/

namespace ArnCore.Confirmation.ConfirmationGate

open ArnCore.Interaction

/-! ## The critical sections -/

/-- The fields of the gate; `sequence` is an `unsigned long long`. -/
structure Gate where
  nonce : String
  sequence : Nat := 0
  pending : String := ""
  answered : Bool := false
  approved : Bool := false
  cancelled : Bool := false
deriving DecidableEq, Repr

/-- The token with a given sequence number. -/
def token (nonce : String) (sequence : Nat) : String :=
  "change-" ++ nonce ++ "-" ++ toString sequence

/-- `++sequence_` on a 64-bit counter. -/
def increment (sequence : Nat) : Nat :=
  (sequence + 1) % 2 ^ 64

namespace Gate

def reset (gate : Gate) : Gate :=
  { gate with cancelled := false }

def cancel (gate : Gate) : Gate :=
  { gate with cancelled := true }

/-- `answer`: whether the answer was accepted, and the gate afterwards. -/
def answer (gate : Gate) (id : String) (approved : Bool) : Bool × Gate :=
  if id = "" ∨ id ≠ gate.pending ∨ gate.answered ∨ gate.cancelled then
    (false, gate)
  else
    (true, { gate with answered := true, approved := approved })

/--
The first section of `wait`: `none` when the gate is cancelled, otherwise the
emitted token and the gate on which the thread blocks.
-/
def waitBegin (gate : Gate) : Option (String × Gate) :=
  if gate.cancelled then
    none
  else
    let sequence := increment gate.sequence
    let pending := token gate.nonce sequence
    some (pending,
      { gate with
        sequence := sequence
        pending := pending
        answered := false
        approved := false })

/-- The predicate of the condition variable. -/
def woken (gate : Gate) : Bool :=
  gate.answered || gate.cancelled

/-- The second section of `wait`: the returned value and the gate afterwards. -/
def waitEnd (gate : Gate) : Bool × Gate :=
  (gate.answered && gate.approved && !gate.cancelled,
    { gate with pending := "" })

end Gate

/-! ## Interleavings -/

/-- One critical section as an observer sees it. -/
inductive GateEvent (Thread : Type) where
  | reset
  | cancel
  | answer (id : String) (approved accepted : Bool)
  | refused (thread : Thread)
  | emitted (thread : Thread) (token : String)
  | returned (thread : Thread) (token : String) (result : Bool)
deriving DecidableEq

variable {Thread : Type}

/-- The gate together with the token on which each thread is blocked. -/
structure System (Thread : Type) where
  gate : Gate
  blocked : Thread → Option String

variable [DecidableEq Thread]

/--
Any thread may take any critical section.  A blocked thread re-enters when the
predicate holds; `timedOut` lets it re-enter at any time.
-/
inductive Step :
    System Thread → GateEvent Thread → System Thread → Prop where
  | reset {system : System Thread} :
      Step system .reset { system with gate := system.gate.reset }
  | cancel {system : System Thread} :
      Step system .cancel { system with gate := system.gate.cancel }
  | answer {system : System Thread} (id : String) (approved : Bool) :
      Step system
        (.answer id approved (system.gate.answer id approved).1)
        { system with gate := (system.gate.answer id approved).2 }
  | refused {system : System Thread} (thread : Thread)
      (idle : system.blocked thread = none)
      (cancelled : system.gate.waitBegin = none) :
      Step system (.refused thread) system
  | emitted {system : System Thread} (thread : Thread)
      {token : String} {gate : Gate}
      (idle : system.blocked thread = none)
      (entered : system.gate.waitBegin = some (token, gate)) :
      Step system (.emitted thread token)
        { gate := gate
          blocked := Function.update system.blocked thread (some token) }
  | returned {system : System Thread} (thread : Thread)
      {token : String} (timedOut : Bool)
      (waiting : system.blocked thread = some token)
      (wakes : timedOut ∨ system.gate.woken) :
      Step system (.returned thread token system.gate.waitEnd.1)
        { gate := system.gate.waitEnd.2
          blocked := Function.update system.blocked thread none }

/-- What happened determines the state it leads to. -/
theorem step_determined : Determined (@Step Thread _) := by
  intro before event after other step also
  cases step with
  | emitted thread idle entered =>
      cases also with
      | emitted _ _ again =>
          rw [entered] at again
          cases again
          rfl
  | returned thread timedOut waiting wakes =>
      generalize written : GateEvent.returned thread _ _ = event at also
      cases also with
      | returned =>
          cases written
          rfl
      | _ => cases written
  | answer id decision =>
      generalize written : GateEvent.answer id decision _ = event at also
      cases also with
      | answer =>
          cases written
          rfl
      | _ => cases written
  | _ =>
      cases also
      rfl

/-- A gate that has just been constructed, used by no thread. -/
def initial (nonce : String) : System Thread where
  gate := { nonce := nonce }
  blocked := fun _ => none

/-! ## Approvals and the waits they are credited to -/

/--
Every wait that returned `true` was preceded by an accepted approval of the
very token it had emitted.
-/
def CreditedToOwnToken (log : List (GateEvent Thread)) : Prop :=
  ∀ before after thread token,
    log = before ++ .returned thread token true :: after →
      .answer token true true ∈ before

/--
The condition on one step: an approval is accepted only while no wait other
than the one that emitted its token is blocked.
-/
def OnlyOwnWaitBlocked (system : System Thread) :
    GateEvent Thread → Prop
  | .answer id true true =>
      ∀ thread token, system.blocked thread = some token → token = id
  | _ => True

/-- While the slot holds an approval, every blocked wait was approved. -/
def SlotCredited (log : List (GateEvent Thread))
    (system : System Thread) : Prop :=
  system.gate.answered = true → system.gate.approved = true →
    ∀ thread token, system.blocked thread = some token →
      GateEvent.answer token true true ∈ log

theorem blocked_of_update_none
    {blocked : Thread → Option String} {thread other : Thread}
    {token : String}
    (waiting : Function.update blocked thread none other = some token) :
    blocked other = some token := by
  by_cases same : other = thread
  · subst same
    simp at waiting
  · rwa [Function.update_of_ne same] at waiting

/-- An accepted answer fills the slot and changes nothing else. -/
theorem Gate.answer_accepted
    {gate : Gate} {id : String} {approved : Bool}
    (accepted : (gate.answer id approved).1 = true) :
    (gate.answer id approved).2 =
      { gate with answered := true, approved := approved } := by
  unfold Gate.answer at accepted ⊢
  split at accepted
  · simp at accepted
  · rename_i open_
    rw [if_neg open_]

/-- A rejected answer leaves the gate unchanged. -/
theorem Gate.answer_rejected
    {gate : Gate} {id : String} {approved : Bool}
    (rejected : (gate.answer id approved).1 = false) :
    (gate.answer id approved).2 = gate := by
  unfold Gate.answer at rejected ⊢
  split at rejected
  · rename_i closed
    rw [if_pos closed]
  · simp at rejected

/-- The slot holds a given token, and it is neither answered nor cancelled. -/
def Gate.Open (gate : Gate) (id : String) : Prop :=
  gate.pending ≠ "" ∧ id = gate.pending ∧ gate.answered = false ∧
    gate.cancelled = false

/-- An answer is accepted exactly for the token of an open slot. -/
theorem Gate.answer_iff
    {gate : Gate} {id : String} {approved : Bool} :
    (gate.answer id approved).1 = true ↔ gate.Open id := by
  by_cases closed :
      id = "" ∨ id ≠ gate.pending ∨ gate.answered ∨ gate.cancelled
  · constructor
    · intro accepted
      simp [Gate.answer, closed] at accepted
    · rintro ⟨filled, inSlot, unanswered, notCancelled⟩
      subst inSlot
      simp [filled, unanswered, notCancelled] at closed
  · constructor
    · intro _
      simp only [not_or, ne_eq, Decidable.not_not, Bool.not_eq_true] at closed
      obtain ⟨filled, inSlot, unanswered, notCancelled⟩ := closed
      exact ⟨inSlot ▸ filled, inSlot, unanswered, notCancelled⟩
    · intro _
      simp [Gate.answer, closed]

/-- What the first section of a wait does to the slot. -/
theorem Gate.enters
    {gate after : Gate} {id : String}
    (entered : gate.waitBegin = some (id, after)) :
    gate.cancelled = false ∧
      id = token gate.nonce (increment gate.sequence) ∧
      after =
        { gate with
          sequence := increment gate.sequence
          pending := id
          answered := false
          approved := false } := by
  cases cancelled : gate.cancelled with
  | true => simp [Gate.waitBegin, cancelled] at entered
  | false =>
      simp only [Gate.waitBegin, cancelled, Bool.false_eq_true, if_false,
        Option.some.injEq, Prod.mk.injEq] at entered
      refine ⟨rfl, entered.1.symm, ?_⟩
      rw [← entered.2, ← entered.1]

/-- The first section of a wait empties the slot. -/
theorem Gate.waitBegin_answered
    {gate after : Gate} {token : String}
    (entered : gate.waitBegin = some (token, after)) :
    after.answered = false := by
  unfold Gate.waitBegin at entered
  split at entered
  · simp at entered
  · simp only [Option.some.injEq, Prod.mk.injEq] at entered
    rw [← entered.2]

theorem slotCredited_step
    {log : List (GateEvent Thread)} {before after : System Thread}
    {event : GateEvent Thread}
    (credited : SlotCredited log before)
    (step : restrict Step OnlyOwnWaitBlocked before event after) :
    SlotCredited (log ++ [event]) after := by
  obtain ⟨step, condition⟩ := step
  intro answered approved other otherToken waiting
  cases step with
  | reset =>
      exact List.mem_append_left _
        (credited answered approved other otherToken waiting)
  | cancel =>
      exact List.mem_append_left _
        (credited answered approved other otherToken waiting)
  | answer id decision =>
      cases verdict : (before.gate.answer id decision).1 with
      | false =>
          simp only [Gate.answer_rejected verdict] at answered approved
          exact List.mem_append_left _
            (credited answered approved other otherToken waiting)
      | true =>
          simp only [Gate.answer_accepted verdict] at approved
          subst approved
          rw [verdict] at condition
          have own : otherToken = id := condition other otherToken waiting
          subst own
          exact List.mem_append_right _ (List.mem_singleton.mpr rfl)
  | refused thread idle cancelled =>
      exact List.mem_append_left _
        (credited answered approved other otherToken waiting)
  | emitted thread idle entered =>
      simp [Gate.waitBegin_answered entered] at answered
  | returned thread timedOut stillWaiting wakes =>
      exact List.mem_append_left _
        (credited answered approved other otherToken
          (blocked_of_update_none waiting))

/--
When every approval is accepted while no foreign wait is blocked, no approval
is credited to another request.
-/
theorem approvals_credited_to_own_token
    (nonce : String) (log : List (GateEvent Thread))
    (system : System Thread)
    (execution :
      Execution (restrict Step OnlyOwnWaitBlocked) (initial nonce)
        log system) :
    CreditedToOwnToken log := by
  intro before after thread token split
  subst split
  obtain ⟨source, target, past, last, _⟩ := execution.step_of_log
  have credited : SlotCredited before source := by
    refine Execution.invariant ?_ ?_ past
    · intro answered
      simp [initial] at answered
    · intro log state event next _ credited step
      exact slotCredited_step credited step
  generalize written : GateEvent.returned thread token true = event at last
  cases last with
  | returned waiter timedOut waiting wakes =>
      simp only [GateEvent.returned.injEq] at written
      obtain ⟨sameThread, sameToken, result⟩ := written
      subst sameThread
      subst sameToken
      simp only [Gate.waitEnd, Bool.true_eq, Bool.and_eq_true] at result
      exact credited result.1.1 result.1.2 thread token waiting
  | _ => simp at written

/-- The first wait of a fresh gate is blocked on the first token. -/
def oneWaiting (nonce : String) : System Bool where
  gate := { nonce := nonce, sequence := 1, pending := token nonce 1 }
  blocked := Function.update (fun _ => none) false (some (token nonce 1))

theorem oneWaiting_reached :
    Execution (restrict Step OnlyOwnWaitBlocked) (initial "n")
      [GateEvent.emitted false (token "n" 1)] (oneWaiting "n") :=
  .extend .start ⟨.emitted false rfl rfl, trivial⟩

/-- One request that is answered and returns, without any other wait. -/
theorem approvals_credited_to_own_token_single :
    CreditedToOwnToken
      [GateEvent.emitted false (token "n" 1),
        .answer (token "n" 1) true true,
        .returned false (token "n" 1) true] := by
  have accepted :
      ((oneWaiting "n").gate.answer (token "n" 1) true).1 = true := by
    decide
  have own :
      OnlyOwnWaitBlocked (oneWaiting "n")
        (.answer (token "n" 1) true true) := by
    intro thread waiting blocked
    cases thread
    · exact (Option.some.inj blocked).symm
    · exact absurd blocked (by simp [oneWaiting])
  have answer : Step (oneWaiting "n") _ _ :=
    .answer (token "n" 1) true
  rw [accepted] at answer
  have answered :=
    oneWaiting_reached.extend ⟨answer, own⟩
  have returned := answered.extend
    ⟨Step.returned false true rfl (Or.inl rfl), trivial⟩
  rw [Gate.answer_accepted accepted] at returned
  exact approvals_credited_to_own_token "n" _ _ returned

/--
The condition leaves out nothing else: an approval accepted while a foreign
wait is blocked lets that wait return `true` in the next step.
-/
theorem foreign_wait_returns_true
    {system : System Thread} {id token : String} {thread : Thread}
    (accepted : (system.gate.answer id true).1 = true)
    (waiting : system.blocked thread = some token) :
    ∃ after,
      Step { system with gate := (system.gate.answer id true).2 }
        (.returned thread token true) after := by
  have open_ : system.gate.cancelled = false := by
    by_contra closed
    rw [Bool.not_eq_false] at closed
    simp [Gate.answer, closed] at accepted
  have result :
      (system.gate.answer id true).2.waitEnd.1 = true := by
    rw [Gate.answer_accepted accepted]
    simp [Gate.waitEnd, open_]
  have awake :
      (system.gate.answer id true).2.woken = true := by
    rw [Gate.answer_accepted accepted]
    simp [Gate.woken]
  have step :
      Step { system with gate := (system.gate.answer id true).2 } _ _ :=
    .returned thread false waiting (Or.inr awake)
  rw [result] at step
  exact ⟨_, step⟩

/-- A second wait has taken the slot while the first is still blocked. -/
def twoWaiting : System Bool where
  gate := { nonce := "n", sequence := 2, pending := token "n" 2 }
  blocked :=
    Function.update (oneWaiting "n").blocked true (some (token "n" 2))

/--
Two overlapping waits: the approval of the second token is credited to the
first wait, whose token was never answered.
-/
theorem approval_credited_to_foreign_token :
    ¬ ∀ (nonce : String) (log : List (GateEvent Bool))
        (system : System Bool),
        Execution Step (initial nonce) log system →
          CreditedToOwnToken log := by
  intro claim
  have accepted :
      (twoWaiting.gate.answer (token "n" 2) true).1 = true := by
    decide
  have first :
      Execution Step (initial "n")
        [.emitted false (token "n" 1)] (oneWaiting "n") :=
    .extend .start (.emitted false rfl rfl)
  have second :
      Execution Step (initial "n") _ twoWaiting :=
    first.extend (.emitted true rfl rfl)
  have answer : Step twoWaiting _ _ := .answer (token "n" 2) true
  rw [accepted] at answer
  have answered := second.extend answer
  obtain ⟨after, leaked⟩ :=
    foreign_wait_returns_true accepted
      (show twoWaiting.blocked false = some (token "n" 1) from rfl)
  have returned := answered.extend leaked
  have credited := claim "n" _ _ returned
    [.emitted false (token "n" 1), .emitted true (token "n" 2),
      .answer (token "n" 2) true true] [] false (token "n" 1) rfl
  revert credited
  decide

end ArnCore.Confirmation.ConfirmationGate
