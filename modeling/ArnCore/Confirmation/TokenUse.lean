import ArnCore.Confirmation.ConfirmationGate
import Mathlib.Data.List.Nodup
import Mathlib.Data.List.Range

/-!
# Tokens are used once

The tokens of a gate differ in their sequence numbers only.  As long as the
64-bit counter does not wrap, the emitted tokens are therefore distinct, and
one invariant relates the slot to what has happened to each of them: the slot
holds no token whose wait has returned, and a token that was accepted while
it is still in the slot is marked as answered.
-/

namespace ArnCore.Confirmation.TokenUse

open ArnCore.Interaction
open ArnCore.Confirmation.ConfirmationGate

/-! ## Tokens and their sequence numbers -/

theorem toString_injective : Function.Injective (toString : Nat → String) := by
  intro left right same
  have digits : Nat.toDigits 10 left = Nat.toDigits 10 right := by
    have characters : (Nat.repr left).toList = (Nat.repr right).toList :=
      congrArg String.toList same
    rwa [Nat.toList_repr, Nat.toList_repr] at characters
  calc
    left = Nat.ofDigitChars 10 (Nat.toDigits 10 left) 0 :=
      Nat.ofDigitChars_ten_toDigits.symm
    _ = Nat.ofDigitChars 10 (Nat.toDigits 10 right) 0 := by rw [digits]
    _ = right := Nat.ofDigitChars_ten_toDigits

theorem token_injective (nonce : String) :
    Function.Injective (token nonce) := by
  intro left right same
  exact toString_injective ((String.append_right_inj _).mp same)

theorem token_ne_empty (nonce : String) (sequence : Nat) :
    token nonce sequence ≠ "" := by
  intro empty
  have length := congrArg String.length empty
  simp [token, String.length_append] at length

/-! ## What has happened to each token -/

variable {Thread : Type}

@[simp]
def emittedToken? : GateEvent Thread → Option String
  | .emitted _ token => some token
  | _ => none

@[simp]
def acceptedToken? : GateEvent Thread → Option String
  | .answer id _ true => some id
  | _ => none

@[simp]
def returnedToken? : GateEvent Thread → Option String
  | .returned _ token _ => some token
  | _ => none

/-- The tokens handed out by `wait`, in order. -/
def emittedTokens (log : List (GateEvent Thread)) : List String :=
  log.filterMap emittedToken?

/-- The tokens for which `answer` returned true, once for every such call. -/
def acceptedTokens (log : List (GateEvent Thread)) : List String :=
  log.filterMap acceptedToken?

/-- The tokens whose wait has returned. -/
def returnedTokens (log : List (GateEvent Thread)) : List String :=
  log.filterMap returnedToken?

theorem emittedTokens_snoc
    (log : List (GateEvent Thread)) (event : GateEvent Thread) :
    emittedTokens (log ++ [event]) =
      emittedTokens log ++ (emittedToken? event).toList := by
  simp [emittedTokens, List.filterMap_append, List.filterMap_cons]
  cases emittedToken? event <;> rfl

theorem acceptedTokens_snoc
    (log : List (GateEvent Thread)) (event : GateEvent Thread) :
    acceptedTokens (log ++ [event]) =
      acceptedTokens log ++ (acceptedToken? event).toList := by
  simp [acceptedTokens, List.filterMap_append, List.filterMap_cons]
  cases acceptedToken? event <;> rfl

theorem returnedTokens_snoc
    (log : List (GateEvent Thread)) (event : GateEvent Thread) :
    returnedTokens (log ++ [event]) =
      returnedTokens log ++ (returnedToken? event).toList := by
  simp [returnedTokens, List.filterMap_append, List.filterMap_cons]
  cases returnedToken? event <;> rfl

/-- The slot against the history of the tokens. -/
structure TokenHistory (nonce : String) (log : List (GateEvent Thread))
    (system : System Thread) : Prop where
  sameNonce : system.gate.nonce = nonce
  numbered :
    emittedTokens log =
      (List.range' 1 system.gate.sequence).map (token nonce)
  acceptedOnce : (acceptedTokens log).Nodup
  acceptedEmitted : ∀ id ∈ acceptedTokens log, id ∈ emittedTokens log
  returnedEmitted : ∀ id ∈ returnedTokens log, id ∈ emittedTokens log
  waitingEmitted :
    ∀ thread id, system.blocked thread = some id → id ∈ emittedTokens log
  slotEmitted :
    system.gate.pending = "" ∨ system.gate.pending ∈ emittedTokens log
  slotAnswered :
    system.gate.pending ∈ acceptedTokens log → system.gate.answered = true
  slotOpen : system.gate.pending ∉ returnedTokens log

namespace TokenHistory

variable {nonce : String} {log : List (GateEvent Thread)}
variable {system : System Thread}

theorem start (nonce : String) :
    TokenHistory nonce [] (initial nonce : System Thread) := by
  constructor <;> simp [initial, emittedTokens, acceptedTokens, returnedTokens]

theorem emitted_ne_empty (history : TokenHistory nonce log system)
    {id : String} (emitted : id ∈ emittedTokens log) : id ≠ "" := by
  rw [history.numbered] at emitted
  obtain ⟨sequence, _, rfl⟩ := List.mem_map.mp emitted
  exact token_ne_empty nonce sequence

/-- The next token is not among the emitted ones. -/
theorem next_fresh (history : TokenHistory nonce log system) :
    token nonce (system.gate.sequence + 1) ∉ emittedTokens log := by
  intro emitted
  rw [history.numbered] at emitted
  obtain ⟨sequence, range, same⟩ := List.mem_map.mp emitted
  have number := token_injective nonce same
  have bound := List.mem_range'_1.mp range
  omega

theorem emittedOnce (history : TokenHistory nonce log system) :
    (emittedTokens log).Nodup := by
  rw [history.numbered]
  exact List.Nodup.map (token_injective nonce) List.nodup_range'

theorem emitted_length (history : TokenHistory nonce log system) :
    (emittedTokens log).length = system.gate.sequence := by
  rw [history.numbered, List.length_map, List.length_range']

/-- Steps that touch neither a token nor the slot. -/
theorem silent (history : TokenHistory nonce log system)
    {event : GateEvent Thread} {gate : Gate}
    (emits : emittedToken? event = none)
    (accepts : acceptedToken? event = none)
    (returns : returnedToken? event = none)
    (sameNonce : gate.nonce = system.gate.nonce)
    (sameSequence : gate.sequence = system.gate.sequence)
    (samePending : gate.pending = system.gate.pending)
    (sameAnswered : gate.answered = system.gate.answered) :
    TokenHistory nonce (log ++ [event]) { system with gate := gate } := by
  constructor <;>
    simp only [emittedTokens_snoc, acceptedTokens_snoc, returnedTokens_snoc,
      emits, accepts, returns, Option.toList_none, List.append_nil, sameNonce,
      sameSequence, samePending, sameAnswered]
  · exact history.sameNonce
  · exact history.numbered
  · exact history.acceptedOnce
  · exact history.acceptedEmitted
  · exact history.returnedEmitted
  · exact history.waitingEmitted
  · exact history.slotEmitted
  · exact history.slotAnswered
  · exact history.slotOpen

/-- The token in the slot is accepted. -/
theorem accepted (history : TokenHistory nonce log system)
    (unanswered : system.gate.answered = false)
    (filled : system.gate.pending ≠ "") (decision : Bool) :
    TokenHistory nonce
      (log ++ [.answer system.gate.pending decision true])
      { system with
        gate :=
          { system.gate with answered := true, approved := decision } } := by
  have inSlot : system.gate.pending ∈ emittedTokens log :=
    history.slotEmitted.resolve_left filled
  have first : system.gate.pending ∉ acceptedTokens log := by
    intro again
    simp [history.slotAnswered again] at unanswered
  constructor <;>
    simp only [emittedTokens_snoc, acceptedTokens_snoc, returnedTokens_snoc,
      emittedToken?, acceptedToken?, returnedToken?, Option.toList_none,
      Option.toList_some, List.append_nil]
  · exact history.sameNonce
  · exact history.numbered
  · exact List.Nodup.append history.acceptedOnce (List.nodup_singleton _)
      (List.disjoint_singleton.mpr first)
  · intro id accepted
    rcases List.mem_append.mp accepted with earlier | now
    · exact history.acceptedEmitted id earlier
    · exact List.mem_singleton.mp now ▸ inSlot
  · exact history.returnedEmitted
  · exact history.waitingEmitted
  · exact history.slotEmitted
  · exact fun _ => trivial
  · exact history.slotOpen

/-- A wait takes the slot with the next token. -/
theorem emitted (history : TokenHistory nonce log system)
    (blocked : Thread → Option String) (thread : Thread)
    (waiting :
      ∀ other id, blocked other = some id →
        id = token nonce (system.gate.sequence + 1) ∨
          system.blocked other = some id) :
    TokenHistory nonce
      (log ++ [.emitted thread (token nonce (system.gate.sequence + 1))])
      { gate :=
          { system.gate with
            sequence := system.gate.sequence + 1
            pending := token nonce (system.gate.sequence + 1)
            answered := false
            approved := false }
        blocked := blocked } := by
  constructor <;>
    simp only [emittedTokens_snoc, acceptedTokens_snoc, returnedTokens_snoc,
      emittedToken?, acceptedToken?, returnedToken?, Option.toList_none,
      Option.toList_some, List.append_nil]
  · exact history.sameNonce
  · rw [history.numbered, List.range'_concat, List.map_append]
    simp [Nat.add_comm]
  · exact history.acceptedOnce
  · intro id accepted
    exact List.mem_append_left _ (history.acceptedEmitted id accepted)
  · intro id returned
    exact List.mem_append_left _ (history.returnedEmitted id returned)
  · intro other id waits
    rcases waiting other id waits with fresh | earlier
    · exact List.mem_append_right _ (List.mem_singleton.mpr fresh)
    · exact List.mem_append_left _
        (history.waitingEmitted other id earlier)
  · exact Or.inr (List.mem_append_right _ (List.mem_singleton.mpr rfl))
  · intro accepted
    exact absurd (history.acceptedEmitted _ accepted) history.next_fresh
  · intro returned
    exact history.next_fresh (history.returnedEmitted _ returned)

/-- A wait returns and clears the slot, whoever filled it. -/
theorem returned (history : TokenHistory nonce log system)
    (blocked : Thread → Option String) (thread : Thread)
    {id : String} (result : Bool)
    (emitted : id ∈ emittedTokens log)
    (waiting :
      ∀ other id, blocked other = some id → system.blocked other = some id) :
    TokenHistory nonce (log ++ [.returned thread id result])
      { gate := { system.gate with pending := "" }, blocked := blocked } := by
  have noEmpty : "" ∉ emittedTokens log := fun empty =>
    history.emitted_ne_empty empty rfl
  constructor <;>
    simp only [emittedTokens_snoc, acceptedTokens_snoc, returnedTokens_snoc,
      emittedToken?, acceptedToken?, returnedToken?, Option.toList_none,
      Option.toList_some, List.append_nil]
  · exact history.sameNonce
  · exact history.numbered
  · exact history.acceptedOnce
  · exact history.acceptedEmitted
  · intro other closed
    rcases List.mem_append.mp closed with earlier | now
    · exact history.returnedEmitted other earlier
    · exact List.mem_singleton.mp now ▸ emitted
  · intro other otherId waits
    exact history.waitingEmitted other otherId (waiting other otherId waits)
  · exact Or.inl trivial
  · intro accepted
    exact absurd (history.acceptedEmitted _ accepted) noEmpty
  · intro closed
    rcases List.mem_append.mp closed with earlier | now
    · exact noEmpty (history.returnedEmitted _ earlier)
    · exact noEmpty (List.mem_singleton.mp now ▸ emitted)

end TokenHistory

variable [DecidableEq Thread]

theorem increment_of_lt {sequence : Nat} (bounded : sequence + 1 < 2 ^ 64) :
    increment sequence = sequence + 1 :=
  Nat.mod_eq_of_lt bounded

theorem tokenHistory_step
    {nonce : String} {log : List (GateEvent Thread)}
    {before after : System Thread} {event : GateEvent Thread}
    (history : TokenHistory nonce log before)
    (bounded : (emittedTokens (log ++ [event])).length < 2 ^ 64)
    (step : Step before event after) :
    TokenHistory nonce (log ++ [event]) after := by
  cases step with
  | reset => exact history.silent rfl rfl rfl rfl rfl rfl rfl
  | cancel => exact history.silent rfl rfl rfl rfl rfl rfl rfl
  | refused thread idle cancelled =>
      exact history.silent rfl rfl rfl rfl rfl rfl rfl
  | answer id decision =>
      cases verdict : (before.gate.answer id decision).1 with
      | false =>
          rw [Gate.answer_rejected verdict]
          exact history.silent rfl rfl rfl rfl rfl rfl rfl
      | true =>
          obtain ⟨filled, inSlot, unanswered, _⟩ := Gate.answer_iff.mp verdict
          rw [Gate.answer_accepted verdict]
          subst inSlot
          exact history.accepted unanswered filled decision
  | @emitted thread id gate idle entered =>
      obtain ⟨_, sameToken, sameGate⟩ := Gate.enters entered
      have next :
          increment before.gate.sequence = before.gate.sequence + 1 := by
        rw [emittedTokens_snoc, List.length_append,
          history.emitted_length] at bounded
        exact increment_of_lt bounded
      rw [next, history.sameNonce] at sameToken
      subst sameToken
      rw [next] at sameGate
      subst sameGate
      refine history.emitted _ thread ?_
      intro other id waiting
      by_cases same : other = thread
      · subst same
        rw [Function.update_self] at waiting
        exact Or.inl (Option.some.inj waiting).symm
      · rw [Function.update_of_ne same] at waiting
        exact Or.inr waiting
  | returned thread timedOut waiting wakes =>
      exact history.returned _ thread _
        (history.waitingEmitted thread _ waiting)
        (fun _ _ => blocked_of_update_none)

theorem tokenHistory
    {nonce : String} {log : List (GateEvent Thread)}
    {system : System Thread}
    (execution : Execution Step (initial nonce) log system)
    (bounded : (emittedTokens log).length < 2 ^ 64) :
    TokenHistory nonce log system := by
  induction execution with
  | start => exact TokenHistory.start nonce
  | extend past last induction =>
      refine tokenHistory_step (induction ?_) bounded last
      rw [emittedTokens_snoc, List.length_append] at bounded
      exact Nat.lt_of_le_of_lt (Nat.le_add_right _ _) bounded

/-! ## Single use -/

/-- No token serves two requests, two answers or a request that is over. -/
structure TokensSingleUse (log : List (GateEvent Thread))
    (system : System Thread) : Prop where
  emittedOnce : (emittedTokens log).Nodup
  acceptedOnce : (acceptedTokens log).Nodup
  rejectedWithoutEffect :
    ∀ id approved after,
      Step system (.answer id approved false) after → after = system
  rejectedAfterReturn :
    ∀ before after thread token result approved accepted,
      log = before ++ .returned thread token result :: after →
        .answer token approved accepted ∈ after → accepted = false

theorem rejected_step
    {system after : System Thread} {id : String} {approved : Bool}
    (step : Step system (.answer id approved false) after) :
    after = system := by
  generalize written : GateEvent.answer id approved false = event at step
  cases step with
  | answer otherId otherDecision =>
      simp only [GateEvent.answer.injEq] at written
      obtain ⟨sameId, sameDecision, rejected⟩ := written
      rw [Gate.answer_rejected rejected.symm]
  | _ => simp at written

/-- A token whose wait has returned is not in the slot any more. -/
theorem rejected_after_return
    {nonce : String} {log : List (GateEvent Thread)}
    {source target : System Thread} {id : String}
    {approved accepted : Bool}
    (history : TokenHistory nonce log source)
    (closed : id ∈ returnedTokens log)
    (step : Step source (.answer id approved accepted) target) :
    accepted = false := by
  generalize written : GateEvent.answer id approved accepted = event at step
  cases step with
  | answer otherId otherDecision =>
      simp only [GateEvent.answer.injEq] at written
      obtain ⟨sameId, sameDecision, verdict⟩ := written
      subst sameId
      subst sameDecision
      rw [verdict]
      by_contra taken
      rw [Bool.not_eq_false] at taken
      have inSlot := (Gate.answer_iff.mp taken).2.1
      exact history.slotOpen (inSlot ▸ closed)
  | _ => simp at written

/--
As long as the counter does not wrap, every token is emitted once, accepted
at most once, and rejected for good once its wait has returned.
-/
theorem tokens_single_use
    (nonce : String) (log : List (GateEvent Thread))
    (system : System Thread)
    (execution : Execution Step (initial nonce) log system)
    (noWrap : (emittedTokens log).length < 2 ^ 64) :
    TokensSingleUse log system := by
  have history := tokenHistory execution noWrap
  constructor
  case emittedOnce => exact history.emittedOnce
  case acceptedOnce => exact history.acceptedOnce
  case rejectedWithoutEffect =>
    intro id approved after step
    exact rejected_step step
  case rejectedAfterReturn =>
    intro before after thread token result approved accepted split answered
    obtain ⟨earlier, later, cut⟩ := List.append_of_mem answered
    rw [cut, ← List.cons_append, ← List.append_assoc] at split
    subst split
    obtain ⟨source, target, past, step⟩ := execution.step_of_log
    refine rejected_after_return (tokenHistory past ?_) ?_ step
    · rw [emittedTokens, List.filterMap_append, List.length_append] at noWrap
      exact Nat.lt_of_le_of_lt (Nat.le_add_right _ _) noWrap
    · refine List.mem_filterMap.mpr
        ⟨.returned thread token result, ?_, rfl⟩
      exact List.mem_append_right _ List.mem_cons_self

/-- One request is approved, returns, and its token is answered once more. -/
theorem tokens_single_use_replayed :
    ∃ system : System Bool,
      TokensSingleUse
        [.emitted false (token "n" 1),
          .answer (token "n" 1) true true,
          .returned false (token "n" 1) true,
          .answer (token "n" 1) true false]
        system := by
  have emitted :
      Execution Step (initial "n") [.emitted false (token "n" 1)]
        (oneWaiting "n") :=
    .extend .start (.emitted false rfl rfl)
  have accepted :
      ((oneWaiting "n").gate.answer (token "n" 1) true).1 = true := by
    decide
  have answer : Step (oneWaiting "n") _ _ := .answer (token "n" 1) true
  rw [accepted, Gate.answer_accepted accepted] at answer
  have returned :=
    (emitted.extend answer).extend (.returned false true rfl (Or.inl rfl))
  have replayed := returned.extend (.answer (token "n" 1) true)
  exact ⟨_, tokens_single_use "n" _ _ replayed (by decide)⟩

end ArnCore.Confirmation.TokenUse
