import ArnCore.Net.RetryCancellation

/-!
# The back-off of the retry loops

A delay is taken from the header of the response or computed from the number of
the attempt, in the arithmetic of `int`.  The product is defined up to the
attempt 22, which the loops do not leave behind with 24 attempts or fewer.
-/

namespace ArnCore.Net.BackOff

open ArnCore.Interaction
open ArnCore.Net.RetryCancellation
open ArnCore.Provider
open ArnCore.Tool

/-! ## The arithmetic -/

/-- The product stays in its range up to the attempt 22. -/
theorem baseMs?_eq (attempt : Nat) :
    baseMs? attempt =
      if attempt ≤ 22 then some ((500 * 2 ^ attempt : Nat) : Int)
      else none := by
  have shifted : ∀ attempt < 32, baseMs? attempt =
      if attempt ≤ 22 then some ((500 * 2 ^ attempt : Nat) : Int)
      else none := by
    decide
  by_cases shifts : attempt < 32
  · exact shifted attempt shifts
  · rw [baseMs?, shiftOne?, if_neg shifts, if_neg (by omega)]
    rfl

/-- The sum with the jitter stays in its range wherever the product does. -/
theorem backOffMs?_eq (attempt : Nat) (jitter : Fin 251) :
    backOffMs? attempt jitter =
      if attempt ≤ 22 then some ((500 * 2 ^ attempt + jitter : Nat) : Int)
      else none := by
  rw [backOffMs?, baseMs?_eq]
  split_ifs with small
  · have power : 2 ^ attempt ≤ 2 ^ 22 := Nat.pow_le_pow_right (by decide) small
    have drawn := jitter.isLt
    rw [Option.bind_some, int?, if_pos ⟨by omega, by omega⟩,
      Int.natCast_add]
  · rfl

/-- The delay the loops go on with, without a header. -/
def backOffDelay (attempt : Nat) (jitter : Fin 251) : Nat :=
  match backOffMs? attempt jitter with
  | some delay => delay.toNat
  | none => 500 * 2 ^ attempt + jitter

theorem backOffDelay_eq (attempt : Nat) (jitter : Fin 251) :
    backOffDelay attempt jitter = 500 * 2 ^ attempt + jitter := by
  rw [backOffDelay, backOffMs?_eq]
  split_ifs <;> rfl

/-! ## What the loops wait for -/

/-- A delay before a retry, with the attempt and the response it followed. -/
structure Wait where
  attempt : Nat
  response : HttpResult
  delay : Nat

/-- No header of the response is honoured. -/
def Wait.HeaderLess (wait : Wait) : Prop :=
  retryAfterSeconds wait.response = none

/-- What a loop went through: its attempts, the last response, its waits. -/
structure Progress where
  attempts : Nat := 0
  response : Option HttpResult := none
  waits : List Wait := []

/-- What an event changes. -/
def observe (state : Progress) : Event retries → Progress
  | ⟨.request, answer⟩ =>
      { state with
        attempts := state.attempts + 1
        response :=
          match answer.1 with
          | .ok received => some received.1
          | .error _ => none }
  | ⟨.pollsBefore delay, _⟩ =>
      match state.response with
      | some response =>
          { state with
            waits := state.waits ++ [⟨state.attempts - 1, response, delay⟩] }
      | none => state
  | _ => state

/-- The world that gives the permitted answers. -/
def answering (permits : Progress → Event retries → Prop) :
    World retries Progress where
  perform state op answer after :=
    permits state ⟨op, answer⟩ ∧ after = observe state ⟨op, answer⟩

/-- The flag, when the caller has one. -/
def flag (watch : Bool) : CancelFlag retries :=
  if watch then some load else none

/-- The run of a loop. -/
def calls (watch : Bool) (maxAttempts : Int) :
    RetryLoop → Program retries Unit
  | .plain => do
      let _ ← (executeWithRetry retryTransport (flag watch)
        (Prod.fst <$> send) maxAttempts 0 :
          Action retries Unit HttpResult).run.run ()
      pure ()
  | .streaming notices initial => do
      let _ ← (executeStreamWithRetry retryTransport (flag watch) sendStream
        (onProgress notices) maxAttempts 0).run.run initial
      pure ()

/-- The delay is the one `retry_delay` returns. -/
def Wait.Computed (wait : Wait) : Prop :=
  match retryAfterSeconds wait.response with
  | some seconds => wait.delay = seconds * 1000
  | none => ∃ jitter, wait.delay = backOffDelay wait.attempt jitter

/-- A wait follows the last attempt, and there is a next one. -/
def MayWait (maxAttempts : Int) (state : Progress) : RetryOp → Prop
  | .pollsBefore delay => ∃ attempt response,
      state.attempts = attempt + 1 ∧ state.response = some response ∧
        state.waits.map Wait.attempt = List.range attempt ∧
        (attempt : Int) + 1 < maxAttempts ∧
        Wait.Computed ⟨attempt, response, delay⟩
  | _ => True

/-- Before an attempt: every attempt so far was followed by a wait. -/
structure Ready (attempt : Nat) (state : Progress) : Prop where
  attempts : state.attempts = attempt
  waits : state.waits.map Wait.attempt = List.range attempt

/-- Behind an attempt that was answered. -/
structure Answered (attempt : Nat) (response : HttpResult) (state : Progress) :
    Prop where
  attempts : state.attempts = attempt + 1
  response : state.response = some response
  waits : state.waits.map Wait.attempt = List.range attempt

theorem Answered.ready
    {attempt : Nat} {response : HttpResult} {state : Progress} {delay : Nat}
    {answer : Nat × Bool} (answered : Answered attempt response state) :
    Ready (attempt + 1) (observe state ⟨.pollsBefore delay, answer⟩) := by
  constructor
  · simp only [observe, answered.response]
    exact answered.attempts
  · simp only [observe, answered.response, answered.attempts,
      List.map_append, answered.waits]
    rw [List.range_succ]
    rfl

/-! ## The server that asks for retries -/

/-- The responses of a server that is overloaded; one has no header. -/
def overloaded (attempt : Nat) : HttpResult :=
  .ok
    { status := 503
      retryAfter := if attempt = 23 then none else some "0" }

/-- The answers under which a loop makes all of its attempts. -/
def Overload (state : Progress) : Event retries → Prop
  | ⟨.request, answer⟩ =>
      answer.1 = .ok (overloaded state.attempts, { parts := () })
  | ⟨.load, answer⟩ => answer.1 = false
  | ⟨.progress _, answer⟩ => answer.1 = .ok ()
  | _ => True

/-- The loop made all of its attempts, if it was always asked for more. -/
def Ends (permits : Progress → Event retries → Prop) (maxAttempts : Int)
    (state : Progress) : Prop :=
  (∀ state event, permits state event → Overload state event) →
    maxAttempts ≤ state.attempts ∧ state.attempts = state.waits.length + 1

/-- Every attempt but the last was followed by a wait. -/
theorem Answered.attempts_eq
    {attempt : Nat} {response : HttpResult} {state : Progress}
    (answered : Answered attempt response state) :
    state.attempts = state.waits.length + 1 := by
  have numbered := congrArg List.length answered.waits
  rw [List.length_map, List.length_range] at numbered
  rw [answered.attempts, numbered]

/-! ## The steps of the loops -/

section Rules

variable {permits : Progress → Event retries → Prop} {maxAttempts : Int}
  {Locals : Type} {locals : Locals} {state : Progress} {watch : Bool}

/-- Every permitted answer asks the loop to go on. -/
abbrev Overloaded (permits : Progress → Event retries → Prop) : Prop :=
  ∀ state event, permits state event → Overload state event

theorem holds_isSet
    {post : Except Exception Bool → Locals → Progress → Prop}
    (checked : ∀ stop, (Overloaded permits → stop = false) →
      post (.ok stop) locals state) :
    Action.Holds (answering permits) (MayWait maxAttempts) post
      (isSet (flag watch) : Action retries Locals Bool) locals state := by
  cases watch with
  | false => exact checked false fun _ => rfl
  | true =>
      refine ⟨trivial, ?_⟩
      rintro ⟨stop, rises⟩ after ⟨permitted, rfl⟩
      exact checked stop fun overloads => overloads _ _ permitted

theorem holds_waitUntil
    {post : Except Exception Bool → Locals → Progress → Prop} {polls : Nat}
    (passed : ∀ cancelled, (Overloaded permits → cancelled = false) →
      post (.ok cancelled) locals state) :
    Action.Holds (answering permits) (MayWait maxAttempts) post
      (waitUntil (flag watch) polls : Action retries Locals Bool) locals
      state := by
  induction polls with
  | zero => exact passed false fun _ => rfl
  | succ polls induction =>
      apply Action.holds_bind.mpr
      apply holds_isSet
      intro stop clear
      cases stop with
      | true => exact passed true clear
      | false => exact induction

/-- A notice, when there is a callback for it. -/
theorem holds_notify
    {post : Except Exception Unit → Locals → Progress → Prop}
    {notices : Bool} {message : String}
    (informed : ∀ outcome, (Overloaded permits → outcome = .ok ()) →
      post outcome locals state) :
    Action.Holds (answering permits) (MayWait maxAttempts) post
      (notify (onProgress notices) message :
        Action retries Locals Unit) locals state := by
  cases notices with
  | false => exact informed _ fun _ => rfl
  | true =>
      refine ⟨trivial, ?_⟩
      rintro ⟨outcome, rises⟩ after ⟨permitted, rfl⟩
      have asked : Overloaded permits → outcome = .ok () :=
        fun overloads => overloads _ _ permitted
      cases outcome with
      | error failure => exact informed _ asked
      | ok value => exact informed _ asked

/-- A request is answered, or its exception ends the loop. -/
theorem Ready.holds_send
    {post : Except Exception (HttpResult × Streaming Unit) → Locals →
      Progress → Prop} {attempt : Nat}
    (ready : Ready attempt state)
    (threw : ∀ failure after, ¬ Overloaded permits →
      post (.error failure) locals after)
    (answered : ∀ received after, Answered attempt received.1 after →
      (Overloaded permits →
        received = (overloaded attempt, { parts := () })) →
        post (.ok received) locals after) :
    Action.Holds (answering permits) (MayWait maxAttempts) post
      (Action.ofHost send : Action retries Locals _) locals state := by
  refine ⟨trivial, ?_⟩
  rintro ⟨outcome, rises⟩ after ⟨permitted, rfl⟩
  have asked : Overloaded permits →
      outcome = .ok (overloaded attempt, { parts := () }) := by
    rw [← ready.attempts]
    exact fun overloads => overloads _ _ permitted
  cases outcome with
  | error failure =>
      refine threw failure _ fun overloads => ?_
      cases asked overloads
  | ok received =>
      refine answered received _ ⟨?_, rfl, ready.waits⟩
        fun overloads => Except.ok.inj (asked overloads)
      rw [← ready.attempts]
      rfl

theorem Ready.holds_request
    {post : Except Exception HttpResult → Locals → Progress → Prop}
    {attempt : Nat} (ready : Ready attempt state)
    (threw : ∀ failure after, ¬ Overloaded permits →
      post (.error failure) locals after)
    (answered : ∀ response after, Answered attempt response after →
      (Overloaded permits → response = overloaded attempt) →
        post (.ok response) locals after) :
    Action.Holds (answering permits) (MayWait maxAttempts) post
      (Action.ofHost (Prod.fst <$> send) : Action retries Locals HttpResult)
      locals state := by
  have sent := @Ready.holds_send permits maxAttempts Locals locals state
    (fun outcome locals after => post (outcome.map Prod.fst) locals after)
    attempt ready threw fun received after behind asked =>
      answered received.1 after behind fun overloads => by rw [asked overloads]
  obtain ⟨-, rest⟩ := sent
  refine ⟨trivial, ?_⟩
  rintro ⟨outcome, rises⟩ after performed
  have holds := rest (outcome, rises) after performed
  cases outcome with
  | error failure => exact holds
  | ok received => exact holds

theorem Ready.holds_sendStream
    {post : Except Exception HttpResult → Streaming Unit → Progress → Prop}
    {streaming : Streaming Unit} {attempt : Nat}
    (ready : Ready attempt state)
    (threw : ∀ failure streaming after, ¬ Overloaded permits →
      post (.error failure) streaming after)
    (answered : ∀ response streaming after, Answered attempt response after →
      (Overloaded permits →
        response = overloaded attempt ∧ streaming = { parts := () }) →
        post (.ok response) streaming after) :
    Action.Holds (answering permits) (MayWait maxAttempts) post sendStream
      streaming state := by
  apply Action.holds_bind.mpr
  apply ready.holds_send
  · exact fun failure after others => threw failure _ after others
  · intro received after behind asked
    refine answered received.1 received.2 after behind fun overloads => ?_
    rw [asked overloads]
    exact ⟨rfl, rfl⟩

/-- The delay is computed, and the wait leads to the next attempt. -/
theorem Answered.holds_wait
    {Value : Type} {post : Except Exception Value → Locals → Progress → Prop}
    {attempt : Nat} {response : HttpResult} {kept : Value}
    {again : Action retries Locals Value} {notice : Nat → String}
    {notices : Bool}
    (answered : Answered attempt response state)
    (more : (attempt : Int) + 1 < maxAttempts)
    (left : ∀ outcome after, ¬ Overloaded permits → post outcome locals after)
    (goesOn : ∀ after, Ready (attempt + 1) after →
      Action.Holds (answering permits) (MayWait maxAttempts) post again locals
        after) :
    Action.Holds (answering permits) (MayWait maxAttempts) post
      (do
        let delay ← retryDelay retryTransport response attempt
        notify (onProgress notices) (notice delay)
        let polls ← Action.ofHost (retryTransport.pollsBefore delay)
        let cancelled ← waitUntil (flag watch) polls
        if cancelled then
          pure kept
        else
          again)
      locals state := by
  have waits : ∀ delay, Wait.Computed ⟨attempt, response, delay⟩ →
      Action.Holds (answering permits) (MayWait maxAttempts) post
        (do
          notify (onProgress notices) (notice delay)
          let polls ← Action.ofHost (retryTransport.pollsBefore delay)
          let cancelled ← waitUntil (flag watch) polls
          if cancelled then
            pure kept
          else
            again)
        locals state := by
    intro delay computed
    apply Action.holds_bind.mpr
    apply holds_notify
    rintro (failure | value) asked
    · refine left _ _ fun overloads => ?_
      cases asked overloads
    apply Action.holds_bind.mpr
    refine ⟨⟨attempt, response, answered.attempts, answered.response,
      answered.waits, more, computed⟩, ?_⟩
    rintro ⟨polls, rises⟩ after ⟨_, rfl⟩
    apply Action.holds_bind.mpr
    apply holds_waitUntil
    intro cancelled clear
    cases cancelled with
    | true =>
        refine left _ _ fun overloads => ?_
        cases clear overloads
    | false => exact goesOn _ answered.ready
  apply Action.holds_bind.mpr
  unfold retryDelay
  cases asked : retryAfterSeconds response with
  | some seconds =>
      refine waits _ ?_
      simp [Wait.Computed, asked]
  | none =>
      refine ⟨trivial, ?_⟩
      rintro jitter after ⟨_, rfl⟩
      refine waits (backOffDelay attempt jitter) ?_
      simp only [Wait.Computed, asked]
      exact ⟨jitter, rfl⟩

theorem isHardQuotaResponse_overloaded (attempt : Nat) (errorBody : String) :
    isHardQuotaResponse (overloaded attempt) errorBody = false := by
  simp [isHardQuotaResponse, overloaded]

theorem shouldRetry_overloaded (attempt : Nat) (errorBody : String) :
    shouldRetry (overloaded attempt) errorBody = true := by
  simp [shouldRetry, overloaded]

theorem isReadError_overloaded (attempt : Nat) :
    isReadError (overloaded attempt) = false := rfl

theorem Ready.holds_plain
    {attempt : Nat} (ready : Ready attempt state) :
    Action.Holds (answering permits) (MayWait maxAttempts)
      (fun _ _ after => Ends permits maxAttempts after)
      (executeWithRetry retryTransport (flag watch) (Prod.fst <$> send)
        maxAttempts attempt : Action retries Locals HttpResult)
      locals state := by
  induction remaining : (maxAttempts - attempt).toNat
    using Nat.strong_induction_on generalizing attempt state with
  | _ remaining induction =>
      rw [executeWithRetry]
      apply Action.holds_bind.mpr
      apply ready.holds_request
      · exact fun failure after others overloads => absurd overloads others
      intro response after answered asked
      apply Action.holds_bind.mpr
      apply holds_isSet
      intro stop clear
      by_cases final : (stop || !shouldRetry response "" ||
          decide ((attempt : Int) + 1 ≥ maxAttempts)) = true
      · dsimp only
        rw [dif_pos final]
        intro overloads
        rw [clear overloads, asked overloads, shouldRetry_overloaded] at final
        have last := answered.attempts
        simp only [Bool.not_true, Bool.or_self, Bool.false_or,
          decide_eq_true_eq] at final
        exact ⟨by omega, answered.attempts_eq⟩
      · dsimp only
        rw [dif_neg final]
        simp only [Bool.or_eq_true, decide_eq_true_eq, not_or] at final
        refine @Answered.holds_wait _ _ _ _ _ _ _ _ _ _ _ _ (fun _ => "") false
          answered (by omega) ?_ ?_
        · exact fun outcome after others overloads => absurd overloads others
        · exact fun after next => induction _ (by omega) next rfl

theorem Ready.holds_stream
    {attempt : Nat} {notices : Bool} {streaming : Streaming Unit}
    (ready : Ready attempt state) :
    Action.Holds (answering permits) (MayWait maxAttempts)
      (fun _ _ after => Ends permits maxAttempts after)
      (executeStreamWithRetry retryTransport (flag watch) sendStream
        (onProgress notices) maxAttempts attempt)
      streaming state := by
  induction remaining : (maxAttempts - attempt).toNat
    using Nat.strong_induction_on generalizing attempt state streaming with
  | _ remaining induction =>
      rw [executeStreamWithRetry]
      apply Action.holds_bind.mpr
      apply holds_notify
      rintro (failure | value) informed
      · intro overloads
        cases informed overloads
      apply Action.holds_bind.mpr
      apply ready.holds_sendStream
      · exact fun failure streaming after others overloads =>
          absurd overloads others
      intro response streaming after answered asked
      apply Action.holds_bind.mpr
      apply Action.holds_get.mpr
      apply Action.holds_bind.mpr
      apply holds_isSet
      intro stop clear
      by_cases final :
          isFinal stop streaming response attempt maxAttempts = true
      · dsimp only
        rw [dif_pos final]
        have ends : Ends permits maxAttempts after := by
          intro overloads
          obtain ⟨rfl, rfl⟩ := asked overloads
          have last := answered.attempts
          simp only [isFinal, clear overloads, isHardQuotaResponse_overloaded,
            shouldRetry_overloaded, isReadError_overloaded, Bool.not_true,
            Bool.or_self, Bool.false_or, Bool.or_false, decide_eq_true_eq]
            at final
          exact ⟨by omega, answered.attempts_eq⟩
        apply Action.holds_bind.mpr
        by_cases quota : isHardQuotaResponse response streaming.errorBody = true
        · rw [if_pos quota]
          apply holds_notify
          rintro (failure | value) informed
          · exact ends
          · exact ends
        · rw [if_neg quota]
          exact ends
      · dsimp only
        rw [dif_neg final]
        have more := attempt_lt_of_not_isFinal (Bool.eq_false_iff.mpr final)
        apply answered.holds_wait more
        · exact fun outcome after others overloads => absurd overloads others
        · exact fun after next => induction _ (by omega) next rfl

end Rules

/-! ## Every run -/

theorem holds_calls
    {permits : Progress → Event retries → Prop} (watch : Bool)
    (maxAttempts : Int) (loop : RetryLoop) :
    (calls watch maxAttempts loop).Holds (answering permits)
      (MayWait maxAttempts) (fun after _ => Ends permits maxAttempts after)
      {} := by
  have ready : Ready 0 {} := ⟨rfl, rfl⟩
  cases loop with
  | plain =>
      exact Program.Holds.bind_of ready.holds_plain fun _ _ ends => ends
  | streaming notices initial =>
      exact Program.Holds.bind_of ready.holds_stream fun _ _ ends => ends

/-- What is known of the waits of every run. -/
structure Kept (maxAttempts : Int) (state : Progress) : Prop where
  numbered : ∃ count, state.waits.map Wait.attempt = List.range count
  waits : ∀ wait ∈ state.waits,
    wait.Computed ∧ (wait.attempt : Int) + 1 < maxAttempts

theorem Kept.observe
    {maxAttempts : Int} {state : Progress} {event : Event retries}
    (kept : Kept maxAttempts state) (may : MayWait maxAttempts state event.op) :
    Kept maxAttempts (observe state event) := by
  obtain ⟨op, answer⟩ := event
  cases op with
  | request => exact ⟨kept.numbered, kept.waits⟩
  | load => exact kept
  | jitter => exact kept
  | progress message => exact kept
  | pollsBefore delay =>
      obtain ⟨attempt, response, attempts, answered, numbered, more,
        computed⟩ := may
      simp only [BackOff.observe, answered, attempts]
      constructor
      · refine ⟨attempt + 1, ?_⟩
        simp only [List.map_append, numbered]
        rw [List.range_succ]
        rfl
      · exact List.forall_mem_append.mpr ⟨kept.waits,
          List.forall_mem_singleton.mpr ⟨computed, more⟩⟩

/-- The runs of a loop with any answers. -/
abbrev Runs (watch : Bool) (maxAttempts : Int) (loop : RetryLoop)
    (state : Progress) (rest : Program retries Unit) : Prop :=
  (answering fun _ _ => True).Reaches ({}, calls watch maxAttempts loop)
    (state, rest)

section Waits

variable {watch : Bool} {maxAttempts : Int} {loop : RetryLoop}
  {state : Progress} {rest : Program retries Unit}

theorem kept_of_runs
    (run : Runs watch maxAttempts loop state rest) :
    Kept maxAttempts state := by
  apply (holds_calls watch maxAttempts loop).keeps _ ⟨⟨0, rfl⟩, by simp⟩ run
  rintro before op answer next may ⟨_, rfl⟩ kept
  exact kept.observe may

/-- The arithmetic of a delay is defined, and the delay is in its bounds. -/
structure Exact (wait : Wait) : Prop where
  defined : wait.HeaderLess →
    ∃ jitter, backOffMs? wait.attempt jitter = some (wait.delay : Int)
  honoured : ∀ seconds, retryAfterSeconds wait.response = some seconds →
    wait.delay = seconds * 1000 ∧ wait.delay ≤ 60000
  bounded : wait.HeaderLess →
    500 * 2 ^ wait.attempt ≤ wait.delay ∧
      wait.delay ≤ 500 * 2 ^ wait.attempt + 250

/-- All delays of a run are exact, and those without a header grow. -/
structure BacksOff (waits : List Wait) : Prop where
  exact : ∀ wait ∈ waits, Exact wait
  grows : waits.Pairwise fun earlier later =>
    earlier.HeaderLess → later.HeaderLess → earlier.delay < later.delay

theorem le_of_retryAfterSeconds
    {response : HttpResult} {seconds : Nat}
    (asked : retryAfterSeconds response = some seconds) : seconds ≤ 60 := by
  cases response with
  | error failure => cases asked
  | ok response =>
      simp only [retryAfterSeconds, Option.bind_eq_some_iff] at asked
      obtain ⟨value, -, within⟩ := asked
      split_ifs at within with bounds
      cases within
      omega

/-- The bounds hold of every delay the loops go on with. -/
theorem Wait.Computed.bounded
    {wait : Wait} (computed : wait.Computed) (headerLess : wait.HeaderLess) :
    500 * 2 ^ wait.attempt ≤ wait.delay ∧
      wait.delay ≤ 500 * 2 ^ wait.attempt + 250 := by
  unfold Wait.HeaderLess at headerLess
  simp only [Wait.Computed, headerLess] at computed
  obtain ⟨jitter, same⟩ := computed
  have drawn := jitter.isLt
  rw [same, backOffDelay_eq]
  omega

/-- A computed delay is exact unless its product leaves the range. -/
theorem Wait.Computed.exact_iff
    {wait : Wait} (computed : wait.Computed) :
    Exact wait ↔ (wait.HeaderLess → wait.attempt ≤ 22) := by
  constructor
  · intro exact headerLess
    obtain ⟨jitter, defined⟩ := exact.defined headerLess
    rw [backOffMs?_eq] at defined
    split_ifs at defined with small
    exact small
  · intro small
    refine ⟨?_, ?_, computed.bounded⟩
    · intro headerLess
      have range := small headerLess
      unfold Wait.HeaderLess at headerLess
      simp only [Wait.Computed, headerLess] at computed
      obtain ⟨jitter, same⟩ := computed
      refine ⟨jitter, ?_⟩
      rw [backOffMs?_eq, if_pos range, same, backOffDelay_eq]
    · intro seconds asked
      simp only [Wait.Computed, asked] at computed
      have few := le_of_retryAfterSeconds asked
      omega

/-- The delays grow with the attempts. -/
theorem Kept.grows
    (kept : Kept maxAttempts state) :
    state.waits.Pairwise fun earlier later =>
      earlier.HeaderLess → later.HeaderLess → earlier.delay < later.delay := by
  obtain ⟨count, numbered⟩ := kept.numbered
  have ordered : (state.waits.map Wait.attempt).Pairwise (· < ·) := by
    rw [numbered]
    exact List.pairwise_lt_range
  refine (List.pairwise_map.mp ordered).imp_of_mem ?_
  intro earlier later earlierMember laterMember less earlierFree laterFree
  have first := (kept.waits earlier earlierMember).1.bounded earlierFree
  have second := (kept.waits later laterMember).1.bounded laterFree
  have positive : 0 < 2 ^ earlier.attempt := Nat.two_pow_pos _
  have doubled : 2 ^ (earlier.attempt + 1) ≤ 2 ^ later.attempt :=
    Nat.pow_le_pow_right (by decide) less
  rw [Nat.pow_succ] at doubled
  omega

theorem Kept.backsOff_iff
    (kept : Kept maxAttempts state) :
    BacksOff state.waits ↔
      ∀ wait ∈ state.waits, wait.HeaderLess → wait.attempt ≤ 22 := by
  constructor
  · intro backsOff wait member
    exact (kept.waits wait member).1.exact_iff.mp (backsOff.exact wait member)
  · intro small
    exact ⟨fun wait member =>
      (kept.waits wait member).1.exact_iff.mpr (small wait member), kept.grows⟩

end Waits

/-! ## The overloaded server -/

/-- Its answers; the flag stays clear, and no time passes. -/
def refusals (state : Progress) : (op : RetryOp) → retries.Answer op
  | .request => (.ok (overloaded state.attempts, { parts := () }), false)
  | .load => (false, false)
  | .jitter => leastJitter
  | .pollsBefore _ => (0, false)
  | .progress _ => (.ok (), false)

theorem performs_refusals (state : Progress) (op : RetryOp) :
    (answering Overload).perform state op (refusals state op)
      (observe state ⟨op, refusals state op⟩) := by
  refine ⟨?_, rfl⟩
  cases op with
  | request => rfl
  | load => rfl
  | jitter => trivial
  | pollsBefore delay => trivial
  | progress message => rfl

/-- Where the run of a loop against this server ends. -/
def refusedEnd (watch : Bool) (maxAttempts : Int) (loop : RetryLoop) :
    Progress :=
  ((calls watch maxAttempts loop).played refusals observe {}).1

theorem reaches_refusedEnd
    (watch : Bool) (maxAttempts : Int) (loop : RetryLoop) :
    (answering Overload).Reaches ({}, calls watch maxAttempts loop)
      (refusedEnd watch maxAttempts loop, .done ()) :=
  Program.reaches_played performs_refusals _ _

theorem runs_refusedEnd
    (watch : Bool) (maxAttempts : Int) (loop : RetryLoop) :
    Runs watch maxAttempts loop (refusedEnd watch maxAttempts loop)
      (.done ()) := by
  apply Program.reaches_played
  exact fun _ _ => ⟨trivial, rfl⟩

/-- The responses are those of the overloaded server, and all are waited for. -/
structure Refused (state : Progress) : Prop where
  response : ∀ response, state.response = some response →
    ∃ attempt, state.attempts = attempt + 1 ∧ response = overloaded attempt
  waits : ∀ wait ∈ state.waits, wait.response = overloaded wait.attempt

theorem Refused.observe
    {state : Progress} {event : Event retries}
    (refused : Refused state) (answered : Overload state event) :
    Refused (observe state event) := by
  obtain ⟨op, answer⟩ := event
  cases op with
  | request =>
      refine ⟨?_, refused.waits⟩
      intro response same
      simp only [BackOff.observe] at same
      rw [show answer.1 = _ from answered] at same
      cases same
      exact ⟨state.attempts, rfl, rfl⟩
  | load => exact refused
  | jitter => exact refused
  | progress message => exact refused
  | pollsBefore delay =>
      simp only [BackOff.observe]
      cases last : state.response with
      | none => exact refused
      | some response =>
          obtain ⟨attempt, attempts, rfl⟩ := refused.response response last
          refine ⟨?_, List.forall_mem_append.mpr
            ⟨refused.waits, List.forall_mem_singleton.mpr ?_⟩⟩
          · rintro response ⟨⟩
            exact ⟨attempt, attempts, rfl⟩
          · simp only [attempts, Nat.add_sub_cancel]

/-- With more than 24 attempts a delay without a header is not defined. -/
theorem exists_overflow
    (watch : Bool) {maxAttempts : Int} (loop : RetryLoop)
    (many : 24 < maxAttempts) :
    ∃ wait ∈ (refusedEnd watch maxAttempts loop).waits,
      wait.HeaderLess ∧ wait.attempt = 23 := by
  have holds := @holds_calls Overload watch maxAttempts loop
  have reached := reaches_refusedEnd watch maxAttempts loop
  have refused : Refused (refusedEnd watch maxAttempts loop) := by
    apply holds.keeps _ ⟨nofun, by simp⟩ reached
    rintro before op answer next _ ⟨answered, rfl⟩ refused
    exact refused.observe answered
  obtain ⟨all, last⟩ := holds.reaches reached fun _ _ => id
  obtain ⟨count, numbered⟩ :=
    (kept_of_runs (runs_refusedEnd watch maxAttempts loop)).numbered
  have counted := congrArg List.length numbered
  rw [List.length_map, List.length_range] at counted
  have member : 23 ∈
      (refusedEnd watch maxAttempts loop).waits.map Wait.attempt := by
    rw [numbered, List.mem_range]
    omega
  obtain ⟨wait, waited, attempt⟩ := List.mem_map.mp member
  refine ⟨wait, waited, ?_, attempt⟩
  rw [Wait.HeaderLess, refused.waits wait waited, attempt]
  rfl

/--
The delays of a run are exact as long as no delay without a header follows an
attempt behind the one with the number 22.  This is so in every run of a loop
exactly when it makes 24 attempts or fewer.
-/
theorem back_off_exact_iff
    (watch : Bool) (maxAttempts : Int) (loop : RetryLoop) :
    (∀ state rest, Runs watch maxAttempts loop state rest →
      (BacksOff state.waits ↔
        ∀ wait ∈ state.waits, wait.HeaderLess → wait.attempt ≤ 22)) ∧
    ((∀ state rest, Runs watch maxAttempts loop state rest →
        BacksOff state.waits) ↔
      maxAttempts ≤ 24) := by
  refine ⟨fun state rest run => (kept_of_runs run).backsOff_iff, ?_⟩
  constructor
  · intro backsOff
    by_contra many
    have run := runs_refusedEnd watch maxAttempts loop
    obtain ⟨wait, member, headerLess, attempt⟩ :=
      @exists_overflow watch maxAttempts loop (by omega)
    have small := (kept_of_runs run).backsOff_iff.mp (backsOff _ _ run) wait
      member headerLess
    omega
  · intro few state rest run
    have kept := kept_of_runs run
    refine kept.backsOff_iff.mpr fun wait member _ => ?_
    have reachable := (kept.waits wait member).2
    omega

/-- The two delays of the default number of attempts. -/
theorem back_off_exact_iff_default :
    (refusedEnd true 3 .plain).waits.map Wait.attempt = [0, 1] ∧
      BacksOff (refusedEnd true 3 .plain).waits :=
  ⟨by decide +kernel, (back_off_exact_iff true 3 .plain).2.mpr (by decide) _ _
    (runs_refusedEnd true 3 .plain)⟩

/-- The last of 24 waits is not defined: 500 times 2 to the power of 23. -/
theorem back_off_overflows :
    ¬ ∀ (watch : Bool) (maxAttempts : Int) (loop : RetryLoop)
      (state : Progress) (rest : Program retries Unit),
      Runs watch maxAttempts loop state rest → BacksOff state.waits := by
  intro always
  have run := runs_refusedEnd true 25 .plain
  obtain ⟨wait, member, headerLess, attempt⟩ :=
    @exists_overflow true 25 .plain (by decide)
  have small := (kept_of_runs run).backsOff_iff.mp (always _ _ _ _ _ run) wait
    member headerLess
  omega

end ArnCore.Net.BackOff
