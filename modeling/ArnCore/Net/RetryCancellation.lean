import ArnCore.Net.HttpClient

/-!
# Cancellation of the retry loops

Both loops look at the flag behind every attempt and before every sleep of the
wait for the next one.  Nothing looks at it behind the last sleep, so that a
further attempt is started after the flag was set exactly when the flag became
true there, in a wait that passes without a poll, or in a notice behind which there
is no poll.
-/

namespace ArnCore.Net.RetryCancellation

open ArnCore.Interaction
open ArnCore.Provider
open ArnCore.Tool

/-! ## What a retry loop does -/

inductive RetryOp where
  | request
  | load
  | jitter
  | pollsBefore (delay : Nat)
  | progress (message : String)

/--
The answers: where time passes, the second part says whether the flag becomes
true meanwhile.  A load in the wait is followed by a sleep.
-/
def retries : Signature where
  Op := RetryOp
  Answer
    | .request => Except Exception (HttpResult × Streaming Unit) × Bool
    | .load => Bool × Bool
    | .jitter => Fin 251
    | .pollsBefore _ => Nat × Bool
    | .progress _ => Except Exception Unit × Bool

/-- An attempt behind the first one. -/
structure FurtherAttempt where
  /-- The flag was set when it was started. -/
  cancelled : Bool
  /-- The flag had become true where nothing looks at it any more. -/
  late : Bool

structure RetryState where
  /-- The flag. -/
  set : Bool := false
  /-- The sleeps left in the wait. -/
  polls : Nat := 0
  /-- The wait for the next attempt has begun. -/
  waiting : Bool := false
  /-- The flag became true in the notice before the wait. -/
  noticed : Bool := false
  /-- The flag became true where no poll of the wait comes any more. -/
  late : Bool := false
  /-- An attempt was started. -/
  started : Bool := false
  further : List FurtherAttempt := []

/-- What an event changes. -/
def observe (state : RetryState) : Event retries → RetryState
  | ⟨.request, answer⟩ =>
      { set := state.set || answer.2
        started := true
        further :=
          if state.started then
            state.further ++ [{ cancelled := state.set, late := state.late }]
          else
            state.further }
  | ⟨.load, answer⟩ =>
      { state with
        set := state.set || (answer.2 && decide (0 < state.polls))
        late := state.late ||
          (!state.set && answer.2 && decide (state.polls = 1))
        polls := state.polls - 1 }
  | ⟨.jitter, _⟩ => state
  | ⟨.pollsBefore delay, answer⟩ =>
      let rises := answer.2 && decide (0 < delay)
      { state with
        set := state.set || rises
        polls := answer.1
        waiting := true
        late := (state.noticed || (!state.set && rises)) &&
          decide (answer.1 = 0) }
  | ⟨.progress _, answer⟩ =>
      if state.waiting then
        { state with
          set := state.set || answer.2
          late := state.late || (!state.set && answer.2) }
      else
        { state with
          set := state.set || answer.2
          noticed := state.noticed || (!state.set && answer.2) }

/-- A load answers with the flag, and nothing is polled in no time. -/
def Admissible (state : RetryState) : Event retries → Prop
  | ⟨.load, answer⟩ => answer.1 = state.set
  | ⟨.pollsBefore delay, answer⟩ => delay = 0 → answer.1 = 0
  | _ => True

/-- The world in which the flag may become true wherever time passes. -/
def retryWorld : World retries RetryState where
  perform state op answer after :=
    Admissible state ⟨op, answer⟩ ∧ after = observe state ⟨op, answer⟩

/-! ## The two loops -/

/-- Perform an operation. -/
def answered (op : RetryOp) : Program retries (retries.Answer op) :=
  .call op .done

/-- `cancel_requested->load()` -/
def load : Host retries Bool :=
  ExceptT.mk do
    let answer : Bool × Bool ← answered .load
    pure (.ok answer.1)

/-- The callback for notices. -/
def inform (message : String) : Host retries Unit :=
  ExceptT.mk do
    let answer : Except Exception Unit × Bool ← answered (.progress message)
    pure answer.1

/-- The request, with what it leaves in the variables of the turn. -/
def send : Host retries (HttpResult × Streaming Unit) :=
  ExceptT.mk do
    let answer : Except Exception (HttpResult × Streaming Unit) × Bool ←
      answered .request
    pure answer.1

/-- The clock and the jitter; requests are operations of their own. -/
def retryTransport : Transport retries where
  send _ := pure (.failed .canceled)
  jitter := ExceptT.lift (answered .jitter)
  pollsBefore delay :=
    ExceptT.mk do
      let answer : Nat × Bool ← answered (.pollsBefore delay)
      pure (.ok answer.1)
  stop := pure ()

/-- The loops, and what the caller chooses. -/
inductive RetryLoop where
  /-- `execute_with_retry` -/
  | plain
  /-- `execute_stream_with_retry` -/
  | streaming (notices : Bool) (initial : Streaming Unit)

/-- The request of a stream. -/
def sendStream : Action retries (Streaming Unit) HttpResult := do
  let (response, streaming) ← Action.ofHost send
  set streaming
  pure response

/-- `on_progress`, when the caller has one. -/
def onProgress (notices : Bool) : Option (String → Host retries Unit) :=
  if notices then some inform else none

/-- The run of a loop whose flag is watched. -/
def RetryLoop.program (maxAttempts : Int) : RetryLoop → Program retries Unit
  | .plain => do
      let _ ← (executeWithRetry retryTransport (some load)
        (Prod.fst <$> send) maxAttempts 0 :
          Action retries Unit HttpResult).run.run ()
      pure ()
  | .streaming notices initial => do
      let _ ← (executeStreamWithRetry retryTransport (some load) sendStream
        (onProgress notices) maxAttempts 0).run.run initial
      pure ()

/-! ## What the loops see of the flag -/

/-- A further attempt starts with the flag set only when it came late. -/
def MayStart (state : RetryState) : RetryOp → Prop
  | .request => state.started = true → state.set = state.late
  | _ => True

/-- The condition on the state of a retry loop. -/
abbrev Retries {Locals Value : Type}
    (post : Except Exception Value → RetryState → Prop)
    (action : Action retries Locals Value) (locals : Locals)
    (state : RetryState) : Prop :=
  Action.Holds retryWorld MayStart
    (fun outcome _ after => post outcome after) action locals state

/-- Before an attempt. -/
structure Starting (state : RetryState) : Prop where
  polls : state.polls = 0
  flag : state.started = true → state.set = state.late ∧ state.waiting = true

/-- Behind an attempt. -/
structure Attempted (state : RetryState) : Prop where
  polls : state.polls = 0
  waiting : state.waiting = false
  noticed : state.noticed = false
  late : state.late = false

/-- Before the wait. -/
structure Announced (state : RetryState) : Prop where
  polls : state.polls = 0
  waiting : state.waiting = false
  flag : state.set = state.noticed

/-- In the wait, with some polls left. -/
structure Waiting (remaining : Nat) (state : RetryState) : Prop where
  polls : state.polls = remaining
  waiting : state.waiting = true
  flag : if remaining = 0 then state.set = state.late else state.late = false

section Rules

variable {Locals : Type} {locals : Locals} {state : RetryState}

theorem retries_bind
    {Value Result : Type}
    {post : Except Exception Result → RetryState → Prop}
    {action : Action retries Locals Value}
    {next : Value → Action retries Locals Result}
    (first : Action.Holds retryWorld MayStart
      (fun outcome after reached =>
        match outcome with
        | .ok value => Retries post (next value) after reached
        | .error failure => post (.error failure) reached)
      action locals state) :
    Retries post (action >>= next) locals state :=
  Action.holds_bind.mpr first

theorem holds_load
    {post : Except Exception Bool → Locals → RetryState → Prop}
    (loaded : ∀ rises, post (.ok state.set) locals
      (observe state ⟨.load, (state.set, rises)⟩)) :
    Action.Holds retryWorld MayStart post
      (isSet (some load) : Action retries Locals Bool) locals state := by
  refine ⟨trivial, ?_⟩
  rintro ⟨stop, rises⟩ after ⟨answer, rfl⟩
  change stop = state.set at answer
  rw [answer]
  exact loaded rises

/-- A notice, when there is a callback for it. -/
theorem holds_notify
    {post : Except Exception Unit → Locals → RetryState → Prop}
    {notices : Bool} {message : String}
    (silent : post (.ok ()) locals state)
    (informed : ∀ outcome rises, post outcome locals
      (observe state ⟨.progress message, (outcome, rises)⟩)) :
    Action.Holds retryWorld MayStart post
      (notify (onProgress notices) message :
        Action retries Locals Unit) locals state := by
  cases notices with
  | false => exact silent
  | true =>
      refine ⟨trivial, ?_⟩
      rintro ⟨outcome, rises⟩ after ⟨_, rfl⟩
      cases outcome with
      | error failure => exact informed _ rises
      | ok value => exact informed _ rises

/-- Behind an attempt everything but the flag is as it was at the start. -/
theorem Starting.holds_send
    {post : Except Exception (HttpResult × Streaming Unit) → Locals →
      RetryState → Prop}
    (starting : Starting state)
    (answered : ∀ outcome after, Attempted after → post outcome locals after) :
    Action.Holds retryWorld MayStart post
      (Action.ofHost send : Action retries Locals _) locals state := by
  refine ⟨fun started => (starting.flag started).1, ?_⟩
  rintro ⟨outcome, rises⟩ after ⟨_, rfl⟩
  cases outcome with
  | error failure => exact answered _ _ ⟨rfl, rfl, rfl, rfl⟩
  | ok value => exact answered _ _ ⟨rfl, rfl, rfl, rfl⟩

theorem Starting.holds_request
    {post : Except Exception HttpResult → Locals → RetryState → Prop}
    (starting : Starting state)
    (answered : ∀ outcome after, Attempted after → post outcome locals after) :
    Action.Holds retryWorld MayStart post
      (Action.ofHost (Prod.fst <$> send) : Action retries Locals HttpResult)
      locals state := by
  refine ⟨fun started => (starting.flag started).1, ?_⟩
  rintro ⟨outcome, rises⟩ after ⟨_, rfl⟩
  cases outcome with
  | error failure => exact answered _ _ ⟨rfl, rfl, rfl, rfl⟩
  | ok value => exact answered _ _ ⟨rfl, rfl, rfl, rfl⟩

theorem Starting.holds_sendStream
    {post : Except Exception HttpResult → Streaming Unit → RetryState → Prop}
    {streaming : Streaming Unit}
    (starting : Starting state)
    (answered : ∀ outcome streaming after, Attempted after →
      post outcome streaming after) :
    Action.Holds retryWorld MayStart post sendStream streaming state := by
  apply Action.holds_bind.mpr
  apply starting.holds_send
  intro outcome after attempted
  cases outcome with
  | error failure => exact answered _ _ _ attempted
  | ok value => exact answered _ _ _ attempted

theorem Starting.progress
    {message : String} {answer : Except Exception Unit × Bool}
    (starting : Starting state) :
    Starting (observe state ⟨.progress message, answer⟩) := by
  by_cases waiting : state.waiting = true
  · constructor
    · simp [observe, waiting, starting.polls]
    · intro started
      simp only [observe, waiting, if_true] at started ⊢
      obtain ⟨flag, _⟩ := starting.flag started
      simp [flag]
      cases state.late <;> simp
  · constructor
    · simp [observe, waiting, starting.polls]
    · intro started
      simp only [observe, waiting] at started
      exact absurd (starting.flag started).2 waiting

/-- The notice of an attempt. -/
theorem Starting.holds_notify
    {post : Except Exception Unit → Locals → RetryState → Prop}
    {notices : Bool} {message : String}
    (starting : Starting state)
    (informed : ∀ outcome after, Starting after → post outcome locals after) :
    Action.Holds retryWorld MayStart post
      (notify (onProgress notices) message :
        Action retries Locals Unit) locals state :=
  RetryCancellation.holds_notify (informed _ _ starting)
    fun _ _ => informed _ _ starting.progress

/-- The flag is not set where the loop goes on behind an attempt. -/
theorem Attempted.load
    {rises : Bool} (attempted : Attempted state)
    (more : state.set = false) :
    Announced (observe state ⟨.load, (state.set, rises)⟩) := by
  constructor
  · simp [observe, attempted.polls]
  · exact attempted.waiting
  · simp [observe, attempted.polls, attempted.noticed, more]

theorem Announced.progress
    {message : String} {answer : Except Exception Unit × Bool}
    (announced : Announced state) :
    Announced (observe state ⟨.progress message, answer⟩) := by
  constructor
  · simp [observe, announced.waiting, announced.polls]
  · simp [observe, announced.waiting]
  · simp [observe, announced.waiting, announced.flag]
    cases state.noticed <;> simp

/-- The notice of a retry. -/
theorem Announced.holds_notify
    {post : Except Exception Unit → Locals → RetryState → Prop}
    {notices : Bool} {message : String}
    (announced : Announced state)
    (informed : ∀ outcome after, Announced after →
      post outcome locals after) :
    Action.Holds retryWorld MayStart post
      (notify (onProgress notices) message :
        Action retries Locals Unit) locals state :=
  RetryCancellation.holds_notify (informed _ _ announced)
    fun _ _ => informed _ _ announced.progress

theorem Announced.pollsBefore
    {delay remaining : Nat} {rises : Bool} (announced : Announced state) :
    Waiting remaining
      (observe state ⟨.pollsBefore delay, (remaining, rises)⟩) := by
  constructor
  · rfl
  · rfl
  · simp only [observe, announced.flag]
    split_ifs with none
    · simp [none]
      cases state.noticed <;> simp
    · simp [none]

theorem Announced.holds_pollsBefore
    {delay : Nat} {post : Except Exception Nat → Locals → RetryState → Prop}
    (announced : Announced state)
    (begun : ∀ remaining after, Waiting remaining after →
      post (.ok remaining) locals after) :
    Action.Holds retryWorld MayStart post
      (Action.ofHost (retryTransport.pollsBefore delay) :
        Action retries Locals Nat) locals state := by
  refine ⟨trivial, ?_⟩
  rintro ⟨remaining, rises⟩ after ⟨_, rfl⟩
  exact begun _ _ announced.pollsBefore

theorem Waiting.load
    {remaining : Nat} {rises : Bool} (wait : Waiting (remaining + 1) state)
    (more : state.set = false) :
    Waiting remaining (observe state ⟨.load, (state.set, rises)⟩) := by
  have flag : state.late = false := by simpa using wait.flag
  constructor
  · simp [observe, wait.polls]
  · exact wait.waiting
  · cases remaining with
    | zero => simp [observe, wait.polls, more, flag]
    | succ remaining => simp [observe, wait.polls, flag]

theorem Waiting.starting (passed : Waiting 0 state) : Starting state :=
  ⟨passed.polls, fun _ => ⟨by simpa using passed.flag, passed.waiting⟩⟩

/-- A wait whose polls all find the flag unset ends before an attempt. -/
theorem Waiting.holds_waitUntil
    {remaining : Nat}
    {post : Except Exception Bool → Locals → RetryState → Prop}
    (wait : Waiting remaining state)
    (cancelled : ∀ after, post (.ok true) locals after)
    (passed : ∀ after, Starting after → post (.ok false) locals after) :
    Action.Holds retryWorld MayStart post
      (waitUntil (some RetryCancellation.load) remaining :
        Action retries Locals Bool) locals state := by
  induction remaining generalizing state with
  | zero => exact passed state wait.starting
  | succ remaining induction =>
      apply Action.holds_bind.mpr
      apply holds_load
      intro rises
      by_cases stop : state.set = true
      · change Action.Holds retryWorld MayStart post
          (if state.set = true then pure true else _) locals _
        rw [if_pos stop]
        exact cancelled _
      · change Action.Holds retryWorld MayStart post
          (if state.set = true then pure true else _) locals _
        rw [if_neg stop]
        exact induction (wait.load (Bool.eq_false_iff.mpr stop))

/-- The delay, drawn or demanded by the server, changes nothing. -/
theorem holds_retryDelay
    {post : Except Exception Nat → Locals → RetryState → Prop}
    {response : HttpResult} {attempt : Nat}
    (delayed : ∀ delay, post (.ok delay) locals state) :
    Action.Holds retryWorld MayStart post
      (retryDelay retryTransport response attempt :
        Action retries Locals Nat) locals state := by
  unfold retryDelay
  cases retryAfterSeconds response with
  | some seconds => exact delayed _
  | none =>
      refine ⟨trivial, ?_⟩
      rintro jitter after ⟨_, rfl⟩
      exact delayed _

/-- The wait behind a failed attempt, and what a loop does behind it. -/
theorem Announced.retries_wait
    {Value : Type} {delay : Nat} {response : Value}
    {again : Action retries Locals Value}
    (announced : Announced state)
    (passed : ∀ after, Starting after →
      Retries (fun _ _ => True) again locals after) :
    Retries (fun _ _ => True)
      (do
        let polls ← Action.ofHost (retryTransport.pollsBefore delay)
        let cancelled ← waitUntil (some RetryCancellation.load) polls
        if cancelled then
          pure response
        else
          again)
      locals state := by
  apply retries_bind
  apply announced.holds_pollsBefore
  intro remaining after waiting
  apply retries_bind
  apply waiting.holds_waitUntil
  · exact fun _ => trivial
  · exact passed

end Rules

/-! ## The loops start their attempts as they may -/

theorem Starting.retries_stream
    {notices : Bool} {maxAttempts : Int} {attempt : Nat}
    {state : RetryState} {streaming : Streaming Unit}
    (starting : Starting state) :
    Retries (fun _ _ => True)
      (executeStreamWithRetry retryTransport (some load) sendStream
        (onProgress notices) maxAttempts attempt)
      streaming state := by
  induction remaining : (maxAttempts - attempt).toNat
    using Nat.strong_induction_on generalizing attempt state streaming with
  | _ remaining induction =>
      rw [executeStreamWithRetry]
      apply retries_bind
      apply starting.holds_notify
      rintro (_ | _) before starting
      · trivial
      apply retries_bind
      apply starting.holds_sendStream
      rintro (_ | response) streaming after attempted
      · trivial
      apply retries_bind
      apply Action.holds_get.mpr
      apply retries_bind
      apply holds_load
      intro rises
      by_cases final :
          isFinal after.set streaming response attempt maxAttempts = true
      · dsimp only
        rw [dif_pos final]
        apply retries_bind
        by_cases quota : isHardQuotaResponse response streaming.errorBody = true
        · rw [if_pos quota]
          apply RetryCancellation.holds_notify
          · trivial
          · rintro (_ | _) rises <;> trivial
        · rw [if_neg quota]
          trivial
      · dsimp only
        rw [dif_neg final]
        have unset : after.set = false := by
          cases set : after.set with
          | false => rfl
          | true => simp [isFinal, set] at final
        have less := attempt_lt_of_not_isFinal (Bool.eq_false_iff.mpr final)
        apply retries_bind
        apply holds_retryDelay
        intro delay
        apply retries_bind
        apply (attempted.load unset).holds_notify
        rintro (_ | _) announcing announced
        · trivial
        apply announced.retries_wait
        intro next starting
        exact induction _ (by omega) starting rfl

theorem Starting.retries_plain
    {maxAttempts : Int} {attempt : Nat} {state : RetryState}
    (starting : Starting state) :
    Retries (fun _ _ => True)
      (executeWithRetry retryTransport (some load) (Prod.fst <$> send)
        maxAttempts attempt : Action retries Unit HttpResult)
      () state := by
  induction remaining : (maxAttempts - attempt).toNat
    using Nat.strong_induction_on generalizing attempt state with
  | _ remaining induction =>
      rw [executeWithRetry]
      apply retries_bind
      apply starting.holds_request
      rintro (_ | response) after attempted
      · trivial
      apply retries_bind
      apply holds_load
      intro rises
      by_cases final : (after.set || !shouldRetry response "" ||
          decide ((attempt : Int) + 1 ≥ maxAttempts)) = true
      · dsimp only
        rw [dif_pos final]
        trivial
      · dsimp only
        rw [dif_neg final]
        simp only [Bool.or_eq_true, decide_eq_true_eq, not_or] at final
        have unset := Bool.eq_false_iff.mpr final.1.1
        apply retries_bind
        apply holds_retryDelay
        intro delay
        apply (attempted.load unset).retries_wait
        intro next starting
        exact induction _ (by omega) starting rfl

/-! ## Every run -/

theorem RetryLoop.holds_program
    (loop : RetryLoop) (maxAttempts : Int) {state : RetryState}
    (starting : Starting state) :
    (loop.program maxAttempts).Holds retryWorld MayStart (fun _ _ => True)
      state := by
  cases loop with
  | plain =>
      apply Program.Holds.bind_of starting.retries_plain
      exact fun _ _ _ => trivial
  | streaming notices initial =>
      apply Program.Holds.bind_of starting.retries_stream
      exact fun _ _ _ => trivial

/-- The flag was set at a further attempt only when it came late. -/
def FoundLate (state : RetryState) : Prop :=
  ∀ attempt ∈ state.further, attempt.cancelled = attempt.late

theorem FoundLate.observe
    {state : RetryState} {event : Event retries}
    (found : FoundLate state) (starts : MayStart state event.op) :
    FoundLate (observe state event) := by
  obtain ⟨op, answer⟩ := event
  cases op with
  | request =>
      intro attempt member
      simp only [RetryCancellation.observe] at member
      split_ifs at member with started
      · rcases List.mem_append.mp member with earlier | last
        · exact found attempt earlier
        · rw [List.mem_singleton.mp last]
          exact starts started
      · exact found attempt member
  | load => exact found
  | jitter => exact found
  | pollsBefore delay => exact found
  | progress message =>
      intro attempt member
      simp only [RetryCancellation.observe] at member
      split_ifs at member
      · exact found attempt member
      · exact found attempt member

theorem foundLate_of_reaches
    {loop : RetryLoop} {maxAttempts : Int} {start : Bool}
    {state : RetryState} {rest : Program retries Unit}
    (reached : retryWorld.Reaches
      ({ set := start }, loop.program maxAttempts) (state, rest)) :
    FoundLate state := by
  have starting : Starting { set := start } := ⟨rfl, nofun⟩
  apply (loop.holds_program maxAttempts starting).keeps _ (by nofun) reached
  rintro before op answer next starts ⟨_, rfl⟩ found
  exact found.observe starts

/--
In every run no further attempt finds the flag set exactly when the flag did
not become true where nothing looks at it before the next attempt.
-/
theorem attempts_uncancelled_iff
    (loop : RetryLoop) (maxAttempts : Int) (start : Bool)
    {state : RetryState} {rest : Program retries Unit}
    (reached : retryWorld.Reaches
      ({ set := start }, loop.program maxAttempts) (state, rest)) :
    (∀ attempt ∈ state.further, attempt.cancelled = false) ↔
      ∀ attempt ∈ state.further, attempt.late = false := by
  have found := foundLate_of_reaches reached
  constructor
  · intro uncancelled attempt member
    rw [← found attempt member]
    exact uncancelled attempt member
  · intro timely attempt member
    rw [found attempt member]
    exact timely attempt member

/-! ## Two runs -/

/--
A server that is overloaded; every wait has one poll.  The flag becomes true
during the second request, or before, in the only sleep of the wait.
-/
def overloaded (inSleep : Bool) (state : RetryState) :
    (op : RetryOp) → retries.Answer op
  | .request =>
      ((.ok (.ok { status := 503 }, { parts := () })), state.started)
  | .load => (state.set, inSleep)
  | .jitter => leastJitter
  | .pollsBefore delay => (if delay = 0 then 0 else 1, false)
  | .progress _ => (.ok (), false)

theorem performs_overloaded (inSleep : Bool) (state : RetryState)
    (op : RetryOp) :
    retryWorld.perform state op (overloaded inSleep state op)
      (observe state ⟨op, overloaded inSleep state op⟩) := by
  refine ⟨?_, rfl⟩
  cases op with
  | load => rfl
  | pollsBefore delay => exact fun none => if_pos none
  | request => trivial
  | jitter => trivial
  | progress message => trivial

/-- Where a run against the overloaded server ends. -/
def overloadedEnd (loop : RetryLoop) (inSleep : Bool) : RetryState :=
  ((loop.program 3).played (overloaded inSleep) observe {}).1

theorem reaches_overloadedEnd (loop : RetryLoop) (inSleep : Bool) :
    retryWorld.Reaches ({}, loop.program 3)
      (overloadedEnd loop inSleep, .done ()) :=
  Program.reaches_played (performs_overloaded inSleep) _ _

theorem attempts_uncancelled_iff_request :
    (∀ attempt ∈ (overloadedEnd .plain false).further,
        attempt.cancelled = false) ↔
      ∀ attempt ∈ (overloadedEnd .plain false).further,
        attempt.late = false :=
  attempts_uncancelled_iff .plain 3 false (reaches_overloadedEnd .plain false)

/-- The flag becomes true in the last sleep, and the request is sent again. -/
theorem attempt_after_cancellation :
    ∃ state rest,
      retryWorld.Reaches ({}, RetryLoop.plain.program 3) (state, rest) ∧
      ∃ attempt ∈ state.further, attempt.cancelled = true := by
  refine ⟨_, _, reaches_overloadedEnd .plain true, ?_⟩
  decide +kernel

end ArnCore.Net.RetryCancellation
