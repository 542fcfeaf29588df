import ArnCore.Provider.SingleAttempt

/-!
# One answer from one attempt

The variables of a turn are shared by all attempts of `execute_stream_with_retry`,
while the status and the decoder belong to one attempt.  A finished turn is
divided into its attempts here.  An attempt that was followed by another one
did nothing but transfer an error, so that the last attempt finds the variables
as they were at the start and alone decides what the turn accumulates.
-/

namespace ArnCore.Provider.RetriedTurn

open ArnCore.Agent.Environment
open ArnCore.Interaction
open ArnCore.Net
open ArnCore.Provider.SingleAttempt
open ArnCore.Tool

/-- What the loop does outside its requests. -/
def AroundRequests (event : AgentEvent) : Prop :=
  IsPoll event ∨ (∃ message, event.op = .onProgress message) ∨
    event.op = .jitter ∨ ∃ delay, event.op = .pollsBefore delay

/-- The progress callback threw `failure`. -/
def ProgressThrew (failure : Exception) (events : List AgentEvent) : Prop :=
  ∃ event ∈ events, ∃ message,
    event =
      ⟨AgentOp.onProgress message, (.error failure : Except Exception Unit)⟩

/-- A transport error other than `Read`, or a retryable status without a hard quota. -/
def Transient (response : HttpResult) (errorBody : String) : Prop :=
  (∃ error, response = .error error ∧ error ≠ .read) ∨
    ∃ received, response = .ok received ∧
      received.status ∈ [429, 500, 502, 503, 504] ∧
      isHardQuotaResponse response errorBody = false

theorem ProgressThrew.of_append_left
    {failure : Exception} {first later : List AgentEvent}
    (threw : ProgressThrew failure first) :
    ProgressThrew failure (first ++ later) := by
  obtain ⟨event, member, message⟩ := threw
  exact ⟨event, List.mem_append_left _ member, message⟩

theorem ProgressThrew.of_append_right
    {failure : Exception} {first later : List AgentEvent}
    (threw : ProgressThrew failure later) :
    ProgressThrew failure (first ++ later) := by
  obtain ⟨event, member, message⟩ := threw
  exact ⟨event, List.mem_append_right _ member, message⟩

/-- One iteration of the loop: the notice, the request and what follows it. -/
structure Attempt where
  notice : List AgentEvent
  request : List AgentEvent
  response : HttpResult
  streaming : Streaming TurnParts
  decision : List AgentEvent

/-- The events of an iteration. -/
def Attempt.events (attempt : Attempt) : List AgentEvent :=
  attempt.notice ++ attempt.request ++ attempt.decision

/-! ## The decision -/

section Decision

variable {Locals : Type} {locals after : Locals} {history : List AgentEvent}

theorem finishes_notify {progress : Bool} {message : String}
    {outcome : Except Exception Unit}
    (run : Action.Finishes (notify (hostProgress progress) message) locals
      history outcome after) :
    after = locals ∧
      (∀ event ∈ history, ∃ message, event.op = .onProgress message) ∧
      ∀ failure, outcome = .error failure → ProgressThrew failure history := by
  cases progress with
  | false =>
      obtain ⟨rfl, rfl, rfl⟩ := Action.finishes_pure.mp run
      exact ⟨rfl, by simp, by simp⟩
  | true =>
      obtain ⟨⟨answer, later, rfl, rfl, rfl⟩, rfl⟩ :=
        Action.finishes_ofHost.mp run
      refine ⟨rfl, ?_, ?_⟩
      · intro event member
        cases List.mem_singleton.mp member
        exact ⟨message, rfl⟩
      · rintro failure rfl
        exact ⟨_, List.mem_singleton_self _, message, rfl⟩

/-- A notice that is given under a condition. -/
theorem finishes_notify_if {progress : Bool} {message : String}
    {condition : Prop} [Decidable condition]
    {outcome : Except Exception Unit}
    (run : Action.Finishes
      (if condition then notify (hostProgress progress) message else pure ())
      locals history outcome after) :
    after = locals ∧
      (∀ event ∈ history, ∃ message, event.op = .onProgress message) ∧
      ∀ failure, outcome = .error failure → ProgressThrew failure history := by
  by_cases given : condition
  · rw [if_pos given] at run
    exact finishes_notify run
  · rw [if_neg given] at run
    obtain ⟨rfl, rfl, rfl⟩ := Action.finishes_pure.mp run
    exact ⟨rfl, by simp, by simp⟩

/-- What the decision to try again says about the attempt. -/
theorem transient_of_not_isFinal
    {Parts : Type} {stop : Bool} {streaming : Streaming Parts}
    {response : HttpResult} {attempt : Nat} {maxAttempts : Int}
    (more : isFinal stop streaming response attempt maxAttempts = false) :
    stop = false ∧ streaming.receivedEvent = false ∧
      Transient response streaming.errorBody := by
  simp only [isFinal, Bool.or_eq_false_iff, Bool.not_eq_false'] at more
  obtain ⟨⟨⟨⟨⟨stop, unreceived⟩, quota⟩, retry⟩, -⟩, read⟩ := more
  refine ⟨stop, unreceived, ?_⟩
  cases response with
  | error error =>
      left
      refine ⟨error, rfl, ?_⟩
      rintro rfl
      cases read
  | ok received =>
      right
      refine ⟨received, rfl, ?_, quota⟩
      simp only [shouldRetry, quota, Bool.and_false] at retry
      simpa [or_assoc] using retry

/-- A 2xx response neither passes nor names a quota. -/
theorem not_transient_of_success
    {response : HttpResponse} (success : isSuccess response.status = true)
    (errorBody : String) : ¬ Transient (.ok response) errorBody := by
  rintro (⟨error, impossible, -⟩ | ⟨received, same, retryable, -⟩)
  · cases impossible
  · cases same
    simp only [isSuccess, Bool.and_eq_true, decide_eq_true_eq] at success
    simp only [List.mem_cons, List.not_mem_nil, or_false] at retryable
    omega

theorem not_isHardQuotaResponse
    {response : HttpResponse} (success : isSuccess response.status = true)
    (errorBody : String) :
    isHardQuotaResponse (.ok response) errorBody = false := by
  have other : response.status ≠ 429 := by
    simp only [isSuccess, Bool.and_eq_true, decide_eq_true_eq] at success
    omega
  simp [isHardQuotaResponse, other]

/-- The loop ends with the response, and says so where a quota is exhausted. -/
theorem finishes_final
    {progress : Bool} {response : HttpResult} {errorBody message : String}
    {outcome : Except Exception HttpResult}
    (run : Action.Finishes
      (do
        (if isHardQuotaResponse response errorBody then
          notify (hostProgress progress) message
        else
          pure ())
        pure response) locals history outcome after) :
    after = locals ∧
      (∀ event ∈ history, ∃ message, event.op = .onProgress message) ∧
      ((∃ failure, outcome = .error failure ∧
          ProgressThrew failure history) ∨ outcome = .ok response) ∧
      (isHardQuotaResponse response errorBody = false →
        history = [] ∧ outcome = .ok response) := by
  rcases Action.finishes_bind.mp run with
    ⟨failure, rfl, thrown⟩ |
    ⟨quota, later, value, between, rfl, informed, returned⟩
  · obtain ⟨rfl, messages, threw⟩ := finishes_notify_if thrown
    refine ⟨rfl, messages, Or.inl ⟨failure, rfl, threw failure rfl⟩, ?_⟩
    intro quota
    rw [if_neg (Bool.eq_false_iff.mp quota)] at thrown
    obtain ⟨-, impossible, -⟩ := Action.finishes_pure.mp thrown
    cases impossible
  · obtain ⟨rfl, messages, -⟩ := finishes_notify_if informed
    obtain ⟨rfl, rfl, rfl⟩ := Action.finishes_pure.mp returned
    rw [List.append_nil]
    refine ⟨rfl, messages, Or.inr rfl, ?_⟩
    intro quota
    rw [if_neg (Bool.eq_false_iff.mp quota)] at informed
    exact ⟨(Action.finishes_pure.mp informed).1, rfl⟩

theorem finishes_retryDelay
    {response : HttpResult} {attempt : Nat}
    {outcome : Except Exception Nat}
    (run : Action.Finishes (retryDelay network response attempt) locals
      history outcome after) :
    after = locals ∧ (∃ delay, outcome = .ok delay) ∧
      ∀ event ∈ history, event.op = .jitter := by
  unfold retryDelay at run
  cases asked : retryAfterSeconds response with
  | some seconds =>
      rw [asked] at run
      obtain ⟨rfl, rfl, rfl⟩ := Action.finishes_pure.mp run
      exact ⟨rfl, ⟨_, rfl⟩, by simp⟩
  | none =>
      rw [asked] at run
      obtain ⟨jitter, later, rfl, summed⟩ := finishes_always_bind.mp run
      obtain ⟨rfl, rfl, rfl⟩ := Action.finishes_pure.mp summed
      exact ⟨rfl, ⟨_, rfl⟩, List.forall_mem_singleton.mpr rfl⟩

/-- The wait loads the flag until it is set. -/
theorem finishes_waitUntil
    {watch : Bool} {polls : Nat} {outcome : Except Exception Bool}
    (run : Action.Finishes (waitUntil (callerFlag watch) polls) locals history
      outcome after) :
    after = locals ∧ (∀ event ∈ history, IsPoll event) ∧
      ∃ cancelled, outcome = .ok cancelled ∧
        (cancelled = false → ∀ event ∈ history, ¬ FoundSet event) := by
  induction polls generalizing history with
  | zero =>
      obtain ⟨rfl, rfl, rfl⟩ := Action.finishes_pure.mp run
      exact ⟨rfl, by simp, false, rfl, by simp⟩
  | succ polls induction =>
      obtain ⟨first, later, stop, between, rfl, checked, continued⟩ :=
        finishes_isSet_bind.mp run
      obtain ⟨rfl, found, same, rfl⟩ := finishes_isSet checked
      cases same
      cases stop with
      | true =>
          obtain ⟨rfl, rfl, rfl⟩ := Action.finishes_pure.mp continued
          refine ⟨rfl, ?_, true, rfl, by simp⟩
          rw [List.append_nil]
          exact isPoll_of_check
      | false =>
          obtain ⟨rfl, polled, cancelled, rfl, clear⟩ := induction continued
          refine ⟨rfl, ?_, cancelled, rfl, ?_⟩
          · exact List.forall_mem_append.mpr ⟨isPoll_of_check, polled⟩
          · intro unset
            refine List.forall_mem_append.mpr ⟨?_, clear unset⟩
            exact not_foundSet_of_check

theorem around_of_isPoll
    (polled : ∀ event ∈ history, IsPoll event) :
    ∀ event ∈ history, AroundRequests event :=
  fun event member => Or.inl (polled event member)

theorem around_of_onProgress
    (shown : ∀ event ∈ history, ∃ message, event.op = .onProgress message) :
    ∀ event ∈ history, AroundRequests event :=
  fun event member => Or.inr (Or.inl (shown event member))

theorem not_foundSet_of_op
    {event : AgentEvent} (other : ¬ IsPoll event) : ¬ FoundSet event := by
  rintro rfl
  exact other rfl

/--
The back-off ends the turn, with an exception or with the response it had, or
it leads to the next attempt without having found the flag set.
-/
theorem finishes_backOff
    {progress watch : Bool} {response : HttpResult} {attempt : Nat}
    {notice : Nat → String} {outcome : Except Exception HttpResult}
    {next : Action agents Locals HttpResult}
    (run : Action.Finishes
      (do
        let delay ← retryDelay network response attempt
        notify (hostProgress progress) (notice delay)
        let polls ← Action.ofHost (network.pollsBefore delay)
        let cancelled ← waitUntil (callerFlag watch) polls
        if cancelled then pure response else next)
      locals history outcome after) :
    (((∃ failure, outcome = .error failure ∧ ProgressThrew failure history) ∨
        outcome = .ok response) ∧
      after = locals ∧ ∀ event ∈ history, AroundRequests event) ∨
    ∃ wait later, history = wait ++ later ∧
      (∀ event ∈ wait, AroundRequests event ∧ ¬ FoundSet event) ∧
      Action.Finishes next locals later outcome after := by
  rcases Action.finishes_bind.mp run with
    ⟨failure, -, thrown⟩ |
    ⟨jitter, rest, delay, between, rfl, delayed, noticed⟩
  · obtain ⟨-, ⟨delay, impossible⟩, -⟩ := finishes_retryDelay thrown
    cases impossible
  obtain ⟨rfl, -, drawn⟩ := finishes_retryDelay delayed
  have jitterAround : ∀ event ∈ jitter, AroundRequests event :=
    fun event member => Or.inr (Or.inr (Or.inl (drawn event member)))
  rcases Action.finishes_bind.mp noticed with
    ⟨failure, rfl, thrown⟩ |
    ⟨shown, rest, value, between, rfl, shows, polled⟩
  · obtain ⟨rfl, messages, threw⟩ := finishes_notify thrown
    exact Or.inl ⟨Or.inl ⟨failure, rfl, (threw failure rfl).of_append_right⟩,
      rfl, List.forall_mem_append.mpr
        ⟨jitterAround, around_of_onProgress messages⟩⟩
  obtain ⟨rfl, messages, -⟩ := finishes_notify shows
  obtain ⟨polls, rest, rfl, waited⟩ := finishes_always_bind.mp polled
  rcases Action.finishes_bind.mp waited with
    ⟨failure, -, thrown⟩ |
    ⟨loads, later, cancelled, between, rfl, waiting, decided⟩
  · obtain ⟨-, -, cancelled, impossible, -⟩ := finishes_waitUntil thrown
    cases impossible
  obtain ⟨rfl, loaded, found, same, clear⟩ := finishes_waitUntil waiting
  cases same
  have waitAround : ∀ event ∈
      jitter ++ (shown ++ ⟨AgentOp.pollsBefore delay, polls⟩ :: loads),
      AroundRequests event := by
    simp only [List.forall_mem_append, List.forall_mem_cons]
    exact ⟨jitterAround, around_of_onProgress messages,
      Or.inr (Or.inr (Or.inr ⟨delay, rfl⟩)), around_of_isPoll loaded⟩
  cases cancelled with
  | true =>
      obtain ⟨rfl, rfl, rfl⟩ := Action.finishes_pure.mp decided
      rw [List.append_nil]
      exact Or.inl ⟨Or.inr rfl, rfl, waitAround⟩
  | false =>
      refine Or.inr
        ⟨jitter ++ (shown ++ ⟨AgentOp.pollsBefore delay, polls⟩ :: loads),
          later, by simp, ?_, decided⟩
      intro event member
      refine ⟨waitAround event member, ?_⟩
      simp only [List.mem_append, List.mem_cons] at member
      rcases member with member | member | rfl | member
      · refine not_foundSet_of_op ?_
        rw [IsPoll, drawn event member]
        simp
      · obtain ⟨message, shown⟩ := messages event member
        refine not_foundSet_of_op ?_
        rw [IsPoll, shown]
        simp
      · refine not_foundSet_of_op ?_
        rw [IsPoll]
        simp
      · exact clear rfl event member

end Decision

/-! ## The loop -/

section Loop

variable (json : JsonText) (onEvent : String → Walk agents) (path : String)
  (headers : List (String × String)) (payload : Json) (watch : Bool)

/--
An attempt that was followed by another one: it received nothing but an error
that may pass, and the flag was clear whenever the loop looked at it.
-/
structure Retried (attempt : Attempt) : Prop where
  single : SingleRequest json onEvent path headers payload watch
    attempt.request (.ok attempt.response) attempt.streaming
  undelivered : ∃ request transfer polls,
    attempt.request = ⟨AgentOp.send request, transfer⟩ :: polls ∧
      Undelivered fresh polls attempt.streaming
  transient : Transient attempt.response attempt.streaming.errorBody
  around : ∀ event ∈ attempt.notice ++ attempt.decision,
    AroundRequests event
  checked : watch = true → ∃ later,
    attempt.decision = ⟨AgentOp.load .cancelled, false⟩ :: later
  clear : ∀ event ∈ attempt.decision, ¬ FoundSet event

/--
The end of a turn: its last attempt, whose response and variables are those of
the turn unless an exception of the attempt or of the progress callback ended
the turn before, in or after that attempt.
-/
def EndsWith (events : List AgentEvent)
    (outcome : Except Exception HttpResult)
    (after : Streaming TurnParts) : Prop :=
  ∃ notice request decision,
    events = notice ++ request ++ decision ∧
      (∀ event ∈ notice ++ decision, AroundRequests event) ∧
      match outcome with
      | .ok response =>
          SingleRequest json onEvent path headers payload watch request
            (.ok response) after
      | .error failure =>
          (request = [] ∨ ∃ response streaming,
            SingleRequest json onEvent path headers payload watch request
              (.ok response) streaming) ∧
            ProgressThrew failure (notice ++ decision) ∨
          ∃ streaming,
            SingleRequest json onEvent path headers payload watch request
              (.error failure) streaming

/--
What one pass of the loop comes to: an exception of its notice or of its
request, a response the turn ends with, or a response that is tried again.
-/
inductive Pass (progress : Bool) (maxAttempts : Int) (attempt : Nat)
    (after : Streaming TurnParts) :
    List AgentEvent → Except Exception HttpResult → Prop where
  | unannounced {notice : List AgentEvent} {failure : Exception}
      (around : ∀ event ∈ notice, AroundRequests event)
      (threw : ProgressThrew failure notice) :
      Pass progress maxAttempts attempt after notice (.error failure)
  | unanswered {notice request : List AgentEvent} {failure : Exception}
      {streaming : Streaming TurnParts}
      (noticed : ∀ event ∈ notice, AroundRequests event)
      (single : SingleRequest json onEvent path headers payload watch request
        (.error failure) streaming) :
      Pass progress maxAttempts attempt after (notice ++ request)
        (.error failure)
  | ends {notice request decision : List AgentEvent} {received : HttpResult}
      {stop : Bool} {outcome : Except Exception HttpResult}
      (noticed : ∀ event ∈ notice, AroundRequests event)
      (single : SingleRequest json onEvent path headers payload watch request
        (.ok received) after)
      (decided : ∀ event ∈ decision, AroundRequests event)
      (left : (∃ failure, outcome = .error failure ∧
        ProgressThrew failure decision) ∨ outcome = .ok received)
      (settled : ∀ response, received = .ok response →
        isSuccess response.status = true →
          decision = [] ∧ outcome = .ok received) :
      Pass progress maxAttempts attempt after
        (notice ++ (request ++
          ((if watch then [⟨AgentOp.load .cancelled, stop⟩] else []) ++
            decision))) outcome
  | again {notice request wait later : List AgentEvent}
      {received : HttpResult} {between : Streaming TurnParts}
      {outcome : Except Exception HttpResult}
      (noticed : ∀ event ∈ notice, AroundRequests event)
      (single : SingleRequest json onEvent path headers payload watch request
        (.ok received) between)
      (unreceived : between.receivedEvent = false)
      (transient : Transient received between.errorBody)
      (waited : ∀ event ∈ wait, AroundRequests event ∧ ¬ FoundSet event)
      (more : (attempt : Int) + 1 < maxAttempts)
      (continued : Action.Finishes
        (executeStreamWithRetry network (callerFlag watch)
          (attemptRequest json onEvent path headers payload watch)
          (hostProgress progress) maxAttempts (attempt + 1))
        between later outcome after) :
      Pass progress maxAttempts attempt after
        (notice ++ (request ++
          ((if watch then [⟨AgentOp.load .cancelled, false⟩] else []) ++
            (wait ++ later)))) outcome

variable {json onEvent path headers payload watch}
  {before after : Streaming TurnParts} {history : List AgentEvent}
  {outcome : Except Exception HttpResult}

theorem EndsWith.of_notice
    {failure : Exception}
    (around : ∀ event ∈ history, AroundRequests event)
    (threw : ProgressThrew failure history) :
    EndsWith json onEvent path headers payload watch history
      (.error failure) after := by
  refine ⟨history, [], [], by simp, ?_,
    Or.inl ⟨Or.inl rfl, threw.of_append_left⟩⟩
  rw [List.append_nil]
  exact around

/-- The turn ended behind an attempt that returned. -/
theorem EndsWith.of_request
    {notice request decision : List AgentEvent} {response : HttpResult}
    {streaming : Streaming TurnParts}
    (single : SingleRequest json onEvent path headers payload watch request
      (.ok response) streaming)
    (noticed : ∀ event ∈ notice, AroundRequests event)
    (decided : ∀ event ∈ decision, AroundRequests event)
    (left : (∃ failure, outcome = .error failure ∧
      ProgressThrew failure decision) ∨ outcome = .ok response)
    (unchanged : after = streaming) :
    EndsWith json onEvent path headers payload watch
      (notice ++ (request ++ decision)) outcome after := by
  refine ⟨notice, request, decision, (List.append_assoc ..).symm,
    List.forall_mem_append.mpr ⟨noticed, decided⟩, ?_⟩
  subst unchanged
  rcases left with ⟨failure, rfl, threw⟩ | rfl
  · exact Or.inl ⟨Or.inr ⟨_, _, single⟩, threw.of_append_right⟩
  · exact single

/-- One pass of the loop from untouched variables. -/
theorem pass_of_finishes
    {progress : Bool} {maxAttempts : Int} {attempt : Nat}
    (parts : before.parts = {}) (unreceived : before.receivedEvent = false)
    (run : Action.Finishes
      (executeStreamWithRetry network (callerFlag watch)
        (attemptRequest json onEvent path headers payload watch)
        (hostProgress progress) maxAttempts attempt)
      before history outcome after) :
    Pass json onEvent path headers payload watch progress maxAttempts attempt
      after history outcome := by
  rw [executeStreamWithRetry] at run
  rcases Action.finishes_bind.mp run with
    ⟨failure, rfl, thrown⟩ |
    ⟨notice, rest, value, between, rfl, noticed, requested⟩
  · obtain ⟨-, messages, threw⟩ := finishes_notify thrown
    exact .unannounced (around_of_onProgress messages) (threw failure rfl)
  obtain ⟨rfl, messages, -⟩ := finishes_notify noticed
  have noticeAround := around_of_onProgress messages
  rcases Action.finishes_bind.mp requested with
    ⟨failure, rfl, thrown⟩ |
    ⟨request, rest, received, streaming, rfl, responded, continued⟩
  · obtain ⟨streaming, single, -⟩ :=
      singleRequest_of_finishes parts unreceived thrown
    exact .unanswered noticeAround single
  obtain ⟨_, single, same⟩ :=
    singleRequest_of_finishes parts unreceived responded
  obtain rfl := same received rfl
  obtain ⟨check, rest, stop, between, rfl, checked, decided⟩ :=
    finishes_isSet_bind.mp (Action.finishes_get_bind.mp continued)
  obtain ⟨rfl, found, same, rfl⟩ := finishes_isSet checked
  cases same
  by_cases final :
      isFinal stop between received attempt maxAttempts = true
  · rw [dif_pos final] at decided
    obtain ⟨rfl, messages, left, settled⟩ := finishes_final decided
    refine .ends noticeAround single (around_of_onProgress messages) left ?_
    rintro response rfl success
    exact settled (not_isHardQuotaResponse success _)
  · rw [dif_neg final] at decided
    obtain ⟨rfl, unreceived, transient⟩ :=
      transient_of_not_isFinal (Bool.eq_false_iff.mpr final)
    rcases finishes_backOff decided with
      ⟨left, rfl, around⟩ | ⟨wait, later, rfl, waited, again⟩
    · refine .ends noticeAround single around left ?_
      rintro response rfl success
      exact absurd transient (not_transient_of_success success _)
    · exact .again noticeAround single unreceived transient waited
        (attempt_lt_of_not_isFinal (Bool.eq_false_iff.mpr final)) again

/-- One pass of the loop ends the turn or was retried. -/
theorem finishes_iteration
    {progress : Bool} {maxAttempts : Int} {attempt : Nat}
    (parts : before.parts = {}) (unreceived : before.receivedEvent = false)
    (run : Action.Finishes
      (executeStreamWithRetry network (callerFlag watch)
        (attemptRequest json onEvent path headers payload watch)
        (hostProgress progress) maxAttempts attempt)
      before history outcome after) :
    EndsWith json onEvent path headers payload watch history outcome after ∨
    ∃ (earlier : Attempt) (later : List AgentEvent),
      history = earlier.events ++ later ∧
        Retried json onEvent path headers payload watch earlier ∧
        earlier.streaming.parts = {} ∧
        earlier.streaming.receivedEvent = false ∧
        (attempt : Int) + 1 < maxAttempts ∧
        Action.Finishes
          (executeStreamWithRetry network (callerFlag watch)
            (attemptRequest json onEvent path headers payload watch)
            (hostProgress progress) maxAttempts (attempt + 1))
          earlier.streaming later outcome after := by
  cases pass_of_finishes parts unreceived run with
  | unannounced around threw => exact Or.inl (.of_notice around threw)
  | @unanswered notice request failure streaming noticed single =>
      refine Or.inl ⟨notice, request, [], by simp, ?_,
        Or.inr ⟨streaming, single⟩⟩
      rw [List.append_nil]
      exact noticed
  | ends noticed single decided left settled =>
      refine Or.inl (.of_request single noticed
        (List.forall_mem_append.mpr
          ⟨around_of_isPoll isPoll_of_check, decided⟩) ?_ rfl)
      rcases left with ⟨failure, thrown, threw⟩ | same
      · exact Or.inl ⟨failure, thrown, threw.of_append_right⟩
      · exact Or.inr same
  | @again notice request wait later received between _ noticed single
      unreceived transient waited more continued =>
      have undelivered := single.undelivered_of_unreceived unreceived
      refine Or.inr ⟨⟨notice, request, received, between,
        (if watch then [⟨AgentOp.load .cancelled, false⟩] else []) ++ wait⟩,
        later, ?_,
        { single := single
          undelivered := undelivered
          transient := transient
          around := List.forall_mem_append.mpr
            ⟨noticed, List.forall_mem_append.mpr
              ⟨around_of_isPoll isPoll_of_check,
                fun event member => (waited event member).1⟩⟩
          checked := ?_
          clear := List.forall_mem_append.mpr
            ⟨not_foundSet_of_check,
              fun event member => (waited event member).2⟩ },
        ?_, unreceived, more, continued⟩
      · simp only [Attempt.events, List.append_assoc]
      · intro watched
        subst watched
        exact ⟨wait, rfl⟩
      · obtain ⟨sent, transfer, polls, -, quiet⟩ := undelivered
        exact quiet.parts

/--
Every finished run of the loop from untouched variables is a sequence of
retried attempts and a last one.
-/
theorem finishes_executeStreamWithRetry
    {progress : Bool} {maxAttempts : Int} {attempt : Nat}
    (parts : before.parts = {}) (unreceived : before.receivedEvent = false)
    (run : Action.Finishes
      (executeStreamWithRetry network (callerFlag watch)
        (attemptRequest json onEvent path headers payload watch)
        (hostProgress progress) maxAttempts attempt)
      before history outcome after) :
    ∃ (retried : List Attempt) (last : List AgentEvent),
      history = (retried.map Attempt.events).flatten ++ last ∧
        (attempt : Int) + retried.length + 1 ≤
          max ((attempt : Int) + 1) maxAttempts ∧
        (∀ earlier ∈ retried,
          Retried json onEvent path headers payload watch earlier) ∧
        EndsWith json onEvent path headers payload watch last outcome
          after := by
  induction remaining : (maxAttempts - attempt).toNat
    using Nat.strong_induction_on generalizing attempt before history with
  | _ remaining induction =>
      rcases finishes_iteration parts unreceived run with
        ends | ⟨earlier, later, rfl, retried, parts, unreceived, more, again⟩
      · refine ⟨[], history, rfl, ?_, by simp, ends⟩
        rw [List.length_nil]
        omega
      · obtain ⟨others, last, rfl, bound, eachRetried, ends⟩ :=
          induction _ (by omega) parts unreceived again rfl
        refine ⟨earlier :: others, last, by simp, ?_, ?_, ends⟩
        · rw [List.length_cons]
          push_cast at bound ⊢
          omega
        · exact List.forall_mem_cons.mpr ⟨retried, eachRetried⟩

/-- The end of the streaming part of a turn. -/
def TurnEnds (json : JsonText) (onEvent : String → Walk agents)
    (path : String) (headers : List (String × String)) (payload : Json)
    (watch : Bool) (events : List AgentEvent) :
    Except Exception (HttpResult × Streaming TurnParts) → Prop
  | .ok (response, streaming) =>
      EndsWith json onEvent path headers payload watch events (.ok response)
        streaming
  | .error failure =>
      ∃ streaming,
        EndsWith json onEvent path headers payload watch events
          (.error failure) streaming

/-- The division of the streaming part of a turn into its attempts. -/
theorem finishes_streamTurn
    {Locals : Type} {locals left : Locals}
    {text progress : Bool} {maxAttempts : Int}
    {outcome : Except Exception (HttpResult × Streaming TurnParts)}
    (run : Action.Finishes (streamTurn network
      (attemptRequest json onEvent path headers payload watch)
      (hostCallbacks text progress) (callerFlag watch) maxAttempts)
      locals history outcome left) :
    ∃ (retried : List Attempt) (last : List AgentEvent),
      history = (retried.map Attempt.events).flatten ++ last ∧
        (retried.length : Int) + 1 ≤ max 1 maxAttempts ∧
        (∀ earlier ∈ retried,
          Retried json onEvent path headers payload watch earlier) ∧
        TurnEnds json onEvent path headers payload watch last outcome := by
  obtain ⟨-, final, streamed⟩ := Action.finishes_withLocals.mp run
  rcases Action.finishes_bind.mp streamed with
    ⟨failure, rfl, thrown⟩ |
    ⟨events, rest, response, streaming, rfl, looped, returned⟩
  · obtain ⟨retried, last, split, bound, eachRetried, ends⟩ :=
      finishes_executeStreamWithRetry rfl rfl thrown
    refine ⟨retried, last, split, ?_, eachRetried, final, ends⟩
    simpa using bound
  · have read := Action.finishes_get_bind.mp returned
    obtain ⟨rfl, rfl, rfl⟩ := Action.finishes_pure.mp read
    obtain ⟨retried, last, split, bound, eachRetried, ends⟩ :=
      finishes_executeStreamWithRetry rfl rfl looped
    refine ⟨retried, last, ?_, ?_, eachRetried, ends⟩
    · rw [List.append_nil]
      exact split
    · simpa using bound

/--
A streamed answer is delivered from one attempt only.

The history of a turn consists of retried attempts and a last one, at most
`max 1 maxAttempts` together.  A retried attempt sent one request, handed
nothing to the event callback and left the variables fresh but for the error
body; its response was an error that may pass, and no look at the flag found
it set.  The last attempt is a run on fresh variables whose response, parts and
error body are those of the turn.  An attempt hands events to the callback only
when its status is 2xx.
-/
theorem answer_comes_from_last_attempt
    {Locals : Type} {locals left : Locals}
    {text progress : Bool} {maxAttempts : Int}
    {outcome : Except Exception (HttpResult × Streaming TurnParts)}
    (run : ((streamTurn network
      (attemptRequest json onEvent path headers payload watch)
      (hostCallbacks text progress) (callerFlag watch) maxAttempts).run.run
        locals).Runs history (.done (outcome, left))) :
    ∃ (retried : List Attempt) (last : List AgentEvent),
      history = (retried.map Attempt.events).flatten ++ last ∧
        (retried.length : Int) + 1 ≤ max 1 maxAttempts ∧
        (∀ earlier ∈ retried,
          Retried json onEvent path headers payload watch earlier) ∧
        TurnEnds json onEvent path headers payload watch last outcome :=
  finishes_streamTurn (Program.runs_done_iff.mp run)

end Loop

/-- A callback that makes its calls visible before it parses the event. -/
def reported (parse : String → Walk agents) (data : String) :
    Walk agents := do
  Action.ofHost (always (.deliverEvent data))
  parse data

/-- A provider that is unavailable once and then closes the stream. -/
def unavailableOnce : List AgentEvent → (op : AgentOp) → agents.Answer op
  | [], .send _ =>
      Transfer.complete { status := 503, body := "busy" }
        [.chunk "busy".toList]
  | _ :: _, .send _ =>
      Transfer.complete { status := 200 }
        [.chunk "data: [DO".toList, .chunk "NE]\n\n".toList]
  | _, op => quiet op

/-- A text library that knows the empty object. -/
def emptyDocument : JsonText :=
  .knowing [⟨"\x7b\x7d", .object [], Json.compact_object_nil⟩]

/-- A turn of two attempts, run against `unavailableOnce`. -/
def retriedRun : List AgentEvent ×
    (Except Exception (HttpResult × Streaming TurnParts) × Unit) :=
  Program.scripted unavailableOnce
    ((streamTurn network
      (attemptRequest emptyDocument
        (reported (parseDeepseekStreamChunk emptyDocument none))
        "/chat/completions" [] (.object []) true)
      (hostCallbacks false false) (callerFlag true) 3).run.run ())
    []

/-- The division of a turn whose first attempt was answered by a 503. -/
theorem answer_comes_from_last_attempt_unavailable :
    ∃ (retried : List Attempt) (last : List AgentEvent),
      retriedRun.1 = (retried.map Attempt.events).flatten ++ last ∧
        (retried.length : Int) + 1 ≤ max 1 3 ∧
        (∀ earlier ∈ retried,
          Retried emptyDocument
            (reported (parseDeepseekStreamChunk emptyDocument none))
            "/chat/completions" [] (.object []) true earlier) ∧
        TurnEnds emptyDocument
          (reported (parseDeepseekStreamChunk emptyDocument none))
          "/chat/completions" [] (.object []) true last retriedRun.2.1 :=
  answer_comes_from_last_attempt (Program.runs_scripted_pair unavailableOnce _)

example :
    (retriedRun.1.map fun event =>
      match event.op with
      | .send _ => "send"
      | .deliverEvent data => data
      | .load _ => "load"
      | _ => "other") =
      ["send", "load", "load", "other", "other", "send", "load", "load",
        "[DONE]", "load"] := by
  decide +kernel

end ArnCore.Provider.RetriedTurn
