import ArnCore.Net.SseDecoder
import ArnCore.Provider.ModelProvider

/-!
# Streaming requests and their retries

`stream_post` sends one request and feeds the body of a successful response
through a decoder of its own; `execute_stream_with_retry` repeats it.  What the
server and the network do to one request is a script, the transfer: when it
fails, which chunks arrive, and when the library polls for progress.  Clocks,
random jitter and the transfer come from the transport.
-/

namespace ArnCore.Net

open ArnCore.Framing
open ArnCore.Interaction
open ArnCore.Provider
open ArnCore.Tool

/-! ## Requests and responses -/

/-- A request; its payload is kept next to the text that is sent. -/
structure HttpRequest where
  path : String
  headers : List (String × String)
  payload : Json
  body : String

/-- The parts of a response that are read. -/
structure HttpResponse where
  status : Int
  body : String := ""
  retryAfter : Option String := none
deriving DecidableEq, Repr

/-- Transport errors; only these two are ever distinguished. -/
inductive HttpError where
  | read
  | canceled
  | other (code : Nat)
deriving DecidableEq, Repr

/-- `httplib::Result` -/
abbrev HttpResult := Except HttpError HttpResponse

/-- What the library does while it receives a body. -/
inductive TransferStep where
  | progress
  | chunk (data : List Char)
deriving DecidableEq, Repr

/-- The fate of one request. -/
inductive Transfer where
  | failed (error : HttpError)
  | broken (status : Int) (steps : List TransferStep) (error : HttpError)
  | complete (response : HttpResponse) (steps : List TransferStep)
deriving DecidableEq, Repr

/-- `status >= 200 && status < 300` -/
def isSuccess (status : Int) : Bool :=
  200 ≤ status && status < 300

/-! ## Classification -/

def hardQuotaMarkers : List String :=
  ["exceeded your current quota",
    "quota exhausted",
    "billing account",
    "billing required",
    "insufficient_quota",
    "limit: 0"]

/-- `detail.find(marker) != std::string::npos` -/
def containsText (detail marker : String) : Bool :=
  (cut? marker.toList detail.toList).isSome

/-- `is_hard_quota_response` -/
def isHardQuotaResponse (response : HttpResult) (errorBody : String) : Bool :=
  match response with
  | .error _ => false
  | .ok response =>
      if response.status ≠ 429 then
        false
      else
        let detail :=
          (if errorBody = "" then response.body else errorBody).map
            Char.toLower
        hardQuotaMarkers.any (containsText detail)

/-- `should_retry` -/
def shouldRetry (response : HttpResult) (errorBody : String) : Bool :=
  match response with
  | .error _ => true
  | .ok received =>
      if received.status = 429 && isHardQuotaResponse response errorBody then
        false
      else
        received.status = 429 || received.status = 500 ||
          received.status = 502 || received.status = 503 ||
          received.status = 504

/-- `!response && response.error() == httplib::Error::Read` -/
def isReadError : HttpResult → Bool
  | .error .read => true
  | _ => false

/-! ## Delays -/

/-- The digits at the start of a text as a number; `none` without a digit. -/
def leadingNumber (text : List Char) : Option Nat :=
  match text.takeWhile Char.isDigit with
  | [] => none
  | digits =>
      some (digits.foldl
        (fun number digit => number * 10 + (digit.toNat - '0'.toNat)) 0)

/-- `std::stoi`; `none` where it throws. -/
def stoi (text : String) : Option Int :=
  let trimmed := text.toList.dropWhile fun character =>
    character ∈ [' ', '\t', '\n', '\x0b', '\x0c', '\r']
  let number : Option Int :=
    match trimmed with
    | '-' :: rest => (leadingNumber rest).map fun number => -(number : Int)
    | '+' :: rest => (leadingNumber rest).map fun number => (number : Int)
    | rest => (leadingNumber rest).map fun number => (number : Int)
  number.filter fun number => -(2 ^ 31) ≤ number && number ≤ 2 ^ 31 - 1

/-- The seconds of a `Retry-After` header that is honoured. -/
def retryAfterSeconds (response : HttpResult) : Option Nat :=
  match response with
  | .error _ => none
  | .ok response =>
      (response.retryAfter.bind stoi).bind fun seconds =>
        if 0 ≤ seconds ∧ seconds ≤ 60 then some seconds.toNat else none

/-- A value of `int`; `none` where an operation overflows. -/
def int? (value : Int) : Option Int :=
  if -(2 ^ 31) ≤ value ∧ value ≤ 2 ^ 31 - 1 then some value else none

/-- `1 << count`; `none` where the count is out of range. -/
def shiftOne? (count : Nat) : Option Int :=
  if count < 32 then some ((2 ^ count : Int).bmod (2 ^ 32)) else none

/-- `base_ms`; `none` where its arithmetic is undefined. -/
def baseMs? (attempt : Nat) : Option Int :=
  (shiftOne? attempt).bind fun shifted => int? (500 * shifted)

/-- `base_ms + jitter` -/
def backOffMs? (attempt : Nat) (jitter : Fin 251) : Option Int :=
  (baseMs? attempt).bind fun base => int? (base + (jitter : Nat))

/-- The smallest jitter. -/
def leastJitter : Fin 251 := 0

/-- What a request needs from the network and from the clock. -/
structure Transport (signature : Signature) where
  send : HttpRequest → Host signature Transfer
  jitter : Host signature (Fin 251)
  /-- How often the flag is polled before a deadline this many ms ahead. -/
  pollsBefore : Nat → Host signature Nat
  /-- `stop()`: the request in flight sees it as its transfer. -/
  stop : Host signature Unit

section Requests

variable {signature : Signature} {Locals Parts : Type}
  (transport : Transport signature)

/--
`retry_delay`, in milliseconds.  Where the arithmetic of `int` is undefined the
model goes on with the number that was meant.
-/
def retryDelay (response : HttpResult) (attempt : Nat) :
    Action signature Locals Nat :=
  match retryAfterSeconds response with
  | some seconds => pure (seconds * 1000)
  | none => do
      let jitter ← Action.ofHost transport.jitter
      pure (match backOffMs? attempt jitter with
        | some delay => delay.toNat
        | none => 500 * 2 ^ attempt + jitter)

/-! ## One attempt -/

/--
The variables of a turn that outlive an attempt: what the parser of the turn
has accumulated, the error body and whether an event was delivered.
-/
structure Streaming (Parts : Type) where
  parts : Parts
  errorBody : String := ""
  receivedEvent : Bool := false

/-- An action of the parser, on what it accumulates. -/
def onParts {Value : Type} (action : Action signature Parts Value) :
    Action signature (Streaming Parts) Value :=
  ExceptT.mk fun streaming => do
    let (outcome, parts) ← action.run.run streaming.parts
    pure (outcome, { streaming with parts := parts })

theorem holds_onParts {Value State : Type} {world : World signature State}
    {allowed : State → signature.Op → Prop}
    {post : Except Exception Value → Streaming Parts → State → Prop}
    {action : Action signature Parts Value}
    {streaming : Streaming Parts} {state : State} :
    Action.Holds world allowed post (onParts action) streaming state ↔
      Action.Holds world allowed
        (fun outcome parts after =>
          post outcome { streaming with parts := parts } after)
        action streaming.parts state :=
  Program.Holds.bind_iff

variable (onEvent : String → Action signature Parts Unit)
  (cancel : CancelFlag signature)

/-- Hand decoded events to the callback. -/
def deliver : List (List Char) → Action signature (Streaming Parts) Unit
  | [] => pure ()
  | event :: events => do
      modify fun streaming => { streaming with receivedEvent := true }
      onParts (onEvent (String.ofList event))
      deliver events

/-- Events are handed over one after the other. -/
theorem deliver_append (first second : List (List Char)) :
    deliver onEvent (first ++ second) =
      (do
        deliver onEvent first
        deliver onEvent second) := by
  induction first with
  | nil => simp [deliver]
  | cons event events induction =>
      rw [List.cons_append, deliver, deliver, induction]
      simp

/--
The callbacks `progress` and `content_receiver` of one response, with the
buffer of its decoder; `none` when one of them stops the transfer.
-/
def receive (status : Int) : List TransferStep → List Char →
    Action signature (Streaming Parts) (Option (List Char))
  | [], pending => pure (some pending)
  | .progress :: steps, pending => do
      let stop ← isSet cancel
      if stop then
        pure none
      else
        receive status steps pending
  | .chunk data :: steps, pending => do
      let stop ← isSet cancel
      if stop then
        pure none
      else if isSuccess status then do
        let pushed := SseDecoder.push pending data
        deliver onEvent pushed.1
        receive status steps pushed.2
      else do
        modify fun streaming =>
          { streaming with
            errorBody := streaming.errorBody ++ String.ofList data }
        receive status steps pending

/-- What `stream_post` makes of one transfer. -/
def absorb : Transfer → Action signature (Streaming Parts) HttpResult
  | .failed error => pure (.error error)
  | .broken status steps error => do
      let received ← receive onEvent cancel status steps []
      match received with
      | none => pure (.error .canceled)
      | some _ => pure (.error error)
  | .complete response steps => do
      let received ← receive onEvent cancel response.status steps []
      match received with
      | none => pure (.error .canceled)
      | some pending => do
          (if isSuccess response.status then
            deliver onEvent (SseDecoder.finish pending).1
          else
            pure ())
          pure (.ok response)

section Safety

variable {State : Type} {world : World signature State}
  {allowed : State → signature.Op → Prop}
  {onEvent : String → Action signature Parts Unit}
  {cancel : CancelFlag signature}

theorem safe_onParts {Value : Type} {action : Action signature Parts Value}
    (acts : Action.Safe world allowed action) :
    Action.Safe world allowed (onParts action) := by
  intro streaming state
  apply holds_onParts.mpr
  exact acts streaming.parts state

theorem safe_deliver
    (parses : ∀ event, Action.Safe world allowed (onEvent event))
    (events : List (List Char)) :
    Action.Safe world allowed (deliver onEvent events) := by
  induction events with
  | nil => exact .pure ()
  | cons event events induction =>
      exact .bind (.modify _) fun _ =>
        .bind (safe_onParts (parses _)) fun _ => induction

theorem safe_receive
    (parses : ∀ event, Action.Safe world allowed (onEvent event))
    (polls : Action.Safe world allowed
      (isSet cancel : Action signature (Streaming Parts) Bool))
    (status : Int) (steps : List TransferStep) (pending : List Char) :
    Action.Safe world allowed
      (receive onEvent cancel status steps pending) := by
  induction steps generalizing pending with
  | nil => exact .pure _
  | cons step steps induction =>
      cases step with
      | progress =>
          refine .bind polls fun stop => ?_
          cases stop with
          | true => exact .pure _
          | false => exact induction pending
      | chunk data =>
          refine .bind polls fun stop => ?_
          cases stop with
          | true => exact .pure _
          | false =>
              cases success : isSuccess status with
              | true =>
                  exact .bind (safe_deliver parses _) fun _ => induction _
              | false => exact .bind (.modify _) fun _ => induction pending

/-- A transfer is absorbed by the event callback and polls of the flag. -/
theorem safe_absorb
    (parses : ∀ event, Action.Safe world allowed (onEvent event))
    (polls : Action.Safe world allowed
      (isSet cancel : Action signature (Streaming Parts) Bool))
    (transfer : Transfer) :
    Action.Safe world allowed (absorb onEvent cancel transfer) := by
  cases transfer with
  | failed error => exact .pure _
  | broken status steps error =>
      refine .bind (safe_receive parses polls status steps []) fun received =>
        ?_
      cases received with
      | none => exact .pure _
      | some pending => exact .pure _
  | complete response steps =>
      refine .bind (safe_receive parses polls response.status steps [])
        fun received => ?_
      cases received with
      | none => exact .pure _
      | some pending =>
          refine .bind ?_ fun _ => .pure _
          cases isSuccess response.status with
          | true => exact safe_deliver parses _
          | false => exact .pure _

end Safety

/-- `stream_post` -/
def streamPost (path : String) (headers : List (String × String))
    (payload : Json) (body : String) :
    Action signature (Streaming Parts) HttpResult := do
  modify fun streaming => { streaming with errorBody := "" }
  let transfer ← Action.ofHost (transport.send
    { path := path
      headers := headers ++
        [("Accept", "text/event-stream"), ("Content-Type", "application/json")]
      payload := payload
      body := body })
  absorb onEvent cancel transfer

/-! ## Retries -/

/-- The waiting loop: whether the flag was set at one of its polls. -/
def waitUntil : Nat → Action signature Locals Bool
  | 0 => pure false
  | polls + 1 => do
      let stop ← isSet cancel
      if stop then
        pure true
      else
        waitUntil polls

/-- The delay as it is shown. -/
def delayText (delay : Nat) : String :=
  if delay % 1000 = 0 then
    toString (delay / 1000) ++ "s"
  else
    toString delay ++ "ms"

/-- The notice before a retry. -/
def retryNotice (response : HttpResult) (delay attempt : Nat)
    (maxAttempts : Int) : String :=
  let reason :=
    match response with
    | .ok received =>
        if received.status = 429 then "Rate limited by provider"
        else "Provider temporarily unavailable"
    | .error _ => "Provider temporarily unavailable"
  reason ++ "; retrying in " ++ delayText delay ++ " (attempt "
    ++ toString (attempt + 2) ++ "/" ++ toString maxAttempts ++ ")"

/-- The condition under which the response of an attempt is returned. -/
def isFinal (stop : Bool) (streaming : Streaming Parts)
    (response : HttpResult) (attempt : Nat) (maxAttempts : Int) : Bool :=
  stop || streaming.receivedEvent ||
    isHardQuotaResponse response streaming.errorBody ||
    !shouldRetry response streaming.errorBody ||
    (attempt : Int) + 1 ≥ maxAttempts || isReadError response

theorem attempt_lt_of_not_isFinal
    {stop : Bool} {streaming : Streaming Parts} {response : HttpResult}
    {attempt : Nat} {maxAttempts : Int}
    (more : isFinal stop streaming response attempt maxAttempts = false) :
    (attempt : Int) + 1 < maxAttempts := by
  simp only [isFinal, Bool.or_eq_false_iff, decide_eq_false_iff_not] at more
  omega

/-- `execute_stream_with_retry`, from a given attempt on. -/
def executeStreamWithRetry
    (request : Action signature (Streaming Parts) HttpResult)
    (onProgress : Option (String → Host signature Unit))
    (maxAttempts : Int) (attempt : Nat) :
    Action signature (Streaming Parts) HttpResult := do
  notify onProgress
    ("Waiting for provider response (attempt " ++ toString (attempt + 1)
      ++ ")")
  let response ← request
  let streaming ← get
  let stop ← isSet cancel
  if final : isFinal stop streaming response attempt maxAttempts then do
    (if isHardQuotaResponse response streaming.errorBody then
      notify onProgress
        "Provider quota is exhausted; this request will not be retried"
    else
      pure ())
    pure response
  else do
    let delay ← retryDelay transport response attempt
    notify onProgress (retryNotice response delay attempt maxAttempts)
    let polls ← Action.ofHost (transport.pollsBefore delay)
    let cancelled ← waitUntil cancel polls
    if cancelled then
      pure response
    else
      executeStreamWithRetry request onProgress maxAttempts (attempt + 1)
termination_by (maxAttempts - attempt).toNat
decreasing_by
  have more := attempt_lt_of_not_isFinal (Bool.eq_false_iff.mpr final)
  omega

section RetrySafety

variable {State : Type} {world : World signature State}
  {allowed : State → signature.Op → Prop} {transport : Transport signature}
  {cancel : CancelFlag signature}

theorem safe_waitUntil
    (polls : Action.Safe world allowed
      (isSet cancel : Action signature Locals Bool)) (remaining : Nat) :
    Action.Safe world allowed
      (waitUntil cancel remaining : Action signature Locals Bool) := by
  induction remaining with
  | zero => exact .pure _
  | succ remaining induction =>
      refine .bind polls fun stop => ?_
      cases stop with
      | true => exact .pure _
      | false => exact induction

theorem safe_retryDelay
    (draws : Action.Safe world allowed
      (Action.ofHost transport.jitter : Action signature Locals _))
    (response : HttpResult) (attempt : Nat) :
    Action.Safe world allowed
      (retryDelay transport response attempt :
        Action signature Locals Nat) := by
  unfold retryDelay
  cases retryAfterSeconds response with
  | some seconds => exact .pure _
  | none => exact .bind draws fun jitter => .pure _

/-- The loop does nothing but its requests, notices, polls and waits. -/
theorem safe_executeStreamWithRetry
    {request : Action signature (Streaming Parts) HttpResult}
    {onProgress : Option (String → Host signature Unit)}
    (requests : Action.Safe world allowed request)
    (informs : ∀ message, Action.Safe world allowed
      (notify onProgress message : Action signature (Streaming Parts) Unit))
    (polls : Action.Safe world allowed
      (isSet cancel : Action signature (Streaming Parts) Bool))
    (draws : Action.Safe world allowed
      (Action.ofHost transport.jitter :
        Action signature (Streaming Parts) _))
    (waits : ∀ delay, Action.Safe world allowed
      (Action.ofHost (transport.pollsBefore delay) :
        Action signature (Streaming Parts) _))
    (maxAttempts : Int) (attempt : Nat) :
    Action.Safe world allowed
      (executeStreamWithRetry transport cancel request onProgress maxAttempts
        attempt) := by
  induction remaining : (maxAttempts - attempt).toNat
    using Nat.strong_induction_on generalizing attempt with
  | _ remaining induction =>
      rw [executeStreamWithRetry]
      refine .bind (informs _) fun _ => .bind requests fun response =>
        .bind .get fun streaming => .bind polls fun stop => ?_
      by_cases final :
          isFinal stop streaming response attempt maxAttempts = true
      · rw [dif_pos final]
        refine .bind ?_ fun _ => .pure _
        split_ifs
        · exact informs _
        · exact .pure _
      · rw [dif_neg final]
        have less := attempt_lt_of_not_isFinal (Bool.eq_false_iff.mpr final)
        refine .bind (safe_retryDelay draws response attempt) fun delay =>
          .bind (informs _) fun _ => .bind (waits delay) fun remaining =>
            .bind (safe_waitUntil polls remaining) fun cancelled => ?_
        cases cancelled with
        | true => exact .pure _
        | false => exact induction _ (by omega) (attempt + 1) rfl

end RetrySafety

/-! ## Requests without a stream -/

/-- `Get`: the library itself collects the body of the response. -/
def get (transport : Transport signature) (path : String)
    (headers : List (String × String)) : Host signature HttpResult := do
  let transfer ← transport.send
    { path := path
      headers := headers
      payload := .null
      body := "" }
  match transfer with
  | .failed error => pure (.error error)
  | .broken _ _ error => pure (.error error)
  | .complete response _ => pure (.ok response)

/-- `execute_with_retry`, from a given attempt on. -/
def executeWithRetry (request : Host signature HttpResult)
    (maxAttempts : Int) (attempt : Nat) :
    Action signature Locals HttpResult := do
  let response ← Action.ofHost request
  let stop ← isSet cancel
  if final : stop || !shouldRetry response "" ||
      (attempt : Int) + 1 ≥ maxAttempts then
    pure response
  else do
    let delay ← retryDelay transport response attempt
    let polls ← Action.ofHost (transport.pollsBefore delay)
    let cancelled ← waitUntil cancel polls
    if cancelled then
      pure response
    else
      executeWithRetry request maxAttempts (attempt + 1)
termination_by (maxAttempts - attempt).toNat
decreasing_by
  simp only [Bool.or_eq_true, decide_eq_true_eq, not_or] at final
  omega

end Requests

end ArnCore.Net
