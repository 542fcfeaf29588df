import ArnCore.Provider.LastRequest
import ArnCore.Provider.StreamUpdates

/-!
# When a complete response is read

A complete 2xx response to the last request of a turn is read to its end unless
the flag stops the turn or a foreign exception leaves the callback for text.
Which of the two it is can be seen in what happened behind the request: in the
values the checks of the flag found, and in the answers of the callback.
-/

namespace ArnCore.Provider.CompleteResponse

open ArnCore.Agent.Environment
open ArnCore.Interaction
open ArnCore.Net
open ArnCore.Provider.BuiltInTurn
open ArnCore.Provider.ChatStream
open ArnCore.Provider.LastRequest
open ArnCore.Provider.SingleAttempt
open ArnCore.Provider.StreamUpdates
open ArnCore.Provider.StreamedCalls
open ArnCore.Tool

/-! ## Exceptions of the callback -/

/-- The callback for text threw something that is no standard exception. -/
def ThrewForeign (event : AgentEvent) : Prop :=
  ∃ delta, event =
    ⟨AgentOp.onText delta, (.error .foreign : Except Exception Unit)⟩

variable {Locals Value Result : Type}

/--
An action is left by one of the exceptions that count exactly when the callback
threw a foreign one.
-/
def Reports (counts : Exception → Prop)
    (action : Action agents Locals Value) : Prop :=
  ∀ locals history outcome after,
    Action.Finishes action locals history outcome after →
      ((∃ failure, outcome = .error failure ∧ counts failure) ↔
        ∃ event ∈ history, ThrewForeign event)

namespace Reports

variable {counts : Exception → Prop}

protected theorem pure (value : Value) :
    Reports counts (pure value : Action agents Locals Value) := by
  intro locals history outcome after run
  obtain ⟨rfl, rfl, rfl⟩ := Action.finishes_pure.mp run
  simp

protected theorem ofExcept
    {evaluated : Except Exception Value}
    (ignored : ∀ failure, evaluated = .error failure → ¬ counts failure) :
    Reports counts (Action.ofExcept evaluated : Action agents Locals Value) := by
  intro locals history outcome after run
  obtain ⟨rfl, rfl, rfl⟩ := Action.finishes_ofExcept.mp run
  simpa using ignored

protected theorem throw
    {failure : Exception} (ignored : ¬ counts failure) :
    Reports counts (throw failure : Action agents Locals Value) := by
  intro locals history outcome after run
  obtain ⟨rfl, rfl, rfl⟩ := Action.finishes_throw.mp run
  simpa using ignored

protected theorem modify (update : Locals → Locals) :
    Reports counts (modify update : Action agents Locals PUnit) := by
  intro locals history outcome after run
  obtain ⟨rfl, rfl, rfl⟩ := Action.finishes_modify.mp run
  simp

protected theorem get :
    Reports counts (get : Action agents Locals Locals) := by
  intro locals history outcome after run
  obtain ⟨rfl, rfl, rfl⟩ := Action.finishes_get.mp run
  simp

protected theorem bind
    {action : Action agents Locals Value}
    {continuation : Value → Action agents Locals Result}
    (first : Reports counts action)
    (rest : ∀ value, Reports counts (continuation value)) :
    Reports counts (action >>= continuation) := by
  intro locals history outcome after run
  rcases Action.finishes_bind.mp run with
    ⟨failure, rfl, thrown⟩ |
    ⟨before, later, value, between, rfl, started, continued⟩
  · have reported := first _ _ _ _ thrown
    simpa using reported
  · have silent : ¬ ∃ event ∈ before, ThrewForeign event := by
      rw [← first _ _ _ _ started]
      rintro ⟨failure, impossible, -⟩
      cases impossible
    rw [rest value _ _ _ _ continued]
    constructor
    · rintro ⟨event, member, threw⟩
      exact ⟨event, List.mem_append_right _ member, threw⟩
    · rintro ⟨event, member, threw⟩
      rcases List.mem_append.mp member with inFirst | inRest
      · exact absurd ⟨event, inFirst, threw⟩ silent
      · exact ⟨event, inRest, threw⟩

/-- An action that never calls the callback. -/
protected theorem of_silent
    {action : Action agents Locals Value}
    (silent : ∀ locals history outcome after,
      Action.Finishes action locals history outcome after →
        (∃ value, outcome = .ok value) ∧
          ∀ event ∈ history, ¬ ThrewForeign event) :
    Reports counts action := by
  intro locals history outcome after run
  obtain ⟨⟨value, rfl⟩, noThrow⟩ := silent _ _ _ _ run
  constructor
  · rintro ⟨failure, impossible, -⟩
    cases impossible
  · rintro ⟨event, member, threw⟩
    exact absurd threw (noThrow event member)

protected theorem isSet (watch : Bool) :
    Reports counts (isSet (callerFlag watch) : Action agents Locals Bool) := by
  apply Reports.of_silent
  intro locals history outcome after run
  obtain ⟨-, stop, rfl, rfl⟩ := finishes_isSet run
  refine ⟨⟨stop, rfl⟩, ?_⟩
  rintro event member ⟨delta, rfl⟩
  have poll := isPoll_of_check _ member
  cases poll

/-- The callback is the only operation that reports an exception. -/
protected theorem notify (text : Bool) (delta : String) :
    Reports (· = .foreign)
      (notify (hostText text) delta : Action agents Locals Unit) := by
  intro locals history outcome after run
  cases text with
  | false =>
      obtain ⟨rfl, rfl, rfl⟩ := Action.finishes_pure.mp run
      simp
  | true =>
      obtain ⟨⟨answer, rest, rfl, rfl, rfl⟩, rfl⟩ :=
        Action.finishes_ofHost.mp run
      constructor
      · rintro ⟨failure, rfl, rfl⟩
        exact ⟨_, List.mem_singleton_self _, delta, rfl⟩
      · rintro ⟨event, member, other, rfl⟩
        cases List.mem_singleton.mp member
        exact ⟨.foreign, rfl, rfl⟩

/-- Once standard exceptions are ignored, every exception counts. -/
protected theorem ignoreMalformed
    {walk : Walk agents} (reports : Reports (· = .foreign) walk) :
    Reports (fun _ => True) (ignoreMalformed walk) := by
  intro parts history outcome after run
  rcases Action.finishes_tryCatch.mp run with
    ⟨value, rfl, body⟩ |
    ⟨first, later, failure, between, rfl, body, handled⟩
  · rw [← reports _ _ _ _ body]
    simp
  · have reported := reports _ _ _ _ body
    cases failure with
    | standard what =>
        obtain ⟨rfl, rfl, rfl⟩ := Action.finishes_pure.mp handled
        rw [List.append_nil, ← reported]
        simp
    | foreign =>
        obtain ⟨rfl, rfl, rfl⟩ := Action.finishes_throw.mp handled
        rw [List.append_nil, ← reported]
        simp

end Reports

/-! ## The parsers of chat completions -/

/-- The JSON library reports what it rejects by standard exceptions. -/
def StandardErrors (json : JsonText) : Prop :=
  ∀ text, json.parse text ≠ .error .foreign

section Standard

variable {Evaluated : Type}

theorem assign_standard (value : Json) (key : String) (assigned : Json) :
    value.assign key assigned ≠ .error .foreign := by
  cases value <;> nofun

theorem getString_standard (value : Json) :
    value.getString ≠ .error .foreign := by
  cases value <;> nofun

theorem getUnsigned_standard (value : Json) :
    value.getUnsigned ≠ .error .foreign := by
  cases value <;> nofun

theorem bind_standard
    {first : Except Exception Value} {rest : Value → Except Exception Result}
    (starts : first ≠ .error .foreign)
    (continues : ∀ value, rest value ≠ .error .foreign) :
    first >>= rest ≠ .error .foreign := by
  cases first with
  | ok value => exact continues value
  | error failure =>
      intro same
      cases same
      exact starts rfl

theorem valueOr_standard
    {convert : Json → Except Exception Result}
    (converts : ∀ value, convert value ≠ .error .foreign)
    (value : Json) (key : String) (fallback : Result) :
    value.valueOr convert key fallback ≠ .error .foreign := by
  cases value with
  | object members =>
      rw [Json.valueOr]
      cases Collections.OrderedMap.find? key members with
      | none =>
          intro same
          cases same
      | some found => exact converts found
  | _ =>
      intro same
      cases same

theorem assignField_standard (field : CallField) (value call : Json) :
    assignField field value call ≠ .error .foreign := by
  cases field with
  | id => exact assign_standard _ _ _
  | type => exact assign_standard _ _ _
  | name =>
      exact bind_standard (assign_standard _ _ _) fun _ => assign_standard _ _ _

theorem appendArguments_standard (text call : Json) :
    appendArguments text call ≠ .error .foreign :=
  bind_standard (getString_standard _) fun _ =>
    bind_standard (getString_standard _) fun _ =>
      bind_standard (assign_standard _ _ _) fun _ => assign_standard _ _ _

end Standard

/-- A step of a walk that throws no foreign exception of its own. -/
def IsStandard (update : Update) : Prop :=
  update ≠ .fails .foreign

theorem reports_updateCall
    {update : Json → Except Exception Json} (index : Nat)
    (standard : ∀ call, update call ≠ .error .foreign) :
    Reports (· = .foreign) (updateCall index update : Walk agents) := by
  refine .bind .get fun parts => ?_
  cases parts.calls[index]? with
  | none => exact .throw nofun
  | some call =>
      refine .bind (.ofExcept ?_) fun updated => .modify _
      rintro failure failed rfl
      exact standard call failed

theorem reports_perform
    (text : Bool) {update : Update} (standard : IsStandard update) :
    Reports (· = .foreign) (perform (hostText text) update) := by
  cases update with
  | content shown =>
      refine .bind (.ofExcept ?_) fun chunk =>
        .bind (.modify _) fun _ => .notify text chunk
      rintro failure failed rfl
      exact getString_standard shown failed
  | pad index => exact .modify _
  | field index field value =>
      exact reports_updateCall index (assignField_standard field value)
  | fragment index text =>
      exact reports_updateCall index (appendArguments_standard text)
  | fails failure =>
      refine .throw ?_
      rintro rfl
      exact standard rfl

theorem reports_performAll
    (text : Bool) {updates : List Update}
    (standard : ∀ update ∈ updates, IsStandard update) :
    Reports (· = .foreign) (performAll (hostText text) updates) := by
  induction updates with
  | nil => exact .pure ()
  | cons update updates induction =>
      obtain ⟨first, rest⟩ := List.forall_mem_cons.mp standard
      exact .bind (reports_perform text first) fun _ => induction rest

/-- The updates of a list of values are standard if those of each value are. -/
theorem standard_flatMap
    {updates : Json → List Update} {items : List Json}
    (standard : ∀ item, ∀ update ∈ updates item, IsStandard update) :
    ∀ update ∈ items.flatMap updates, IsStandard update := by
  intro update member
  obtain ⟨item, -, among⟩ := List.mem_flatMap.mp member
  exact standard item update among

theorem standard_present
    {value : Json} {key : String} {updates : Json → List Update}
    (standard : ∀ found, ∀ update ∈ updates found, IsStandard update) :
    ∀ update ∈ presentUpdates value key updates, IsStandard update := by
  unfold presentUpdates
  cases value.find? key with
  | none => simp
  | some found => exact standard found

theorem standard_changeUpdates (change : Json) :
    ∀ update ∈ changeUpdates change, IsStandard update := by
  have evaluated :=
    valueOr_standard getUnsigned_standard change "index" 0
  unfold changeUpdates
  cases read : change.valueOr Json.getUnsigned "index" 0 with
  | error failure =>
      intro update member same
      cases List.mem_singleton.mp member
      cases same
      exact evaluated read
  | ok index =>
      have single : ∀ update, IsStandard update →
          ∀ other ∈ [update], IsStandard other := by
        intro update standard other member
        cases List.mem_singleton.mp member
        exact standard
      refine List.forall_mem_append.mpr ⟨single _ nofun, ?_⟩
      refine List.forall_mem_append.mpr
        ⟨standard_present fun id => single _ nofun, ?_⟩
      refine List.forall_mem_append.mpr
        ⟨standard_present fun type => single _ nofun, ?_⟩
      refine standard_present fun function => List.forall_mem_append.mpr
        ⟨standard_present fun name => single _ nofun,
          standard_present fun text => single _ nofun⟩

theorem standard_packetUpdates (packet : Json) :
    ∀ update ∈ packetUpdates packet, IsStandard update := by
  unfold packetUpdates
  cases delta? packet with
  | none => simp
  | some delta =>
      refine List.forall_mem_append.mpr ⟨?_, ?_⟩
      · unfold contentUpdates
        cases delta.find? "content" with
        | none => simp
        | some content => cases content <;> simp [IsStandard]
      · have evaluated := valueOr_standard
          (fun value => (nofun : (Except.ok value : Except Exception Json) ≠
            .error .foreign)) delta "tool_calls" (.array [])
        cases read : delta.valueOr Except.ok "tool_calls" (.array []) with
        | error failure =>
            intro update member same
            cases List.mem_singleton.mp member
            cases same
            exact evaluated read
        | ok changes => exact standard_flatMap standard_changeUpdates

theorem standard_eventUpdates
    {json : JsonText} (standard : StandardErrors json) (chat : ChatProvider)
    (event : String) :
    ∀ update ∈ eventUpdates chat json event, IsStandard update := by
  unfold eventUpdates
  by_cases done : event = "[DONE]"
  · rw [if_pos done]
    simp
  · rw [if_neg done]
    cases parsed : json.parse event with
    | error failure =>
        intro update member same
        cases List.mem_singleton.mp member
        cases same
        exact standard event parsed
    | ok value => exact standard_flatMap standard_packetUpdates

/-- A parser throws exactly when the callback threw a foreign exception. -/
theorem reports_parseStreamChunk
    {json : JsonText} (standard : StandardErrors json) (chat : ChatProvider)
    (text : Bool) (event : String) :
    Reports (fun _ => True)
      (chat.parseStreamChunk json (hostText text) event) := by
  rw [parseStreamChunk_eq]
  exact .ignoreMalformed
    (reports_performAll text (standard_eventUpdates standard chat event))

/-! ## Receiving a response -/

section Receiving

variable {onEvent : String → Walk agents} {watch : Bool}
  {counts : Exception → Prop}

theorem reports_onParts
    {action : Walk agents} (reports : Reports counts action) :
    Reports counts (onParts action) := by
  intro streaming history outcome after run
  obtain ⟨parts, started, rfl⟩ := finishes_onParts.mp run
  exact reports _ _ _ _ started

theorem reports_deliver
    (parses : ∀ event, Reports counts (onEvent event))
    (events : List (List Char)) :
    Reports counts (deliver onEvent events) := by
  induction events with
  | nil => exact .pure ()
  | cons event events induction =>
      exact .bind (.modify _) fun _ =>
        .bind (reports_onParts (parses _)) fun _ => induction

theorem reports_receive
    (parses : ∀ event, Reports counts (onEvent event)) (status : Int)
    (steps : List TransferStep) (pending : List Char) :
    Reports counts
      (receive onEvent (callerFlag watch) status steps pending) := by
  induction steps generalizing pending with
  | nil => exact .pure _
  | cons step steps induction =>
      cases step with
      | progress =>
          refine .bind (.isSet watch) fun stop => ?_
          cases stop with
          | true => exact .pure none
          | false => exact induction pending
      | chunk data =>
          refine .bind (.isSet watch) fun stop => ?_
          cases stop with
          | true => exact .pure none
          | false =>
              simp only [Bool.false_eq_true, if_false]
              split_ifs
              · exact .bind (reports_deliver parses _) fun _ => induction _
              · exact .bind (.modify _) fun _ => induction _

/-- A complete response is received unless the callback throws. -/
theorem reports_absorb
    (parses : ∀ event, Reports counts (onEvent event))
    (response : HttpResponse) (steps : List TransferStep) :
    Reports counts
      (absorb onEvent (callerFlag watch) (.complete response steps)) := by
  refine .bind (reports_receive parses _ _ _) fun received => ?_
  cases received with
  | none => exact .pure _
  | some pending =>
      refine .bind ?_ fun _ => .pure _
      split_ifs
      · exact reports_deliver parses _
      · exact .pure ()

end Receiving

/-! ## Checks of the flag -/

/-- The values the checks of a history found. -/
def flagReads (history : List AgentEvent) : List Bool :=
  history.filterMap fun event =>
    match event with
    | ⟨.load .cancelled, answer⟩ => some answer
    | _ => none

theorem flagReads_append (first second : List AgentEvent) :
    flagReads (first ++ second) = flagReads first ++ flagReads second :=
  List.filterMap_append

theorem flagReads_checkEvents (watch stop : Bool) :
    flagReads (checkEvents watch stop) = if watch then [stop] else [] := by
  cases watch with
  | false => rfl
  | true => rfl

/-- Showing text looks at no flag. -/
theorem flagReads_of_showing
    {history : List AgentEvent}
    (showing : ∀ event ∈ history, ∃ delta, event.op = .onText delta) :
    flagReads history = [] := by
  apply List.filterMap_eq_nil_iff.mpr
  rintro ⟨op, answer⟩ member
  obtain ⟨delta, same⟩ := showing _ member
  cases same
  rfl

/-- A check that is not asked for finds nothing. -/
theorem finishes_checkEvents
    {watch : Bool} {locals after : Locals} {history : List AgentEvent}
    {outcome : Except Exception Bool}
    (run : Action.Finishes (isSet (callerFlag watch)) locals history outcome
      after) :
    after = locals ∧ ∃ stop, outcome = .ok stop ∧
      history = checkEvents watch stop ∧ (stop = true → watch = true) := by
  cases watch with
  | false =>
      obtain ⟨rfl, rfl, rfl⟩ := Action.finishes_pure.mp run
      exact ⟨rfl, false, rfl, rfl, nofun⟩
  | true =>
      obtain ⟨rfl, stop, rfl, rfl⟩ := finishes_isSet run
      exact ⟨rfl, stop, rfl, rfl, fun _ => rfl⟩

section Reads

variable {onEvent : String → Walk agents} {watch : Bool}
  {before after : Streaming TurnParts} {history : List AgentEvent}

theorem flagReads_of_deliver
    {events : List (List Char)} {outcome : Except Exception Unit}
    (shows : ShowsOnly onEvent)
    (run : Action.Finishes (deliver onEvent events) before history outcome
      after) :
    flagReads history = [] := by
  have parses : ∀ event, Action.Safe (permitting fun _ => True)
      (fun _ op => ∃ delta, op = AgentOp.onText delta) (onEvent event) := shows
  exact flagReads_of_showing
    (Action.Holds.finishes (safe_deliver parses events before ()) run
      (by simp)).1

/-- What the checks of a response of so many pieces found. -/
def ReadsOf (watch : Bool) (pieces : Nat) (received : Option (List Char))
    (reads : List Bool) : Prop :=
  match received with
  | some _ => reads = if watch then List.replicate pieces false else []
  | none => true ∈ reads.take pieces

/-- Each piece begins with a check, and a check that found the flag set ends. -/
theorem readsOf_cons
    {rest : Action agents (Streaming TurnParts) (Option (List Char))}
    {pieces : Nat} {received : Option (List Char)}
    (continues : ∀ history,
      Action.Finishes rest before history (.ok received) after →
        ReadsOf watch pieces received (flagReads history))
    (run : Action.Finishes
      (isSet (callerFlag watch) >>= fun stop =>
        if stop then pure none else rest) before history (.ok received)
      after) :
    ReadsOf watch (pieces + 1) received (flagReads history) := by
  obtain ⟨first, later, stop, between, rfl, checks, continued⟩ :=
    Action.finishes_bind_ok.mp run
  obtain ⟨rfl, stop, same, rfl, watched⟩ := finishes_checkEvents checks
  cases same
  rw [flagReads_append, flagReads_checkEvents]
  cases stop with
  | true =>
      obtain rfl := watched rfl
      obtain ⟨rfl, same, -⟩ := Action.finishes_pure.mp continued
      cases same
      exact List.mem_cons_self
  | false =>
      have reads := continues later continued
      cases received with
      | none =>
          cases watch with
          | false => exact List.take_subset_take_left _ (Nat.le_succ _) reads
          | true => exact List.mem_cons_of_mem _ reads
      | some pending =>
          rw [ReadsOf] at reads
          rw [ReadsOf, reads]
          cases watch <;> rfl

/--
A response that is received to its end was checked for once per piece, and no
check found the flag set.  One that is not was stopped by such a check.
-/
theorem readsOf_receive
    {status : Int} {steps : List TransferStep} {pending : List Char}
    {received : Option (List Char)}
    (shows : ShowsOnly onEvent)
    (run : Action.Finishes
      (receive onEvent (callerFlag watch) status steps pending) before history
      (.ok received) after) :
    ReadsOf watch steps.length received (flagReads history) := by
  induction steps generalizing before history pending with
  | nil =>
      obtain ⟨rfl, same, -⟩ := Action.finishes_pure.mp run
      cases same
      cases watch <;> rfl
  | cons step steps induction =>
      cases step with
      | progress => exact readsOf_cons (fun history => induction) run
      | chunk data =>
          refine readsOf_cons (fun history run => ?_) run
          by_cases success : isSuccess status = true
          · rw [if_pos success] at run
            obtain ⟨first, later, value, between, rfl, delivers, continued⟩ :=
              Action.finishes_bind_ok.mp run
            rw [flagReads_append, flagReads_of_deliver shows delivers]
            exact induction continued
          · rw [if_neg success] at run
            exact induction (Action.finishes_modify_bind.mp run)

/-- The checks of a complete response that was received, or was not. -/
theorem readsOf_absorb
    {response : HttpResponse} {steps : List TransferStep}
    {result : HttpResult}
    (shows : ShowsOnly onEvent)
    (run : Action.Finishes
      (absorb onEvent (callerFlag watch) (.complete response steps)) before
      history (.ok result) after) :
    result = .ok response ∧
        flagReads history =
          (if watch then List.replicate steps.length false else []) ∨
      result = .error .canceled ∧
        true ∈ (flagReads history).take steps.length := by
  obtain ⟨first, later, pending, between, rfl, receives, finishes⟩ :=
    Action.finishes_bind_ok.mp run
  have reads := readsOf_receive shows receives
  cases pending with
  | none =>
      obtain ⟨rfl, same, -⟩ := Action.finishes_pure.mp finishes
      cases same
      rw [List.append_nil]
      exact Or.inr ⟨rfl, reads⟩
  | some pending =>
      obtain ⟨delivered, last, value, between, rfl, delivers, returns⟩ :=
        Action.finishes_bind_ok.mp finishes
      obtain ⟨rfl, same, -⟩ := Action.finishes_pure.mp returns
      cases same
      have silent : flagReads delivered = [] := by
        split_ifs at delivers
        · exact flagReads_of_deliver shows delivers
        · obtain ⟨rfl, -, -⟩ := Action.finishes_pure.mp delivers
          rfl
      rw [List.append_nil, flagReads_append, silent, List.append_nil]
      exact Or.inl ⟨rfl, reads⟩

end Reads

/-! ## The turn -/

/--
Behind a request whose response came in so many pieces, the flag was found set
by a check made on receiving a piece, or by the last check of the turn.
-/
def CancelledBehind (pieces : Nat) (later : List AgentEvent) : Prop :=
  true ∈ (flagReads later).take pieces ∨
    (flagReads later).getLast? = some true

/-- A turn is cancelled behind its request, or the callback ends it. -/
def Disturbed (pieces : Nat) (later : List AgentEvent) : Prop :=
  CancelledBehind pieces later ∨ ∃ event ∈ later, ThrewForeign event

section Turns

variable {json : JsonText} {errorText : HttpError → String}
  {provider path : String} {headers : List (String × String)}
  {parse : String → Walk agents} {payload : Conversation → Json}
  {read : TurnParts → Action agents Conversation ModelTurn}
  {text progress watch : Bool} {response : HttpResponse}
  {steps : List TransferStep} {locals after : Conversation}
  {history later : List AgentEvent} {outcome : Except Exception ModelTurn}

/-- A request that was stopped while its response arrived. -/
theorem cancelledBehind_of_canceled
    (shows : ShowsOnly parse)
    (canceled : Canceled parse watch response steps later) :
    CancelledBehind steps.length later := by
  obtain ⟨received, rest, streaming, rfl, absorbs⟩ := canceled
  rcases readsOf_absorb shows absorbs with ⟨impossible, -⟩ | ⟨-, found⟩
  · cases impossible
  · left
    rw [flagReads_append, List.take_append]
    exact List.mem_append_left _ found

/--
A turn behind its first check: an exception ends it while it streams, or it
checks the flag once more and concludes.
-/
inductive BehindCheck
    (streams : List AgentEvent →
      Except Exception (HttpResult × Streaming TurnParts) → Prop)
    (conclude : HttpResult × Streaming TurnParts →
      Action agents Conversation ModelTurn)
    (watch : Bool) (locals : Conversation) :
    List AgentEvent → Except Exception ModelTurn → Conversation → Prop where
  | threw {streamed : List AgentEvent} {failure : Exception}
      (ran : streams streamed (.error failure)) :
      BehindCheck streams conclude watch locals streamed (.error failure)
        locals
  | checked {streamed ending : List AgentEvent}
      {received : HttpResult × Streaming TurnParts}
      {outcome : Except Exception ModelTurn} {after : Conversation}
      (stop : Bool) (watched : stop = true → watch = true)
      (ran : streams streamed (.ok received))
      (concludes : Action.Finishes
        (if stop then pure cancelledTurn else conclude received) locals ending
        outcome after) :
      BehindCheck streams conclude watch locals
        (streamed ++ (checkEvents watch stop ++ ending)) outcome after

/-- The streaming part of a turn over the network. -/
abbrev Streams (json : JsonText) (parse : String → Walk agents)
    (path : String) (headers : List (String × String))
    (payload : Conversation → Json) (text progress watch : Bool)
    (locals : Conversation) (history : List AgentEvent)
    (outcome : Except Exception (HttpResult × Streaming TurnParts)) : Prop :=
  Action.Finishes
    (streamTurn network
      (turnRequest json network parse path headers (payload locals)
        (callerFlag watch))
      (hostCallbacks text progress) (callerFlag watch) maxRequestAttempts)
    locals history outcome locals

/-- A turn checks the flag before its request and behind it. -/
theorem finishes_executeTurn_checks
    (run : Action.Finishes
      (executeTurn (networked json errorText) provider path headers parse
        payload read (hostCallbacks text progress) (callerFlag watch)) locals
      history outcome after) :
    (∀ event ∈ history, ¬ IsSend event) ∨
      ∃ stop rest, history = checkEvents watch stop ++ rest ∧
        BehindCheck
          (Streams json parse path headers payload text progress watch locals)
          (concludeTurn (networked json errorText) provider read) watch locals
          rest outcome after := by
  obtain ⟨first, rest, stop, between, rfl, checked, continued⟩ :=
    finishes_isSet_bind.mp run
  obtain ⟨rfl, stop, same, rfl, -⟩ := finishes_checkEvents checked
  cases same
  cases stop with
  | true =>
      obtain ⟨rfl, -, -⟩ := Action.finishes_pure.mp continued
      rw [List.append_nil]
      exact Or.inl not_isSend_of_checkEvents
  | false =>
      refine Or.inr ⟨false, rest, rfl, ?_⟩
      rcases Action.finishes_bind.mp (Action.finishes_get_bind.mp continued)
        with
        ⟨failure, rfl, thrown⟩ |
        ⟨streamed, later, received, reached, rfl, streams, concluded⟩
      · obtain rfl := eq_of_finishes_streamTurn thrown
        exact .threw thrown
      obtain rfl := eq_of_finishes_streamTurn streams
      obtain ⟨recheck, ending, again, reached, rfl, rechecked, concludes⟩ :=
        finishes_isSet_bind.mp concluded
      obtain ⟨rfl, stop, same, rfl, watched⟩ := finishes_checkEvents rechecked
      cases same
      exact .checked _ watched streams concludes

theorem eq_nil_of_finishes_concludeTurn
    {received : HttpResult × Streaming TurnParts}
    (silently : ReadsSilently read)
    (run : Action.Finishes
      (concludeTurn (networked json errorText) provider read received) locals
      history outcome after) :
    history = [] := by
  rcases received with ⟨error | response, streaming⟩
  · exact (Action.finishes_pure.mp run).1
  · by_cases success : isSuccess response.status = true
    · simp only [concludeTurn, success, if_true] at run
      exact silently run
    · simp only [concludeTurn, success] at run
      exact (Action.finishes_pure.mp run).1

/-- A response that was received and recognised as current is read. -/
theorem not_disturbed_of_read
    {received : List AgentEvent} {streaming : Streaming TurnParts}
    (shows : ShowsOnly parse)
    (reports : ∀ event, Reports (fun _ => True) (parse event))
    (absorbs : Action.Finishes
      (absorb parse (callerFlag watch) (.complete response steps)) fresh
      received (.ok (.ok response)) streaming) (stop : Bool) :
    ¬ Disturbed steps.length
      (received ++ (checkEvents watch stop ++ checkEvents watch false)) := by
  have reads : flagReads received =
      if watch then List.replicate steps.length false else [] := by
    rcases readsOf_absorb shows absorbs with ⟨-, reads⟩ | ⟨impossible, -⟩
    · exact reads
    · cases impossible
  rintro ((early | last) | ⟨event, member, threw⟩)
  · simp only [flagReads_append, reads, flagReads_checkEvents] at early
    cases watch with
    | false => simp at early
    | true => simp [List.mem_replicate] at early
  · simp only [flagReads_append, reads, flagReads_checkEvents] at last
    cases watch with
    | false => simp at last
    | true => simp [List.getLast?_append] at last
  · have silent : ¬ ∃ event ∈ received, ThrewForeign event := by
      rw [← reports_absorb reports response steps _ _ _ _ absorbs]
      rintro ⟨failure, impossible, -⟩
      cases impossible
    have polled : ∀ {stop}, event ∉ checkEvents watch stop := by
      intro stop inCheck
      have poll : IsPoll event := isPoll_of_check event inCheck
      obtain ⟨delta, rfl⟩ := threw
      cases poll
    simp only [List.mem_append] at member
    rcases member with inReceived | inCheck | inRecheck
    · exact silent ⟨event, inReceived, threw⟩
    · exact polled inCheck
    · exact polled inRecheck

/--
A complete 2xx response to the last request of a turn is read exactly when
nothing disturbs the turn behind that request.
-/
theorem finishes_executeTurn_complete
    (shows : ShowsOnly parse) (silently : ReadsSilently read)
    (reports : ∀ event, Reports (fun _ => True) (parse event))
    (success : isSuccess response.status = true)
    (run : Action.Finishes
      (executeTurn (networked json errorText) provider path headers parse
        payload read (hostCallbacks text progress) (callerFlag watch)) locals
      history outcome after)
    (answer : LastAnswer history (.complete response steps) later) :
    (¬ Disturbed steps.length later ∧
      ∃ received polls streaming,
        ReadBehind parse watch read response steps locals later outcome after
          received polls streaming) ∨
      Disturbed steps.length later ∧
        Unanswered locals history outcome after := by
  rcases finishes_executeTurn_checks run with
    silent | ⟨stop, rest, rfl, behind⟩
  · exact absurd answer (LastAnswer.not_of_silent silent)
  replace answer := answer.of_silent_append not_isSend_of_checkEvents
  cases behind with
  | @threw _ failure streams =>
      refine Or.inr ⟨?_, .of_error⟩
      cases finishes_streamTurn_behind shows success streams answer with
      | threw absorbs =>
          right
          exact (reports_absorb reports response steps _ _ _ _ absorbs).mp
            ⟨failure, rfl, trivial⟩
      | stopped canceled unanswered =>
          exact Or.inl (cancelledBehind_of_canceled shows canceled)
  | @checked streamed ending received _ _ stop watched streams concludes =>
      cases stop with
      | true =>
          obtain rfl := watched rfl
          obtain ⟨rfl, rfl, rfl⟩ := Action.finishes_pure.mp concludes
          obtain ⟨kept, rfl, -⟩ := answer.of_append_silent
            (List.forall_mem_append.mpr ⟨not_isSend_of_checkEvents, by simp⟩)
          refine Or.inr ⟨Or.inl (Or.inr ?_), .of_foundSet (by simp [checkEvents])⟩
          simp [flagReads_append, flagReads_checkEvents, List.getLast?_append]
      | false =>
          simp only [Bool.false_eq_true, if_false] at concludes
          obtain rfl := eq_nil_of_finishes_concludeTurn silently concludes
          rw [List.append_nil] at answer
          obtain ⟨kept, rfl, behind⟩ :=
            answer.of_append_silent not_isSend_of_checkEvents
          cases finishes_streamTurn_behind shows success streams behind with
          | read again split absorbs =>
              subst split
              rw [List.append_assoc]
              simp only [concludeTurn, success, if_true] at concludes
              have polls : ∀ {stop}, ∀ event ∈ checkEvents watch stop,
                  IsPoll event := isPoll_of_check
              exact Or.inl
                ⟨not_disturbed_of_read shows reports absorbs again,
                  _, _, _, rfl, absorbs,
                  List.forall_mem_append.mpr ⟨polls, polls⟩, concludes⟩
          | stopped canceled unanswered =>
              refine Or.inr ⟨Or.inl (cancelledBehind_of_canceled shows
                (canceled.append _)), ?_⟩
              rcases received with ⟨error | response, streaming⟩
              · obtain ⟨-, rfl, rfl⟩ := Action.finishes_pure.mp concludes
                exact .of_message
              · exact absurd rfl (unanswered response streaming)

end Turns

end ArnCore.Provider.CompleteResponse
