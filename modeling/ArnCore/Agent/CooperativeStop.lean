import ArnCore.Agent.BracketedCalls
import ArnCore.Interaction.Execution

/-!
# Cooperative cancellation of a prompt

The flag of the caller rises while some call of a prompt is open, and nothing
throws.  The prompt reads it again before it starts anything else, except for
one window: between the check in front of a tool call and the tool lies the
progress callback that announces the call.
-/

namespace ArnCore.Agent.CooperativeStop

open ArnCore.Interaction
open ArnCore.Provider
open ArnCore.Tool
open ArnCore.Agent.BracketedCalls
open ArnCore.Agent.Environment (StartTurn ContinueTurn)

/-! ## Runs in which the flag rises -/

/-- Calls during which the flag may rise. -/
def isInterruptible : Call → Bool
  | .startTurn _ | .continueTurn _ | .onText _ | .onProgress _ | .tool _ _ =>
      true
  | _ => false

/-- A provider turn or a tool execution is started. -/
def isWork : CallOp → Bool
  | .enter (.startTurn _) | .enter (.continueTurn _) | .enter (.tool _ _) =>
      true
  | _ => false

/-- A load of the flag returns the value. -/
def Reads (value : Bool) : CallEvent → Prop
  | ⟨.load, found⟩ => found = value
  | _ => True

/-- A call that is left did not throw. -/
def Returned : CallEvent → Prop
  | ⟨.leave _, outcome⟩ => ∃ result, outcome = .ok result
  | _ => True

instance (value : Bool) : DecidablePred (Reads value)
  | ⟨.load, found⟩ => instDecidableEqBool found value
  | ⟨.lock, _⟩ | ⟨.unlock, _⟩ | ⟨.publish, _⟩ | ⟨.clear, _⟩ => .isTrue trivial
  | ⟨.present, _⟩ | ⟨.enter _, _⟩ | ⟨.leave _, _⟩ => .isTrue trivial

instance : DecidablePred Returned
  | ⟨.leave _, .ok result⟩ => .isTrue ⟨result, rfl⟩
  | ⟨.leave _, .error _⟩ => .isFalse (by rintro ⟨_, ⟨⟩⟩)
  | ⟨.load, _⟩ | ⟨.lock, _⟩ | ⟨.unlock, _⟩ | ⟨.publish, _⟩ => .isTrue trivial
  | ⟨.clear, _⟩ | ⟨.present, _⟩ | ⟨.enter _, _⟩ => .isTrue trivial

/-- The flag rises inside a call and stays set. -/
structure RisesBetween (before after : List CallEvent) : Prop where
  inside : ∃ call ∈ openCalls before, isInterruptible call = true
  low : ∀ event ∈ before, Reads false event
  high : ∀ event ∈ after, Reads true event

/-- The prompt ended as cancelled. -/
def Cancelled (outcome : Except Exception ApiResult) : Prop :=
  ∃ result, outcome = .ok result ∧ result.ok = false ∧ result.cancelled = true

/-- Nothing is started any more, and the prompt ends as cancelled. -/
def StopsCooperatively (after : List CallEvent)
    (outcome : Except Exception ApiResult) : Prop :=
  (∀ event ∈ after, isWork event.op = false) ∧ Cancelled outcome

/-- The open call is the progress callback that announces a registered tool. -/
def AnnouncesTool {Locals : Type} (registry : ToolRegistry calls Locals)
    (stack : List Call) : Prop :=
  ∃ name, stack = [.onProgress ("Running project tool: " ++ name)] ∧
    registry.hasTool name = true

/-- The registry a prompt of the session uses. -/
def usedRegistry (tools : Option (List (ToolDefinition × Bool))) :
    ToolRegistry calls Unit :=
  (tools.map anyRegistry).getD {}

/-! ## Watching the flag -/

/--
The open calls, the calls that were open when the flag rose, and whether work
was started since then.
-/
structure Watch where
  stack : List Call := []
  risen : Option (List Call) := none
  worked : Bool := false

/-- The flag may rise in front of an operation, when a call is open. -/
inductive Rises : Watch → Watch → Prop where
  | kept (watch : Watch) : Rises watch watch
  | rises {watch : Watch} (low : watch.risen = none)
      (inside : ∃ call ∈ watch.stack, isInterruptible call = true) :
      Rises watch { watch with risen := some watch.stack }

/-- What is seen of an operation. -/
def Watch.see (watch : Watch) (op : CallOp) : Watch :=
  { watch with
    stack := opened watch.stack op
    worked := watch.worked || watch.risen.isSome && isWork op }

/-- The environments in which nothing throws and the flag rises at most once. -/
def rising : World calls Watch where
  perform watch op answer after :=
    ∃ raised, Rises watch raised ∧ Reads raised.risen.isSome ⟨op, answer⟩ ∧
      Returned ⟨op, answer⟩ ∧ after = raised.see op

section Traces

variable {history before after : List CallEvent}

/-- With the flag low nothing is seen but the open calls. -/
theorem traces_low
    (stack : List Call) (low : ∀ event ∈ history, Reads false event)
    (returned : ∀ event ∈ history, Returned event) :
    rising.Traces { stack := stack } history
      { stack := history.foldl (fun stack event => opened stack event.op)
          stack } := by
  induction history generalizing stack with
  | nil => rfl
  | cons event history induction =>
      obtain ⟨readsFirst, readsRest⟩ := List.forall_mem_cons.mp low
      obtain ⟨first, rest⟩ := List.forall_mem_cons.mp returned
      exact ⟨_, ⟨_, .kept _, readsFirst, first, rfl⟩,
        induction _ readsRest rest⟩

/-- With the flag high every start of work is noted. -/
theorem traces_high
    (watch : Watch) (isHigh : watch.risen.isSome = true)
    (high : ∀ event ∈ history, Reads true event)
    (returned : ∀ event ∈ history, Returned event) :
    rising.Traces watch history
      { stack := history.foldl (fun stack event => opened stack event.op)
          watch.stack
        risen := watch.risen
        worked := watch.worked || history.any fun event => isWork event.op } := by
  induction history generalizing watch with
  | nil =>
      rw [List.any_nil, Bool.or_false]
      rfl
  | cons event history induction =>
      obtain ⟨readsFirst, readsRest⟩ := List.forall_mem_cons.mp high
      obtain ⟨first, rest⟩ := List.forall_mem_cons.mp returned
      rw [← isHigh] at readsFirst
      refine ⟨_, ⟨_, .kept _, readsFirst, first, rfl⟩, ?_⟩
      have later := induction (watch.see event.op) isHigh readsRest rest
      simpa [Watch.see, isHigh, Bool.or_assoc] using later

/-- A run in which the flag rises, as the watch sees it. -/
theorem traces_rising
    {event : CallEvent} (rises : RisesBetween before (event :: after))
    (returned : ∀ other ∈ before ++ event :: after, Returned other) :
    rising.Traces {} (before ++ event :: after)
      { stack := openCalls (before ++ event :: after)
        risen := some (openCalls before)
        worked := (event :: after).any fun event => isWork event.op } := by
  obtain ⟨returnedBefore, returnedAfter⟩ := List.forall_mem_append.mp returned
  obtain ⟨readsFirst, readsRest⟩ := List.forall_mem_cons.mp rises.high
  obtain ⟨first, rest⟩ := List.forall_mem_cons.mp returnedAfter
  apply (traces_low [] rises.low returnedBefore).append
  refine ⟨_, ⟨_, .rises rfl rises.inside, readsFirst, first, rfl⟩, ?_⟩
  have later := traces_high
    (Watch.see { stack := openCalls before, risen := some (openCalls before) }
      event.op)
    rfl readsRest rest
  simpa [openCalls, Watch.see] using later

end Traces

/-! ## Inside one call -/

section Calls

variable {Locals Value Result : Type} {call : Call} {risen : Option (List Call)}
  {worked : Bool}

/-- A condition of the watch that an action keeps. -/
def Stays (kept : Watch → Prop) (action : Action calls Locals Value) : Prop :=
  ∀ locals watch, kept watch →
    Action.Holds rising (fun _ _ => True) (fun _ _ after => kept after)
      action locals watch

namespace Stays

variable {kept : Watch → Prop}

protected theorem pure (value : Value) :
    Stays kept (pure value : Action calls Locals Value) :=
  fun _ _ holds => holds

protected theorem bind
    {action : Action calls Locals Value}
    {rest : Value → Action calls Locals Result}
    (first : Stays kept action) (later : ∀ value, Stays kept (rest value)) :
    Stays kept (action >>= rest) := by
  intro locals watch holds
  apply Action.holds_bind.mpr
  apply (first locals watch holds).imp
  rintro (failure | value) after reached holds
  · exact holds
  · exact later value after reached holds

/-- An attempt returns, and keeps what the action keeps. -/
theorem attempt_holds
    {action : Action calls Locals Value} (stays : Stays kept action)
    (locals : Locals) {watch : Watch} (holds : kept watch) :
    Action.Holds rising (fun _ _ => True)
      (fun outcome _ after => (∃ value, outcome = .ok value) ∧ kept after)
      (attempt action) locals watch := by
  apply holds_attempt.mpr
  apply (stays locals watch holds).imp
  rintro outcome after reached kept
  exact ⟨⟨outcome, rfl⟩, kept⟩

protected theorem attempt
    {action : Action calls Locals Value} (stays : Stays kept action) :
    Stays kept (attempt action) :=
  fun locals _ holds =>
    (stays.attempt_holds locals holds).imp fun _ _ _ returned => returned.2

end Stays

/--
The calls on top of an open one.  The flag rose where it did before the call,
or while the call was open.
-/
structure Under (call : Call) (risen : Option (List Call)) (worked : Bool)
    (inner : List Call) (watch : Watch) : Prop where
  stack : watch.stack = inner ++ [call]
  risen : watch.risen = risen ∨
    risen = none ∧ ∃ earlier, watch.risen = some (earlier ++ [call])
  worked : watch.worked = worked

/-- The flag may rise inside a call. -/
theorem Under.raised
    {inner : List Call} {watch raised : Watch}
    (under : Under call risen worked inner watch)
    (rises : Rises watch raised) : Under call risen worked inner raised := by
  cases rises with
  | kept => exact under
  | rises low =>
      have started : risen = none := by
        rcases under.risen with same | ⟨none, -⟩
        · exact same.symm.trans low
        · exact none
      exact
        { stack := under.stack
          risen := Or.inr ⟨started, inner, by rw [under.stack]⟩
          worked := under.worked }

/-- An operation inside a call. -/
theorem Under.step
    {inner : List Call} {watch after : Watch} {op : CallOp}
    {answer : calls.Answer op} {others : List Call}
    (under : Under call risen worked inner watch)
    (opens : opened (inner ++ [call]) op = others ++ [call])
    (idle : isWork op = false)
    (performed : rising.perform watch op answer after) :
    Under call risen worked others after := by
  obtain ⟨raised, rises, -, -, rfl⟩ := performed
  have still := under.raised rises
  exact
    { stack := by rw [Watch.see, still.stack, opens]
      risen := still.risen
      worked := by simp [Watch.see, idle, still.worked] }

theorem stays_check (attached : Bool) :
    Stays (Under call risen worked [])
      (isSet (callerFlag attached) : Action calls Locals Bool) := by
  cases attached with
  | false => exact .pure false
  | true =>
      intro locals watch under
      refine ⟨trivial, ?_⟩
      intro stop after performed
      exact under.step rfl rfl performed

/-- A call of the host inside a call. -/
theorem stays_hostCall
    {nested : Call} (idle : isWork (.enter nested) = false) :
    Stays (Under call risen worked [])
      (Action.ofHost (hostCall nested) : Action calls Locals nested.Result) := by
  intro locals watch under
  refine ⟨trivial, ?_⟩
  intro inside entered performed
  have open' : Under call risen worked [nested] entered :=
    under.step rfl idle performed
  refine ⟨trivial, ?_⟩
  intro outcome left performed
  exact open'.step rfl rfl performed

/-- A provider takes its turn inside a call. -/
theorem stays_playTurn
    (text progress attached : Bool) (turn : Program turns Unit) :
    Stays (Under call risen worked [])
      (playTurn (hostCallbacks text progress) (callerFlag attached) turn :
        Action calls Locals Unit) := by
  induction turn with
  | done value => exact .pure ()
  | call op next induction =>
      cases op with
      | onText delta =>
          refine .bind (.attempt ?_) fun shown => induction shown
          cases text with
          | false => exact .pure ()
          | true => exact @stays_hostCall _ call risen worked (.onText delta) rfl
      | onProgress message =>
          refine .bind (.attempt ?_) fun shown => induction shown
          cases progress with
          | false => exact .pure ()
          | true => exact @stays_hostCall _ call risen worked (.onProgress message) rfl
      | cancelRequested =>
          exact .bind (stays_check attached) fun stop => induction stop

/-- A tool uses its context inside a call. -/
theorem stays_useContext
    (hasHandler attached : Bool) (uses : Program contexts Unit) :
    Stays (Under call risen worked [])
      (useContext
        { cancelRequested := callerFlag attached
          confirm := hostConfirm hasHandler } uses :
        Action calls Locals Unit) := by
  induction uses with
  | done value => exact .pure ()
  | call op next induction =>
      cases op with
      | confirm request =>
          cases hasHandler with
          | false => exact induction none
          | true =>
              exact .bind
                (.attempt (@stays_hostCall _ call risen worked (.confirm request) rfl))
                fun approved => induction (some approved)
      | cancelRequested =>
          exact .bind (stays_check attached) fun stop => induction stop

end Calls

/-! ## Between the calls of a session -/

section Session

variable {Locals : Type} {registry : ToolRegistry calls Locals}
  {call : Call}

/-- Behind a call. -/
structure Left (call : Call) (risen : Option (List Call)) (worked : Bool)
    (watch : Watch) : Prop where
  stack : watch.stack = []
  risen : watch.risen = risen ∨
    risen = none ∧ ∃ earlier, watch.risen = some (earlier ++ [call])
  worked : watch.worked = worked

theorem eq_of_rises
    {watch raised : Watch} (closed : watch.stack = [])
    (rises : Rises watch raised) : raised = watch := by
  cases rises with
  | kept => rfl
  | rises low inside =>
      obtain ⟨call, member, -⟩ := inside
      rw [closed] at member
      cases member

theorem Under.left
    {risen : Option (List Call)} {worked : Bool} {watch raised : Watch}
    (under : Under call risen worked [] watch) (rises : Rises watch raised) :
    Left call risen worked (raised.see (.leave call)) := by
  have still := under.raised rises
  exact
    { stack := by rw [Watch.see, still.stack]; rfl
      risen := still.risen
      worked := by simp [Watch.see, isWork, still.worked] }

/-- A call that is entered with no other call open, and left. -/
theorem during_holds
    {watch : Watch} (closed : watch.stack = [])
    {use : Inside call → Action calls Locals Unit} {worked : Bool}
    (works : worked =
      (watch.worked || watch.risen.isSome && isWork (.enter call)))
    (uses : ∀ inside, Stays (Under call watch.risen worked []) (use inside))
    (locals : Locals) :
    Action.Holds rising (fun _ _ => True)
      (fun outcome _ after =>
        (∃ result, outcome = .ok result) ∧ Left call watch.risen worked after)
      (during call use) locals watch := by
  apply Action.holds_bind.mpr
  refine ⟨trivial, ?_⟩
  rintro inside entered ⟨raised, rises, -, -, rfl⟩
  obtain rfl := eq_of_rises closed rises
  have under : Under call raised.risen worked []
      (raised.see (.enter call)) :=
    { stack := by rw [Watch.see, closed]; rfl
      risen := Or.inl rfl
      worked := works.symm }
  have rest : Action.Holds rising (fun _ _ => True)
      (fun outcome _ after =>
        (∃ result, outcome = .ok result) ∧ Left call raised.risen worked after)
      (do
        let _ ← attempt (use inside)
        Action.ofHost (ExceptT.mk (.call (.leave call) .done)))
      locals (raised.see (.enter call)) := by
    apply Action.holds_bind.mpr
    apply ((uses inside).attempt_holds locals under).imp
    rintro outcome after reached ⟨⟨value, rfl⟩, used⟩
    refine ⟨trivial, ?_⟩
    rintro result left ⟨last, rose, -, ⟨value, rfl⟩, rfl⟩
    exact ⟨⟨value, rfl⟩, used.left rose⟩
  exact rest

/-- A callback of the host, with the flag low: nothing else is open inside. -/
theorem hostCall_holds (locals : Locals) :
    Action.Holds rising (fun _ _ => True)
      (fun outcome _ after =>
        (∃ result, outcome = .ok result) ∧
          (after = {} ∨
            isInterruptible call = true ∧ after = { risen := some [call] }))
      (Action.ofHost (hostCall call)) locals {} := by
  refine ⟨trivial, ?_⟩
  rintro inside entered ⟨raised, rises, -, -, rfl⟩
  obtain rfl := eq_of_rises rfl rises
  refine ⟨trivial, ?_⟩
  rintro result left ⟨last, rose, -, ⟨value, rfl⟩, rfl⟩
  refine ⟨⟨value, rfl⟩, ?_⟩
  cases rose with
  | kept => exact Or.inl rfl
  | rises low inside =>
      obtain ⟨other, member, interruptible⟩ := inside
      cases List.mem_singleton.mp member
      exact Or.inr ⟨interruptible, rfl⟩

/-- Between calls: the flag is low, or work follows exactly an announcement. -/
inductive Level (registry : ToolRegistry calls Locals) : Watch → Prop where
  | low : Level registry {}
  | high (stack : List Call) (worked : Bool)
      (agrees : worked = true ↔ AnnouncesTool registry stack) :
      Level registry { risen := some stack, worked := worked }

theorem Level.closed {watch : Watch} (level : Level registry watch) :
    watch.stack = [] := by
  cases level with
  | low => rfl
  | high => rfl

theorem Level.worked_iff
    {watch : Watch} {stack : List Call} (level : Level registry watch)
    (risen : watch.risen = some stack) :
    watch.worked = true ↔ AnnouncesTool registry stack := by
  cases level with
  | low => cases risen
  | high stack worked agrees =>
      cases risen
      exact agrees

/-- The flag of the caller tells whether it rose. -/
theorem check_holds
    {watch : Watch} {post : Except Exception Bool → Locals → Watch → Prop}
    {locals : Locals} (level : Level registry watch)
    (low : watch = {} → post (.ok false) locals {})
    (high : watch.risen.isSome = true → post (.ok true) locals watch) :
    Action.Holds rising (fun _ _ => True) post
      (isSet (callerFlag true)) locals watch := by
  refine ⟨trivial, ?_⟩
  rintro stop after ⟨raised, rises, reads, -, rfl⟩
  have found : stop = raised.risen.isSome := reads
  cases level with
  | low =>
      obtain rfl := eq_of_rises rfl rises
      subst found
      exact low rfl
  | high stack worked agrees =>
      obtain rfl := eq_of_rises rfl rises
      subst found
      have same : Watch.see { risen := some stack, worked := worked } .load =
          { risen := some stack, worked := worked } := by
        simp [Watch.see, opened, isWork]
      rw [same]
      exact high rfl

theorem not_announcesTool
    {stack earlier : List Call} (ends : stack = earlier ++ [call])
    (other : ∀ message, call ≠ .onProgress message) :
    ¬ AnnouncesTool registry stack := by
  rintro ⟨name, rfl, -⟩
  have last := congrArg List.getLast? ends
  rw [List.getLast?_concat] at last
  exact other _ (Option.some.inj last).symm

/-- A turn that was started with the flag low. -/
theorem level_of_left
    {watch : Watch} (left : Left call none false watch)
    (other : ∀ message, call ≠ .onProgress message) : Level registry watch := by
  obtain ⟨stack, risen, worked⟩ := watch
  obtain rfl := left.stack
  obtain rfl := left.worked
  rcases left.risen with rfl | ⟨-, earlier, rfl⟩
  · exact .low
  · refine .high _ _ ?_
    simp [not_announcesTool rfl other]

/-! ## The calls of one turn -/

/-- What is assumed of a registry below. -/
def Unknown (registry : ToolRegistry calls Locals) : Prop :=
  ∀ name tool, registry.findTool name = some tool →
    ∃ definition confirms,
      tool = anyTool definition confirms ∧ definition.name = name

theorem usedRegistry_unknown
    (tools : Option (List (ToolDefinition × Bool))) :
    Unknown (usedRegistry tools) := by
  intro name tool found
  cases tools with
  | none => cases found
  | some tools => exact anyRegistry_findTool found

/-- The text that announces a tool call. -/
def announcement (name : String) : Call :=
  .onProgress ("Running project tool: " ++ name)

theorem announcesTool_iff {name : String} :
    AnnouncesTool registry [announcement name] ↔
      registry.hasTool name = true := by
  constructor
  · rintro ⟨other, same, registered⟩
    simp only [announcement, List.cons.injEq, Call.onProgress.injEq,
      and_true] at same
    rwa [(String.append_right_inj _).mp same]
  · intro registered
    exact ⟨name, rfl, registered⟩

/-- A call through the registry, behind its announcement. -/
theorem execute_holds
    {hasHandler : Bool} {name : String} {watch : Watch}
    (unknown : Unknown registry) (arguments : Json) (locals : Locals)
    (announced : watch = {} ∨ watch = { risen := some [announcement name] }) :
    Action.Holds rising (fun _ _ => True)
      (fun outcome _ after =>
        (∃ result, outcome = .ok result) ∧ Level registry after)
      (registry.execute name arguments
        { cancelRequested := callerFlag true
          confirm := hostConfirm hasHandler })
      locals watch := by
  unfold ToolRegistry.execute
  cases found : registry.findTool name with
  | none =>
      have unregistered : registry.hasTool name = false := by
        rw [ToolRegistry.hasTool, found]
        rfl
      refine ⟨⟨_, rfl⟩, ?_⟩
      rcases announced with rfl | rfl
      · exact .low
      · refine .high _ _ ?_
        rw [announcesTool_iff, unregistered]
  | some tool =>
      have registered : registry.hasTool name = true := by
        rw [ToolRegistry.hasTool, found]
        rfl
      obtain ⟨definition, confirms, rfl, rfl⟩ := unknown name tool found
      have runs : ∀ watch : Watch, watch.stack = [] →
          Action.Holds rising (fun _ _ => True)
            (fun outcome _ after =>
              (∃ result, outcome = .ok result) ∧
                Left (.tool definition.name arguments) watch.risen
                  (watch.worked || watch.risen.isSome && true) after)
            ((anyTool definition confirms).execute arguments
              { cancelRequested := callerFlag true
                confirm := hostConfirm hasHandler })
            locals watch :=
        fun watch closed =>
          @during_holds _ (.tool definition.name arguments) _ closed _ _ rfl
            (stays_useContext hasHandler true) locals
      rcases announced with rfl | rfl
      · apply (runs {} rfl).imp
        rintro outcome after reached ⟨returned, left⟩
        exact ⟨returned, level_of_left left (by simp)⟩
      · apply (runs _ rfl).imp
        rintro outcome after reached ⟨returned, left⟩
        refine ⟨returned, ?_⟩
        obtain ⟨stack, risen, worked⟩ := reached
        obtain rfl := left.stack
        obtain rfl := left.worked
        rcases left.risen with rfl | ⟨impossible, -⟩
        · exact .high _ _ (by simp [announcesTool_iff, registered])
        · cases impossible

end Session

/-! ## The prompt -/

section Prompt

variable {Locals : Type} {session : AgentSession calls Locals}
  {registry : ToolRegistry calls Locals} {text progress hasHandler : Bool}

/-- The announcement of a tool call, with the flag low. -/
theorem announce_holds (name : String) (locals : Locals) :
    Action.Holds rising (fun _ _ => True)
      (fun outcome _ after =>
        outcome = .ok () ∧
          (after = {} ∨ after = { risen := some [announcement name] }))
      (notify (hostCallbacks text progress).onProgress
        ("Running project tool: " ++ name))
      locals {} := by
  cases progress with
  | false => exact ⟨rfl, Or.inl rfl⟩
  | true =>
      have called := @hostCall_holds _ (announcement name) locals
      apply called.imp
      rintro outcome after reached ⟨⟨⟨⟩, rfl⟩, low | ⟨-, high⟩⟩
      · exact ⟨rfl, Or.inl low⟩
      · exact ⟨rfl, Or.inr high⟩

theorem runCalls_holds
    (confirms : session.confirmHandler = hostConfirm hasHandler)
    (unknown : Unknown registry) (pending : List ToolCall)
    (responses : List ToolResponse) (locals : Locals) (watch : Watch)
    (level : Level registry watch) :
    Action.Holds rising (fun _ _ => True)
      (fun outcome _ after =>
        (∃ collected, outcome = .ok collected) ∧ Level registry after)
      (AgentSession.runCalls session registry (hostCallbacks text progress)
        (callerFlag true) pending responses)
      locals watch := by
  induction pending generalizing responses locals watch with
  | nil => exact ⟨⟨_, rfl⟩, level⟩
  | cons call pending induction =>
      unfold AgentSession.runCalls
      apply Action.holds_bind.mpr
      apply check_holds level
      · rintro rfl
        apply Action.holds_bind.mpr
        apply (announce_holds call.name locals).imp
        rintro outcome after reached ⟨rfl, announced⟩
        apply Action.holds_bind.mpr
        rw [confirms]
        apply (execute_holds unknown call.arguments after announced).imp
        rintro outcome left reached ⟨⟨result, rfl⟩, level⟩
        exact induction _ left reached level
      · exact fun _ => ⟨⟨none, rfl⟩, level⟩

/-- How a prompt ends: as cancelled when the flag rose. -/
def Ends (registry : ToolRegistry calls Locals)
    (outcome : Except Exception ApiResult) (watch : Watch) : Prop :=
  Level registry watch ∧ (watch ≠ {} → Cancelled outcome)

theorem ends_low (outcome : Except Exception ApiResult) :
    Ends registry outcome {} :=
  ⟨.low, fun high => absurd rfl high⟩

theorem ends_cancelled {watch : Watch} (level : Level registry watch) :
    Ends registry (.ok AgentSession.requestCancelled) watch :=
  ⟨level, fun _ => ⟨_, rfl, rfl, rfl⟩⟩

theorem continueTurn_holds
    (request : ContinueTurn) (locals : Locals) :
    Action.Holds rising (fun _ _ => True)
      (fun outcome _ after =>
        (∃ turn, outcome = .ok turn) ∧ Level registry after)
      (during (.continueTurn request)
        (playTurn (hostCallbacks text progress) (callerFlag true)))
      locals {} := by
  apply (@during_holds _ (.continueTurn request) _ rfl _ _ rfl
    (stays_playTurn text progress true) locals).imp
  rintro outcome after reached ⟨returned, left⟩
  exact ⟨returned, level_of_left left (by simp)⟩

theorem startTurn_holds
    (request : StartTurn) (locals : Locals) :
    Action.Holds rising (fun _ _ => True)
      (fun outcome _ after =>
        (∃ turn, outcome = .ok turn) ∧ Level registry after)
      (during (.startTurn request)
        (playTurn (hostCallbacks text progress) (callerFlag true)))
      locals {} := by
  apply (@during_holds _ (.startTurn request) _ rfl _ _ rfl
    (stays_playTurn text progress true) locals).imp
  rintro outcome after reached ⟨returned, left⟩
  exact ⟨returned, level_of_left left (by simp)⟩

theorem turnLoop_holds
    (confirms : session.confirmHandler = hostConfirm hasHandler)
    (unknown : Unknown registry) (round : Int) (turn : ModelTurn)
    (locals : Locals) :
    Action.Holds rising (fun _ _ => True)
      (fun outcome _ after => Ends registry outcome after)
      (AgentSession.turnLoop session anyProvider registry
        (hostCallbacks text progress) (callerFlag true) round turn)
      locals {} := by
  -- The rounds that are left decrease with every iteration.
  induction left : (session.config.maxToolRounds - round).toNat
    using Nat.strongRecOn generalizing round turn locals with
  | ind left induction =>
      unfold AgentSession.turnLoop
      by_cases final : turn.toolCalls = []
      · rw [if_pos final]
        exact ends_low _
      · rw [if_neg final]
        by_cases exhausted : round + 1 > session.config.maxToolRounds
        · rw [if_pos exhausted]
          exact ends_low _
        · rw [if_neg exhausted]
          apply Action.holds_bind.mpr
          apply (runCalls_holds confirms unknown _ _ _ _ .low).imp
          rintro outcome after reached ⟨⟨_ | responses, rfl⟩, level⟩
          · exact ends_cancelled level
          · apply Action.holds_bind.mpr
            apply check_holds level
            · rintro rfl
              apply Action.holds_bind.mpr
              apply (continueTurn_holds _ after).imp
              rintro outcome continued reached ⟨⟨next, rfl⟩, level⟩
              apply Action.holds_bind.mpr
              apply check_holds level
              · rintro rfl
                by_cases ok : next.ok = true
                · simp only [Bool.false_eq_true, if_false, ok, if_true]
                  apply induction _ _ (round + 1) next continued rfl
                  omega
                · simp only [Bool.false_eq_true, if_false, ok]
                  exact ends_low _
              · exact fun _ => ends_cancelled level
            · exact fun _ => ends_cancelled level

theorem runTurns_holds
    (confirms : session.confirmHandler = hostConfirm hasHandler)
    (unknown : Unknown registry) (input : String) (locals : Locals) :
    Action.Holds rising (fun _ _ => True)
      (fun outcome _ after => Ends registry outcome after)
      (AgentSession.runTurns session anyProvider registry
        (hostCallbacks text progress) (callerFlag true) input)
      locals {} := by
  unfold AgentSession.runTurns
  apply Action.holds_bind.mpr
  apply (startTurn_holds _ locals).imp
  rintro outcome started reached ⟨⟨turn, rfl⟩, level⟩
  apply Action.holds_bind.mpr
  apply check_holds level
  · rintro rfl
    by_cases ok : turn.ok = true
    · simp only [Bool.false_eq_true, if_false, ok, if_true]
      exact turnLoop_holds confirms unknown 0 turn started
    · simp only [Bool.false_eq_true, if_false, ok]
      exact ends_low _
  · exact fun _ => ends_cancelled level

/-- An operation of the session itself. -/
theorem Level.step
    {watch after : Watch} {op : CallOp} {answer : calls.Answer op}
    (level : Level registry watch) (closed : opened [] op = [])
    (idle : isWork op = false)
    (performed : rising.perform watch op answer after) : after = watch := by
  obtain ⟨raised, rises, -, -, rfl⟩ := performed
  cases level with
  | low =>
      obtain rfl := eq_of_rises rfl rises
      simp [Watch.see, closed]
  | high stack worked agrees =>
      obtain rfl := eq_of_rises rfl rises
      simp [Watch.see, closed, idle]

theorem step_bind_holds
    {Value : Type} {op : CallOp} {watch : Watch} {locals : Locals}
    {post : Except Exception Value → Locals → Watch → Prop}
    {rest : calls.Answer op → Action calls Locals Value}
    (level : Level registry watch) (closed : opened [] op = [])
    (idle : isWork op = false)
    (continues : ∀ answer,
      Action.Holds rising (fun _ _ => True) post (rest answer) locals watch) :
    Action.Holds rising (fun _ _ => True) post
      (Action.ofHost (always op) >>= rest) locals watch := by
  apply Action.holds_bind.mpr
  refine ⟨trivial, ?_⟩
  intro answer after performed
  rw [level.step closed idle performed]
  exact continues answer

/-- Trimming is no call during which the flag rises. -/
theorem trimHistory_holds (maxEntries : Nat) (locals : Locals) :
    Action.Holds rising (fun _ _ => True)
      (fun outcome _ after => outcome = .ok () ∧ after = {})
      (Action.ofHost (hostCall (.trimHistory maxEntries))) locals {} := by
  apply (@hostCall_holds _ (.trimHistory maxEntries) locals).imp
  rintro outcome after reached ⟨⟨⟨⟩, rfl⟩, rfl | ⟨impossible, -⟩⟩
  · exact ⟨rfl, rfl⟩
  · cases impossible

/-- What a guard does behind the body of a prompt. -/
theorem release_holds
    {op : CallOp} {watch : Watch} {outcome : Except Exception ApiResult}
    (ends : Ends registry outcome watch) (closed : opened [] op = [])
    (idle : isWork op = false) (locals : Locals) :
    Action.Holds rising (fun _ _ => True)
      (fun _ _ after => Ends registry outcome after)
      (Action.ofHost (always op)) locals watch := by
  refine ⟨trivial, ?_⟩
  intro answer after performed
  rwa [ends.1.step closed idle performed]

theorem promptLocked_holds
    (config : AgentConfig) (hasProvider : Bool) (apiKey activeModel : String)
    (tools : Option (List (ToolDefinition × Bool))) (hasHandler : Bool)
    (input : String) :
    Action.Holds rising (fun _ _ => True)
      (fun outcome _ after => Ends (usedRegistry tools) outcome after)
      (AgentSession.promptLocked
        (anySession config hasProvider apiKey activeModel tools hasHandler)
        (hostCallbacks text progress) (callerFlag true) input)
      () {} := by
  unfold AgentSession.promptLocked
  cases hasProvider with
  | false => exact ends_low _
  | true =>
      show Action.Holds _ _ _ (if apiKey = "" then _ else _) _ _
      split_ifs with noKey noModel
      · exact ends_low _
      · exact ends_low _
      · have calm : Level (usedRegistry tools) {} := .low
        apply Action.holds_bind.mpr
        apply check_holds calm
        · rintro -
          apply Action.holds_bind.mpr
          apply (trimHistory_holds _ ()).imp
          rintro outcome trimmed reached ⟨rfl, rfl⟩
          apply step_bind_holds calm rfl rfl
          rintro ⟨⟩
          apply Action.holds_scopeGuard.mpr
          have turns : Action.Holds rising (fun _ _ => True)
              (fun outcome _ after => Ends (usedRegistry tools) outcome after)
              (AgentSession.runTurns
                (anySession config true apiKey activeModel tools hasHandler)
                anyProvider (usedRegistry tools)
                (hostCallbacks text progress) (callerFlag true) input)
              () {} :=
            runTurns_holds rfl (usedRegistry_unknown tools) input ()
          apply turns.imp
          intro outcome after reached ends
          exact release_holds ends rfl rfl after
        · rintro ⟨⟩

theorem prompt_holds
    (config : AgentConfig) (hasProvider : Bool) (apiKey activeModel : String)
    (tools : Option (List (ToolDefinition × Bool))) (hasHandler : Bool)
    (input : String) :
    Action.Holds rising (fun _ _ => True)
      (fun outcome _ after => Ends (usedRegistry tools) outcome after)
      (AgentSession.prompt
        (anySession config hasProvider apiKey activeModel tools hasHandler)
        (hostCallbacks text progress) (callerFlag true) input)
      () {} := by
  have calm : Level (usedRegistry tools) {} := .low
  apply step_bind_holds calm rfl rfl
  rintro ⟨⟩
  apply Action.holds_scopeGuard.mpr
  apply (promptLocked_holds config hasProvider apiKey activeModel tools
    hasHandler input).imp
  intro outcome after reached ends
  exact release_holds ends rfl rfl after

/--
Once the flag rose inside a call, a prompt starts no turn and no tool and ends
as cancelled, exactly when the call was not the announcement of a registered
tool.
-/
theorem rising_flag_stops_iff
    (config : AgentConfig) (hasProvider : Bool) (apiKey activeModel : String)
    (tools : Option (List (ToolDefinition × Bool)))
    (hasHandler text progress : Bool) (input : String)
    {before after : List CallEvent} {outcome : Except Exception ApiResult}
    (run : Action.Finishes
      (AgentSession.prompt
        (anySession config hasProvider apiKey activeModel tools hasHandler)
        (hostCallbacks text progress) (callerFlag true) input)
      () (before ++ after) outcome ())
    (returned : ∀ event ∈ before ++ after, Returned event)
    (rises : RisesBetween before after) :
    StopsCooperatively after outcome ↔
      ¬ AnnouncesTool (usedRegistry tools) (openCalls before) := by
  have verified := @prompt_holds text progress config hasProvider apiKey
    activeModel tools hasHandler input
  cases after with
  | nil =>
      -- Every call is left by the end of the prompt.
      rw [List.append_nil] at run returned
      have closed : openCalls before = [] :=
        (verified.traces run (traces_low [] rises.low returned)).1.closed
      obtain ⟨call, member, -⟩ := rises.inside
      rw [closed] at member
      cases member
  | cons event after =>
      obtain ⟨level, cancelled⟩ :=
        verified.traces run (traces_rising rises returned)
      have started := level.worked_iff rfl
      constructor
      · rintro ⟨idle, -⟩ announces
        obtain ⟨other, member, work⟩ :=
          List.any_eq_true.mp (started.mpr announces)
        rw [idle other member] at work
        cases work
      · intro quiet
        refine ⟨fun other member => ?_, cancelled (by simp)⟩
        rw [← Bool.not_eq_true]
        intro work
        exact quiet (started.mp (List.any_eq_true.mpr ⟨other, member, work⟩))

end Prompt

/-! ## A tool that is started after the flag rose -/

/-- The flag rises inside the progress callback. -/
def interrupted (history : List CallEvent) : Bool :=
  history.any fun event =>
    match event.op with
    | .enter (.onProgress _) => true
    | _ => false

/-- A provider that asks for one search, and a user who cancels it. -/
def cancelsSearch : List CallEvent → (op : CallOp) → calls.Answer op
  | history, .load => interrupted history
  | _, .leave (.startTurn _) =>
      .ok
        { ok := true
          toolCalls := [{ id := "call_1", name := "search", arguments := .null }] }
  | _, op => quiet op

/-- The tools of the session. -/
def searchTools : Option (List (ToolDefinition × Bool)) :=
  some [({ name := "search", description := "", parameterSchema := .null }, false)]

def cancelledRun : List CallEvent × (Except Exception ApiResult × Unit) :=
  Program.scripted cancelsSearch
    ((AgentSession.prompt (anySession {} true "key" "model" searchTools false)
      (hostCallbacks false true) (callerFlag true) "find it").run.run ())
    []

theorem finishes_cancelledRun :
    Action.Finishes
      (AgentSession.prompt (anySession {} true "key" "model" searchTools false)
        (hostCallbacks false true) (callerFlag true) "find it")
      () (cancelledRun.1.take 10 ++ cancelledRun.1.drop 10) cancelledRun.2.1
      () := by
  rw [List.take_append_drop]
  exact Action.finishes_scripted cancelsSearch _ _

theorem returned_cancelledRun :
    ∀ event ∈ cancelledRun.1.take 10 ++ cancelledRun.1.drop 10,
      Returned event := by
  decide +kernel

theorem rises_cancelledRun :
    RisesBetween (cancelledRun.1.take 10) (cancelledRun.1.drop 10) where
  inside := by decide +kernel
  low := by decide +kernel
  high := by decide +kernel

/-- The search is started although the flag rose before. -/
theorem search_started_after_cancel :
    ¬ ∀ (config : AgentConfig) (hasProvider : Bool)
        (apiKey activeModel : String)
        (tools : Option (List (ToolDefinition × Bool)))
        (hasHandler text progress : Bool) (input : String)
        (before after : List CallEvent) (outcome : Except Exception ApiResult),
      Action.Finishes
        (AgentSession.prompt
          (anySession config hasProvider apiKey activeModel tools hasHandler)
          (hostCallbacks text progress) (callerFlag true) input)
        () (before ++ after) outcome () →
      (∀ event ∈ before ++ after, Returned event) →
      RisesBetween before after → StopsCooperatively after outcome := by
  intro stops
  have idle := (stops _ _ _ _ _ _ _ _ _ _ _ _ finishes_cancelledRun
    returned_cancelledRun rises_cancelledRun).1
  have started : ∃ event ∈ cancelledRun.1.drop 10, isWork event.op = true := by
    decide +kernel
  obtain ⟨event, member, work⟩ := started
  rw [idle event member] at work
  cases work

/-- The callback that announces the search is the open call. -/
theorem rising_flag_stops_iff_cancelledRun :
    StopsCooperatively (cancelledRun.1.drop 10) cancelledRun.2.1 ↔
      ¬ AnnouncesTool (usedRegistry searchTools)
        (openCalls (cancelledRun.1.take 10)) :=
  rising_flag_stops_iff {} true "key" "model" searchTools false false true
    "find it" finishes_cancelledRun returned_cancelledRun rises_cancelledRun

end ArnCore.Agent.CooperativeStop
