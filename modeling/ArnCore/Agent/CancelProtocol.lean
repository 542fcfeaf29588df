import ArnCore.Agent.BracketedCalls

/-!
# The phases of prompting, configuring and cancelling

Threads prompt, configure and cancel one session.  What a call does to the
mutex and the published pointer is a sequence of phases: an operation commits
itself when nothing but an exception keeps it from calling its provider, and a
cancellation looks at the pointer and may then have to wait for the mutex.
-/

namespace ArnCore.Agent.CancelProtocol

open ArnCore.Interaction
open ArnCore.Provider
open ArnCore.Tool
open ArnCore.Agent.BracketedCalls

/-! ## The calls of threads -/

/-- What a prompt finds in the members of its session. -/
structure Members where
  config : AgentConfig := {}
  hasProvider : Bool := true
  apiKey : String
  activeModel : String
  tools : Option (List (ToolDefinition × Bool)) := none
  hasHandler : Bool := false

/-- The provider, the key and the model are there. -/
def Members.complete (members : Members) : Bool :=
  members.hasProvider && members.apiKey != "" && members.activeModel != ""

/-- The session with these members. -/
def Members.session (members : Members) : AgentSession calls Unit :=
  anySession members.config members.hasProvider members.apiKey
    members.activeModel members.tools members.hasHandler

/-- A provider that is configured. -/
def anySource {Locals : Type} : IModelSource calls Locals where
  listModels apiKey _ := Action.ofHost (hostCall (.listModels apiKey))
  preferredModel models := Action.ofHost (hostCall (.preferredModel models))

inductive SessionCall where
  | prompt (members : Members) (text progress attached : Bool)
      (input : String)
  | configure (hasProvider : Bool) (apiKey : String) (attached : Bool)
  | cancel (hasProvider : Bool)

/-- The mutex of the session. -/
def sessionMutex : Mutex calls where
  lock := always .lock
  unlock := always .unlock

/-- The program of a call; a cancellation returns nothing of interest. -/
def body : SessionCall → Program calls (Except Exception ApiResult)
  | .prompt members text progress attached input => do
      let (outcome, _) ←
        (AgentSession.prompt members.session (hostCallbacks text progress)
          (callerFlag attached) input).run.run ()
      pure outcome
  | .configure hasProvider apiKey attached => do
      let (outcome, _) ←
        (AgentSession.configureProvider sessionMutex
          (if hasProvider then some anySource else none) apiKey
          (callerFlag attached)).run.run {}
      pure outcome
  | .cancel hasProvider => do
      let (outcome, _) ←
        (AgentSession.cancelActiveRequest
          (Members.session
            { hasProvider := hasProvider
              apiKey := ""
              activeModel := "" })).run.run ()
      pure (outcome.map fun _ => {})

/-! ## The memory they share -/

/-- The mutex and the published pointer, each with the thread behind it. -/
structure Memory (Thread : Type) where
  holder : Option Thread := none
  pointer : Option Thread := none

variable {Thread : Type}

/-- The mutex is taken when it is free, and the pointer tells what is published. -/
def Memory.Answers (memory : Memory Thread) :
    (op : CallOp) → calls.Answer op → Prop
  | .lock, _ => memory.holder = none
  | .present, found => found = memory.pointer.isSome
  | _, _ => True

def Memory.update (memory : Memory Thread) (thread : Thread) :
    CallOp → Memory Thread
  | .lock => { memory with holder := some thread }
  | .unlock => { memory with holder := none }
  | .publish => { memory with pointer := some thread }
  | .clear => { memory with pointer := none }
  | _ => memory

/-- The memory as the world of one thread. -/
def memoryOf (thread : Thread) : World calls (Memory Thread) where
  perform memory op answer after :=
    memory.Answers op answer ∧ after = memory.update thread op

/-! ## The phases of a call -/

/-- What an operation goes on to do while it holds the mutex. -/
inductive Stage where
  | checking
  | committed
  | published
  | harmless
deriving DecidableEq, Repr

/-- The flag decides whether the provider is called at all. -/
def Stage.checked : Bool → Stage
  | true => .harmless
  | false => .committed

inductive Phase where
  | before (stage : Stage)
  | holding (stage : Stage)
  | looking
  | waiting
  | direct
  | done
deriving DecidableEq, Repr

def Phase.after : Phase → CallEvent → Phase
  | .before stage, ⟨.lock, _⟩ => .holding stage
  | .holding .checking, ⟨.load, stop⟩ => .holding (.checked stop)
  | .holding .committed, ⟨.publish, _⟩ => .holding .published
  | .holding .published, ⟨.clear, _⟩ => .holding .harmless
  | .holding _, ⟨.unlock, _⟩ => .done
  | .looking, ⟨.present, true⟩ => .direct
  | .looking, ⟨.present, false⟩ => .waiting
  | .waiting, ⟨.lock, _⟩ => .holding .harmless
  | phase, _ => phase

/-- The phase of a call and the calls that are open in it. -/
structure Watch where
  phase : Phase
  stack : List Call := []

def observe (watch : Watch) (event : CallEvent) : Watch where
  phase := watch.phase.after event
  stack := opened watch.stack event.op

/-- The operation holds the mutex. -/
def Watch.holds (watch : Watch) : Bool :=
  match watch.phase with
  | .holding _ => true
  | _ => false

/-- The operation published its provider. -/
def Watch.publishes (watch : Watch) : Bool :=
  watch.phase == .holding .published

/-- What a prompt does behind its lock. -/
def Members.stage (members : Members) (attached : Bool) : Stage :=
  if members.complete then
    if attached then .checking else .committed
  else
    .harmless

def start : SessionCall → Watch
  | .prompt members _ _ attached _ =>
      { phase := .before (members.stage attached) }
  | .configure hasProvider _ _ =>
      { phase := .before (if hasProvider then .committed else .harmless) }
  | .cancel _ => { phase := .looking }

/-- What an operation may do in its phase. -/
def Allowed (watch : Watch) : CallOp → Prop
  | .load =>
      watch.phase = .holding .committed ∨ watch.phase = .holding .published ∨
        (watch.phase = .holding .checking ∧ watch.stack = [])
  | .lock =>
      ((∃ stage, watch.phase = .before stage ∧ stage ≠ .published) ∨
        watch.phase = .waiting) ∧ watch.stack = []
  | .unlock =>
      (watch.phase = .holding .committed ∨ watch.phase = .holding .harmless) ∧
        watch.stack = []
  | .publish => watch.phase = .holding .committed ∧ watch.stack = []
  | .clear => watch.phase = .holding .published ∧ watch.stack = []
  | .present => watch.phase = .looking ∧ watch.stack = []
  | .enter call =>
      watch.phase = .holding .committed ∨ watch.phase = .holding .published ∨
        call = .cancelProvider
  | .leave _ => True

/-! ## Inside the calls of a prompt -/

section Calls

variable {Locals Value : Type} {stage : Stage} {stack : List Call}

/-- The stages in which calls are made. -/
def Calling (stage : Stage) : Prop :=
  stage = .committed ∨ stage = .published

theorem observe_load (calling : Calling stage) (stop : Bool) :
    observe ⟨.holding stage, stack⟩ ⟨.load, stop⟩ =
      ⟨.holding stage, stack⟩ := by
  rcases calling with rfl | rfl
  · rfl
  · rfl

theorem observe_enter (phase : Phase) (call : Call) (inside : Inside call) :
    observe ⟨phase, stack⟩ ⟨.enter call, inside⟩ = ⟨phase, call :: stack⟩ := by
  rcases phase with _ | (_ | _ | _ | _) | _ | _ | _ | _ <;> rfl

theorem observe_leave
    (phase : Phase) (call : Call) (outcome : Except Exception call.Result) :
    observe ⟨phase, stack⟩ ⟨.leave call, outcome⟩ = ⟨phase, stack.tail⟩ := by
  rcases phase with _ | (_ | _ | _ | _) | _ | _ | _ | _ <;> rfl

/-- An action that is left in the phase and with the calls it began with. -/
abbrev Keeps (watch : Watch) (action : Action calls Locals Value) : Prop :=
  Action.Keeps observe Allowed watch action

theorem keeps_check (calling : Calling stage) (attached : Bool) :
    Keeps ⟨.holding stage, stack⟩
      (isSet (callerFlag attached) : Action calls Locals Bool) := by
  cases attached with
  | false => exact .pure false
  | true =>
      intro locals
      refine ⟨?_, ?_⟩
      · rcases calling with rfl | rfl
        · exact Or.inl rfl
        · exact Or.inr (Or.inl rfl)
      · rintro stop after rfl
        exact observe_load calling stop

theorem enter_allowed (calling : Calling stage) (call : Call) :
    Allowed ⟨.holding stage, stack⟩ (.enter call) := by
  rcases calling with rfl | rfl
  · exact Or.inl rfl
  · exact Or.inr (Or.inl rfl)

/-- A call of the host, where it may be entered. -/
theorem keeps_hostCall
    {phase : Phase} {call : Call}
    (enters : Allowed ⟨phase, stack⟩ (.enter call)) :
    Keeps ⟨phase, stack⟩
      (Action.ofHost (hostCall call) : Action calls Locals call.Result) := by
  intro locals
  refine ⟨enters, ?_⟩
  rintro inside entered rfl
  refine ⟨trivial, ?_⟩
  rintro outcome left rfl
  have opens := @observe_enter stack phase call inside
  exact (congrArg (observe · _) opens).trans (observe_leave phase call outcome)

theorem keeps_attempt
    {watch : Watch} {action : Action calls Locals Value}
    (keeps : Keeps watch action) : Keeps watch (attempt action) :=
  .tryCatch (.bind keeps fun _ => .pure _) fun _ => .pure _

/-- An attempt never throws. -/
theorem attempt_holds
    {watch : Watch} {action : Action calls Locals Value}
    (keeps : Keeps watch action) (locals : Locals) :
    Action.Holds (monitored observe) Allowed
      (fun outcome _ after =>
        (∃ value, outcome = .ok value) ∧ after = watch)
      (attempt action) locals watch := by
  apply holds_attempt.mpr
  apply (keeps locals).imp
  rintro outcome after reached rfl
  exact ⟨⟨outcome, rfl⟩, rfl⟩

/-- A call is left with the same calls open as before. -/
theorem keeps_during
    {call : Call} {use : Inside call → Action calls Locals Unit}
    (calling : Calling stage)
    (uses : ∀ inside, Keeps ⟨.holding stage, call :: stack⟩ (use inside)) :
    Keeps ⟨.holding stage, stack⟩ (during call use) := by
  intro locals
  apply Action.holds_bind.mpr
  refine ⟨enter_allowed calling call, ?_⟩
  rintro inside entered rfl
  have rest : Action.Holds (monitored observe) Allowed
      (fun _ _ after => after = ⟨.holding stage, stack⟩)
      (do
        let _ ← attempt (use inside)
        Action.ofHost (ExceptT.mk (.call (.leave call) .done)))
      locals ⟨.holding stage, call :: stack⟩ := by
    apply Action.holds_bind.mpr
    apply (attempt_holds (uses inside) locals).imp
    rintro outcome after reached ⟨⟨value, rfl⟩, rfl⟩
    refine ⟨trivial, ?_⟩
    rintro result left rfl
    exact observe_leave _ call result
  exact (@observe_enter stack (.holding stage) call inside).symm ▸ rest

/-- A provider takes its turn. -/
theorem keeps_playTurn
    (calling : Calling stage) (text progress attached : Bool)
    (turn : Program turns Unit) :
    Keeps ⟨.holding stage, stack⟩
      (playTurn (hostCallbacks text progress) (callerFlag attached) turn :
        Action calls Locals Unit) := by
  induction turn with
  | done value => exact .pure ()
  | call op next induction =>
      cases op with
      | onText delta =>
          refine .bind (keeps_attempt ?_) fun shown => induction shown
          cases text with
          | false => exact .pure ()
          | true => exact keeps_hostCall (enter_allowed calling (.onText delta))
      | onProgress message =>
          refine .bind (keeps_attempt ?_) fun shown => induction shown
          cases progress with
          | false => exact .pure ()
          | true =>
              exact keeps_hostCall (enter_allowed calling (.onProgress message))
      | cancelRequested =>
          exact .bind (keeps_check calling attached) fun stop => induction stop

/-- A tool uses its context. -/
theorem keeps_useContext
    (calling : Calling stage) (hasHandler attached : Bool)
    (uses : Program contexts Unit) :
    Keeps ⟨.holding stage, stack⟩
      (useContext
        { cancelRequested := callerFlag attached
          confirm := hostConfirm hasHandler } uses :
        Action calls Locals Unit) := by
  induction uses with
  | done value => exact .pure ()
  | call op next induction =>
      cases op with
      | confirm request =>
          cases hasHandler with
          | false => exact induction none
          | true =>
              exact .bind
                (keeps_attempt
                  (keeps_hostCall (enter_allowed calling (.confirm request))))
                fun approved => induction (some approved)
      | cancelRequested =>
          exact .bind (keeps_check calling attached) fun stop => induction stop

end Calls

/-! ## Inside a prompt -/

section Prompt

variable {session : AgentSession calls Unit}
  {registry : ToolRegistry calls Unit}
  {text progress attached hasHandler : Bool} {stage : Stage}

/-- Every tool of the registry is one about which nothing is known. -/
def Unknown (registry : ToolRegistry calls Unit) : Prop :=
  ∀ name tool, registry.findTool name = some tool →
    ∃ definition confirms, tool = anyTool definition confirms

theorem unknown_getD (tools : Option (List (ToolDefinition × Bool))) :
    Unknown ((tools.map anyRegistry).getD {}) := by
  intro name tool found
  cases tools with
  | none => cases found
  | some tools =>
      obtain ⟨definition, confirms, same, -⟩ := anyRegistry_findTool found
      exact ⟨definition, confirms, same⟩

theorem keeps_execute
    (calling : Calling stage) (unknown : Unknown registry) (name : String)
    (arguments : Json) :
    Keeps ⟨.holding stage, []⟩
      (registry.execute name arguments
        { cancelRequested := callerFlag attached
          confirm := hostConfirm hasHandler }) := by
  unfold ToolRegistry.execute
  cases found : registry.findTool name with
  | none => exact .pure _
  | some tool =>
      obtain ⟨definition, confirms, rfl⟩ := unknown name tool found
      exact @keeps_during _ _ [] (.tool definition.name arguments) _ calling
        (keeps_useContext calling hasHandler attached)

theorem keeps_runCalls
    (calling : Calling stage)
    (confirms : session.confirmHandler = hostConfirm hasHandler)
    (unknown : Unknown registry) (pending : List ToolCall)
    (responses : List ToolResponse) :
    Keeps ⟨.holding stage, []⟩
      (AgentSession.runCalls session registry (hostCallbacks text progress)
        (callerFlag attached) pending responses) := by
  induction pending generalizing responses with
  | nil => exact .pure _
  | cons call pending induction =>
      refine .bind (keeps_check calling attached) fun stop => ?_
      cases stop with
      | true => exact .pure none
      | false =>
          refine .bind ?_ fun _ => ?_
          · cases progress with
            | false => exact .pure ()
            | true =>
                exact keeps_hostCall
                  (enter_allowed calling (.onProgress _))
          · rw [confirms]
            exact .bind (keeps_execute calling unknown _ _)
              fun execution => induction _

theorem keeps_turnLoop
    (calling : Calling stage)
    (confirms : session.confirmHandler = hostConfirm hasHandler)
    (unknown : Unknown registry) (round : Int) (turn : ModelTurn) :
    Keeps ⟨.holding stage, []⟩
      (AgentSession.turnLoop session anyProvider registry
        (hostCallbacks text progress) (callerFlag attached) round turn) := by
  -- The rounds that are left decrease with every iteration.
  induction left : (session.config.maxToolRounds - round).toNat
    using Nat.strongRecOn generalizing round turn with
  | ind left induction =>
      unfold AgentSession.turnLoop
      by_cases final : turn.toolCalls = []
      · rw [if_pos final]
        exact .pure _
      · rw [if_neg final]
        by_cases exhausted : round + 1 > session.config.maxToolRounds
        · rw [if_pos exhausted]
          exact .pure _
        · rw [if_neg exhausted]
          refine .bind (keeps_runCalls calling confirms unknown _ _)
            fun collected => ?_
          cases collected with
          | none => exact .pure _
          | some responses =>
              refine .bind (keeps_check calling attached) fun stop => ?_
              cases stop with
              | true => exact .pure _
              | false =>
                  refine .bind
                    (@keeps_during _ _ [] (.continueTurn _) _ calling
                      (keeps_playTurn calling text progress attached))
                    fun next => ?_
                  refine .bind (keeps_check calling attached) fun stop => ?_
                  cases stop with
                  | true => exact .pure _
                  | false =>
                      by_cases ok : next.ok = true
                      · simp only [Bool.false_eq_true, if_false, ok, if_true]
                        exact induction _ (by omega) (round + 1) next rfl
                      · simp only [Bool.false_eq_true, if_false, ok]
                        exact .pure _

theorem keeps_runTurns
    (calling : Calling stage)
    (confirms : session.confirmHandler = hostConfirm hasHandler)
    (unknown : Unknown registry) (input : String) :
    Keeps ⟨.holding stage, []⟩
      (AgentSession.runTurns session anyProvider registry
        (hostCallbacks text progress) (callerFlag attached) input) := by
  refine .bind
    (@keeps_during _ _ [] (.startTurn _) _ calling
      (keeps_playTurn calling text progress attached)) fun turn => ?_
  refine .bind (keeps_check calling attached) fun stop => ?_
  cases stop with
  | true => exact .pure _
  | false =>
      by_cases ok : turn.ok = true
      · simp only [Bool.false_eq_true, if_false, ok, if_true]
        exact keeps_turnLoop calling confirms unknown 0 turn
      · simp only [Bool.false_eq_true, if_false, ok]
        exact .pure _

end Prompt

/-! ## Every call follows its phases -/

/-- The mutex may be released. -/
inductive Releasable : Watch → Prop where
  | committed : Releasable ⟨.holding .committed, []⟩
  | harmless : Releasable ⟨.holding .harmless, []⟩

theorem Releasable.released
    {watch : Watch} (releasable : Releasable watch) :
    (observe watch ⟨.unlock, ()⟩).holds = false := by
  cases releasable with
  | committed => rfl
  | harmless => rfl

theorem Releasable.unlocks
    {watch : Watch} (releasable : Releasable watch) :
    Allowed watch .unlock := by
  cases releasable with
  | committed => exact ⟨Or.inl rfl, rfl⟩
  | harmless => exact ⟨Or.inr rfl, rfl⟩

section Bodies

variable {Locals Value : Type} {text progress attached : Bool}

/-- What is done under the mutex. -/
theorem guarded_holds
    {watch : Watch} {stage : Stage} {body : Action calls Locals Value}
    {locals : Locals} (locks : Allowed watch .lock)
    (enters : observe watch ⟨.lock, ()⟩ = ⟨.holding stage, []⟩)
    (runs : Action.Holds (monitored observe) Allowed
      (fun _ _ after => Releasable after) body locals ⟨.holding stage, []⟩) :
    Action.Holds (monitored observe) Allowed
      (fun _ _ after => after.holds = false)
      (sessionMutex.guarded body) locals watch := by
  apply Action.holds_bind.mpr
  refine ⟨locks, ?_⟩
  rintro ⟨⟩ locked rfl
  have rest : Action.Holds (monitored observe) Allowed
      (fun _ _ after => after.holds = false)
      (Action.scopeGuard body (Action.ofHost sessionMutex.unlock))
      locals ⟨.holding stage, []⟩ := by
    apply Action.holds_scopeGuard.mpr
    apply runs.imp
    intro outcome after reached releasable
    refine ⟨releasable.unlocks, ?_⟩
    rintro ⟨⟩ unlocked rfl
    exact releasable.released
  exact enters.symm ▸ rest

/-- The turns of a prompt, between publication and withdrawal. -/
theorem published_holds (members : Members) (input : String) :
    Action.Holds (monitored observe) Allowed
      (fun _ _ after => Releasable after)
      (do
        Action.ofHost (always .publish)
        Action.scopeGuard
          (AgentSession.runTurns members.session anyProvider
            (members.session.tools.getD {}) (hostCallbacks text progress)
            (callerFlag attached) input)
          (Action.ofHost (always .clear)))
      () ⟨.holding .committed, []⟩ := by
  apply Action.holds_bind.mpr
  refine ⟨⟨rfl, rfl⟩, ?_⟩
  rintro ⟨⟩ published rfl
  have rest : Action.Holds (monitored observe) Allowed
      (fun _ _ after => Releasable after)
      (Action.scopeGuard
        (AgentSession.runTurns members.session anyProvider
          (members.session.tools.getD {}) (hostCallbacks text progress)
          (callerFlag attached) input)
        (Action.ofHost (always .clear)))
      () ⟨.holding .published, []⟩ := by
    apply Action.holds_scopeGuard.mpr
    have turns := @keeps_runTurns members.session _ text progress attached
      members.hasHandler .published (Or.inr rfl) rfl
      (unknown_getD members.tools) input
    apply (turns ()).imp
    rintro outcome after reached rfl
    refine ⟨⟨rfl, rfl⟩, ?_⟩
    rintro ⟨⟩ cleared rfl
    exact .harmless
  exact rest

/-- A prompt that goes on to call its provider. -/
theorem committed_holds (members : Members) (input : String) :
    Action.Holds (monitored observe) Allowed
      (fun _ _ after => Releasable after)
      (do
        Action.ofHost (hostCall (.trimHistory members.config.maxHistoryEntries))
        Action.ofHost (always .publish)
        Action.scopeGuard
          (AgentSession.runTurns members.session anyProvider
            (members.session.tools.getD {}) (hostCallbacks text progress)
            (callerFlag attached) input)
          (Action.ofHost (always .clear)))
      () ⟨.holding .committed, []⟩ := by
  apply Action.holds_bind.mpr
  have trims := @keeps_hostCall Unit [] (.holding .committed)
    (.trimHistory members.config.maxHistoryEntries) (Or.inl rfl)
  apply (trims ()).imp
  rintro (failure | ⟨⟩) after reached rfl
  · exact .committed
  · exact published_holds members input

theorem promptLocked_holds (members : Members) (input : String) :
    Action.Holds (monitored observe) Allowed
      (fun _ _ after => Releasable after)
      (AgentSession.promptLocked members.session (hostCallbacks text progress)
        (callerFlag attached) input)
      () ⟨.holding (members.stage attached), []⟩ := by
  have refused : ∀ result : ApiResult, members.complete = false →
      Action.Holds (monitored observe) Allowed
        (fun _ _ after => Releasable after)
        (pure result : Action calls Unit ApiResult)
        () ⟨.holding (members.stage attached), []⟩ := by
    intro result incomplete
    rw [Members.stage, incomplete]
    exact .harmless
  unfold AgentSession.promptLocked
  cases provided : members.hasProvider with
  | false =>
      simp only [Members.session, anySession, provided, Bool.false_eq_true,
        if_false]
      exact refused _ (by simp [Members.complete, provided])
  | true =>
      simp only [Members.session, anySession, provided, if_true]
      split_ifs with noKey noModel
      · exact refused _ (by simp [Members.complete, noKey])
      · exact refused _ (by simp [Members.complete, noModel])
      · have complete : members.complete = true := by
          simp [Members.complete, provided, noKey, noModel]
        have continues := @committed_holds text progress attached members input
        simp only [Members.session, anySession, provided, if_true] at continues
        apply Action.holds_bind.mpr
        rw [Members.stage, complete, if_pos rfl]
        cases attached with
        | false => exact continues
        | true =>
            refine ⟨Or.inr (Or.inr ⟨rfl, rfl⟩), ?_⟩
            rintro (_ | _) after rfl
            · exact continues
            · exact .harmless

/-- A provider is configured without being published. -/
theorem configure_holds (hasProvider : Bool) (apiKey : String) :
    Action.Holds (monitored observe) Allowed
      (fun _ _ after => after.holds = false)
      (AgentSession.configureProvider sessionMutex
        (if hasProvider then some anySource else none) apiKey
        (callerFlag attached))
      {} ⟨.before (if hasProvider then .committed else .harmless), []⟩ := by
  cases hasProvider with
  | false =>
      have locks : Allowed ⟨.before .harmless, []⟩ .lock :=
        ⟨Or.inl ⟨_, rfl, nofun⟩, rfl⟩
      exact guarded_holds locks rfl .harmless
  | true =>
      have locks : Allowed ⟨.before .committed, []⟩ .lock :=
        ⟨Or.inl ⟨_, rfl, nofun⟩, rfl⟩
      refine guarded_holds locks rfl ?_
      have keeps : Keeps ⟨.holding .committed, []⟩
          (do
            set ({ hasProvider := true, apiKey := apiKey } : ProviderMembers)
            let result ← Action.ofHost (hostCall (.listModels apiKey))
            if result.ok then do
              modify fun members : ProviderMembers =>
                { members with availableModels := result.models }
              let preferred ←
                Action.ofHost (hostCall (.preferredModel result.models))
              modify fun members : ProviderMembers =>
                { members with activeModel := preferred }
              pure result
            else
              pure result) := by
        refine .bind (fun _ => rfl) fun _ => ?_
        refine .bind (keeps_hostCall (Or.inl rfl)) fun result => ?_
        split
        · refine .bind (fun _ => rfl) fun _ => ?_
          refine .bind (keeps_hostCall (Or.inl rfl)) fun preferred => ?_
          exact .bind (fun _ => rfl) fun _ => .pure _
        · exact .pure _
      exact (keeps {}).mono (fun _ _ allowed => allowed)
        fun outcome after reached same => same ▸ .committed

/-- A cancellation that finds nothing published waits for the mutex. -/
theorem cancel_holds (members : Members) :
    Action.Holds (monitored observe) Allowed
      (fun _ _ after => after.holds = false)
      (AgentSession.cancelActiveRequest members.session) () ⟨.looking, []⟩ := by
  have cancels : ∀ phase, Keeps ⟨phase, []⟩
      (Action.ofHost (hostCall .cancelProvider) : Action calls Unit Unit) :=
    fun phase => keeps_hostCall (Or.inr (Or.inr rfl))
  obtain ⟨config, hasProvider, apiKey, activeModel, tools, hasHandler⟩ :=
    members
  apply Action.holds_bind.mpr
  refine ⟨⟨rfl, rfl⟩, ?_⟩
  rintro (_ | _) looked rfl
  · refine guarded_holds ⟨Or.inr rfl, rfl⟩ rfl ?_
    cases hasProvider with
    | false => exact .harmless
    | true =>
        have released : Action.Holds (monitored observe) Allowed
            (fun _ _ after => Releasable after)
            (Action.ofHost (hostCall .cancelProvider)) ()
            ⟨.holding .harmless, []⟩ :=
          (cancels _ ()).imp fun outcome after reached same => same ▸ .harmless
        exact released
  · cases hasProvider with
    | false => rfl
    | true =>
        have ended : Action.Holds (monitored observe) Allowed
            (fun _ _ after => after.holds = false)
            (Action.ofHost (hostCall .cancelProvider)) () ⟨.direct, []⟩ :=
          (cancels _ ()).imp fun outcome after reached same => same ▸ rfl
        exact ended

/-- Every call of a thread does what its phases allow. -/
theorem body_verified (call : SessionCall) :
    (body call).Holds (monitored observe) Allowed
      (fun after _ => after.holds = false) (start call) := by
  cases call with
  | prompt members text progress attached input =>
      apply Program.Holds.bind_iff.mpr
      have stage : members.stage attached ≠ .published := by
        unfold Members.stage
        split_ifs <;> simp
      have locked := @guarded_holds Unit _ ⟨.before (members.stage attached), []⟩
        (members.stage attached) _ () ⟨Or.inl ⟨_, rfl, stage⟩, rfl⟩ rfl
        (@promptLocked_holds text progress attached members input)
      exact locked.imp fun _ _ _ released => released
  | configure hasProvider apiKey attached =>
      apply Program.Holds.bind_iff.mpr
      exact (configure_holds hasProvider apiKey).imp
        fun _ _ _ released => released
  | cancel hasProvider =>
      apply Program.Holds.bind_iff.mpr
      exact (cancel_holds _).imp fun _ _ _ released => released

end Bodies

end ArnCore.Agent.CancelProtocol
