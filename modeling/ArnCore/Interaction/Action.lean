import ArnCore.Interaction.Program

/-!
# Actions: programs with exceptions and local variables

A `Host` computation is a program that may throw.  An `Action` additionally
owns local variables; what was assigned before an exception stays assigned when
the exception is caught, as for variables captured by reference.

The rules below compute `Action.Holds` one construct at a time.
-/

namespace ArnCore.Interaction

/-- A thrown value: a standard exception with its text, or anything else. -/
inductive Exception where
  | standard (what : String)
  | foreign
deriving DecidableEq, Repr

/-- A computation of the environment's side that may throw. -/
abbrev Host (signature : Signature) :=
  ExceptT Exception (Program signature)

/-- A computation that may throw and owns the variables `Locals`. -/
abbrev Action (signature : Signature) (Locals : Type) :=
  ExceptT Exception (StateT Locals (Program signature))

variable {signature : Signature} {Locals Value Result State : Type}

namespace Action

/-- Run a host computation; it does not see the local variables. -/
def ofHost (computation : Host signature Value) :
    Action signature Locals Value :=
  ExceptT.mk (StateT.lift computation.run)

/-- Perform an operation that cannot throw. -/
def perform (op : signature.Op) :
    Action signature Locals (signature.Answer op) :=
  ofHost (ExceptT.lift (Program.perform op))

/-- Throw what an evaluation threw, otherwise return its value. -/
def ofExcept (outcome : Except Exception Value) :
    Action signature Locals Value :=
  ofHost (ExceptT.mk (pure outcome))

/-- Run `cleanup` when `body` throws, and throw on. -/
def onException (body : Action signature Locals Value)
    (cleanup : Action signature Locals Unit) :
    Action signature Locals Value :=
  tryCatch body fun failure => do
    cleanup
    throw failure

/-- Run `release` however `body` is left, like the destructor of a guard. -/
def scopeGuard (body : Action signature Locals Value)
    (release : Action signature Locals Unit) :
    Action signature Locals Value :=
  ExceptT.mk fun locals => do
    let (outcome, after) ← body.run.run locals
    let (_, released) ← release.run.run after
    pure (outcome, released)

/-- Run `body` with its own variables, which disappear when it is left. -/
def withLocals {Inner : Type} (initial : Inner)
    (body : Action signature Inner Value) :
    Action signature Locals Value :=
  ExceptT.mk fun locals => do
    let (outcome, _) ← body.run.run initial
    pure (outcome, locals)

/-! ## Weakest preconditions -/

/-- `Program.Holds` for an action started with given local variables. -/
def Holds (world : World signature State)
    (allowed : State → signature.Op → Prop)
    (post : Except Exception Value → Locals → State → Prop)
    (action : Action signature Locals Value)
    (locals : Locals) (state : State) : Prop :=
  (action.run.run locals).Holds world allowed
    (fun after outcome => post outcome.1 outcome.2 after) state

section Rules

variable {world : World signature State}
  {allowed : State → signature.Op → Prop}
  {post : Except Exception Value → Locals → State → Prop}
  {locals : Locals} {state : State}

@[simp]
theorem holds_pure {value : Value} :
    Holds world allowed post (pure value) locals state ↔
      post (.ok value) locals state := Iff.rfl

@[simp]
theorem holds_throw {failure : Exception} :
    Holds world allowed post (throw failure) locals state ↔
      post (.error failure) locals state := Iff.rfl

@[simp]
theorem holds_bind
    {final : Except Exception Result → Locals → State → Prop}
    {action : Action signature Locals Value}
    {continuation : Value → Action signature Locals Result} :
    Holds world allowed final (action >>= continuation) locals state ↔
      Holds world allowed
        (fun outcome after reached =>
          match outcome with
          | .ok value =>
              Holds world allowed final (continuation value) after reached
          | .error failure => final (.error failure) after reached)
        action locals state := by
  unfold Holds
  rw [ExceptT.run_bind, StateT.run_bind, Program.Holds.bind_iff]
  apply iff_of_eq
  congr 1
  funext reached outcome
  rcases outcome with ⟨outcome, after⟩
  cases outcome <;> rfl

@[simp]
theorem holds_tryCatch
    {action : Action signature Locals Value}
    {handler : Exception → Action signature Locals Value} :
    Holds world allowed post (tryCatch action handler) locals state ↔
      Holds world allowed
        (fun outcome after reached =>
          match outcome with
          | .ok value => post (.ok value) after reached
          | .error failure =>
              Holds world allowed post (handler failure) after reached)
        action locals state := by
  unfold Holds
  change Program.Holds world allowed _
    (action.run.run locals >>= _) state ↔ _
  rw [Program.Holds.bind_iff]
  apply iff_of_eq
  congr 1
  funext reached outcome
  rcases outcome with ⟨outcome, after⟩
  cases outcome <;> rfl

@[simp]
theorem holds_get
    {post : Except Exception Locals → Locals → State → Prop} :
    Holds world allowed post get locals state ↔
      post (.ok locals) locals state := Iff.rfl

@[simp]
theorem holds_set
    {post : Except Exception PUnit → Locals → State → Prop}
    {assigned : Locals} :
    Holds world allowed post (set assigned) locals state ↔
      post (.ok ⟨⟩) assigned state := Iff.rfl

@[simp]
theorem holds_modify
    {post : Except Exception PUnit → Locals → State → Prop}
    {update : Locals → Locals} :
    Holds world allowed post (modify update) locals state ↔
      post (.ok ⟨⟩) (update locals) state := Iff.rfl

@[simp]
theorem holds_ofHost {computation : Host signature Value} :
    Holds world allowed post (ofHost computation) locals state ↔
      computation.run.Holds world allowed
        (fun after outcome => post outcome locals after) state := by
  unfold Holds ofHost
  exact Program.Holds.bind_iff

@[simp]
theorem holds_perform {op : signature.Op}
    {post : Except Exception (signature.Answer op) → Locals → State → Prop} :
    Holds world allowed post (perform op) locals state ↔
      allowed state op ∧
        ∀ answer after, world.perform state op answer after →
          post (.ok answer) locals after := Iff.rfl

@[simp]
theorem holds_scopeGuard
    {body : Action signature Locals Value}
    {release : Action signature Locals Unit} :
    Holds world allowed post (scopeGuard body release) locals state ↔
      Holds world allowed
        (fun outcome after reached =>
          Holds world allowed
            (fun _ released finished => post outcome released finished)
            release after reached)
        body locals state := by
  unfold Holds scopeGuard
  change Program.Holds world allowed _
    (body.run.run locals >>= _) state ↔ _
  rw [Program.Holds.bind_iff]
  apply iff_of_eq
  congr 1
  funext reached outcome
  exact propext Program.Holds.bind_iff

@[simp]
theorem holds_withLocals {Inner : Type} {initial : Inner}
    {body : Action signature Inner Value} :
    Holds world allowed post (withLocals initial body) locals state ↔
      Holds world allowed
        (fun outcome _ reached => post outcome locals reached)
        body initial state := by
  unfold Holds withLocals
  exact Program.Holds.bind_iff

theorem Holds.mono
    {weaker : State → signature.Op → Prop}
    {weakened : Except Exception Value → Locals → State → Prop}
    {action : Action signature Locals Value}
    (holds : Holds world allowed post action locals state)
    (allows : ∀ after op, allowed after op → weaker after op)
    (implies : ∀ outcome after reached,
      post outcome after reached → weakened outcome after reached) :
    Holds world weaker weakened action locals state :=
  Program.Holds.mono holds allows
    fun reached outcome => implies outcome.1 outcome.2 reached

/-- Weakening of the postcondition alone. -/
theorem Holds.imp
    {weakened : Except Exception Value → Locals → State → Prop}
    {action : Action signature Locals Value}
    (holds : Holds world allowed post action locals state)
    (implies : ∀ outcome after reached,
      post outcome after reached → weakened outcome after reached) :
    Holds world allowed weakened action locals state :=
  holds.mono (fun _ _ permitted => permitted) implies

/-- What every event preserves still holds where the action is left. -/
theorem Holds.preserves
    {observe : State → Event signature → State}
    {kept : State → Prop} {action : Action signature Locals Value}
    (preserved : ∀ state event, kept state → kept (observe state event))
    (holds : Holds (monitored observe) allowed post action locals state)
    (start : kept state) :
    Holds (monitored observe) allowed
      (fun outcome after reached => post outcome after reached ∧ kept reached)
      action locals state :=
  Program.Holds.preserves preserved holds start

/-- An observer that does not notice what an action does. -/
theorem Holds.unnoticed
    {Other : Type} {observe : State → Event signature → State}
    {ignore : Other → Event signature → Other}
    {permitted : Other → signature.Op → Prop} {other : Other}
    {action : Action signature Locals Value}
    (holds : Holds (monitored observe) allowed post action locals state)
    (permits : ∀ state op, allowed state op → permitted other op)
    (ignores : ∀ state op answer, allowed state op →
      ignore other ⟨op, answer⟩ = other) :
    Holds (monitored ignore) permitted (fun _ _ after => after = other)
      action locals other :=
  Program.Holds.unnoticed holds permits ignores

end Rules

/-! ## Safety -/

/--
Every operation of the action is allowed where it is issued, from any local
variables and in any state.
-/
def Safe (world : World signature State)
    (allowed : State → signature.Op → Prop)
    (action : Action signature Locals Value) : Prop :=
  ∀ locals state,
    Holds world allowed (fun _ _ _ => True) action locals state

namespace Safe

variable {world : World signature State}
  {allowed : State → signature.Op → Prop}

protected theorem pure (value : Value) :
    Safe world allowed (pure value : Action signature Locals Value) :=
  fun _ _ => trivial

protected theorem throw (failure : Exception) :
    Safe world allowed (throw failure : Action signature Locals Value) :=
  fun _ _ => trivial

protected theorem get :
    Safe world allowed (get : Action signature Locals Locals) :=
  fun _ _ => trivial

protected theorem modify (update : Locals → Locals) :
    Safe world allowed (modify update : Action signature Locals PUnit) :=
  fun _ _ => trivial

/-- A safe action establishes what holds of every outcome. -/
theorem holds
    {action : Action signature Locals Value}
    {post : Except Exception Value → Locals → State → Prop}
    {locals : Locals} {state : State}
    (safe : Safe world allowed action)
    (always : ∀ outcome after reached, post outcome after reached) :
    Holds world allowed post action locals state :=
  (safe locals state).imp fun outcome after reached _ =>
    always outcome after reached

protected theorem bind
    {action : Action signature Locals Value}
    {continuation : Value → Action signature Locals Result}
    (first : Safe world allowed action)
    (rest : ∀ value, Safe world allowed (continuation value)) :
    Safe world allowed (action >>= continuation) := by
  intro locals state
  apply holds_bind.mpr
  apply first.holds
  rintro (failure | value) after reached
  · trivial
  · exact rest value after reached

protected theorem tryCatch
    {action : Action signature Locals Value}
    {handler : Exception → Action signature Locals Value}
    (body : Safe world allowed action)
    (handles : ∀ failure, Safe world allowed (handler failure)) :
    Safe world allowed (tryCatch action handler) := by
  intro locals state
  apply holds_tryCatch.mpr
  apply body.holds
  rintro (failure | value) after reached
  · exact handles failure after reached
  · trivial

protected theorem scopeGuard
    {body : Action signature Locals Value}
    {release : Action signature Locals Unit}
    (runs : Safe world allowed body) (releases : Safe world allowed release) :
    Safe world allowed (scopeGuard body release) := by
  intro locals state
  apply holds_scopeGuard.mpr
  apply runs.holds
  intro outcome after reached
  exact releases after reached

protected theorem withLocals {Inner : Type} {initial : Inner}
    {body : Action signature Inner Value}
    (runs : Safe world allowed body) :
    Safe world allowed
      (withLocals initial body : Action signature Locals Value) := by
  intro locals state
  apply holds_withLocals.mpr
  exact runs initial state

protected theorem ofHost
    {computation : Host signature Value}
    (runs : ∀ state, computation.run.Holds world allowed
      (fun _ _ => True) state) :
    Safe world allowed
      (ofHost computation : Action signature Locals Value) := by
  intro locals state
  apply holds_ofHost.mpr
  exact runs state

protected theorem ofExcept (outcome : Except Exception Value) :
    Safe world allowed
      (ofExcept outcome : Action signature Locals Value) :=
  .ofHost fun _ => trivial

end Safe

/-! ## Keeping a state -/

/--
An action that an observer finds, however it is left, in the state it was
started in.
-/
def Keeps (observe : State → Event signature → State)
    (allowed : State → signature.Op → Prop) (state : State)
    (action : Action signature Locals Value) : Prop :=
  ∀ locals, Holds (monitored observe) allowed
    (fun _ _ after => after = state) action locals state

namespace Keeps

variable {observe : State → Event signature → State}
  {allowed : State → signature.Op → Prop} {state : State}

protected theorem pure (value : Value) :
    Keeps observe allowed state
      (pure value : Action signature Locals Value) :=
  fun _ => rfl

protected theorem bind
    {action : Action signature Locals Value}
    {continuation : Value → Action signature Locals Result}
    (first : Keeps observe allowed state action)
    (rest : ∀ value, Keeps observe allowed state (continuation value)) :
    Keeps observe allowed state (action >>= continuation) := by
  intro locals
  apply holds_bind.mpr
  apply (first locals).imp
  rintro (failure | value) after reached rfl
  · rfl
  · exact rest value after

protected theorem tryCatch
    {action : Action signature Locals Value}
    {handler : Exception → Action signature Locals Value}
    (runs : Keeps observe allowed state action)
    (handles : ∀ failure, Keeps observe allowed state (handler failure)) :
    Keeps observe allowed state (tryCatch action handler) := by
  intro locals
  apply holds_tryCatch.mpr
  apply (runs locals).imp
  rintro (failure | value) after reached rfl
  · exact handles failure after
  · rfl

end Keeps

/-! ## From one condition to another -/

/--
Started where the first condition holds, the action does what is allowed, and
the second condition holds however it is left.
-/
def Leads (observe : State → Event signature → State)
    (allowed : State → signature.Op → Prop) (before after : State → Prop)
    (action : Action signature Locals Value) : Prop :=
  ∀ locals state, before state →
    Holds (monitored observe) allowed (fun _ _ reached => after reached)
      action locals state

namespace Leads

variable {observe : State → Event signature → State}
  {allowed : State → signature.Op → Prop}
  {before between after : State → Prop}

protected theorem pure (implies : ∀ state, before state → after state)
    (value : Value) :
    Leads observe allowed before after
      (pure value : Action signature Locals Value) :=
  fun _ state start => implies state start

/-- An action that may be started in more states and left in fewer. -/
theorem imp
    {weaker stronger : State → Prop} {action : Action signature Locals Value}
    (leads : Leads observe allowed weaker stronger action)
    (starts : ∀ state, before state → weaker state)
    (ends : ∀ state, stronger state → after state) :
    Leads observe allowed before after action := by
  intro locals state start
  exact (leads locals state (starts state start)).imp fun _ _ reached =>
    ends reached

protected theorem bind
    {action : Action signature Locals Value}
    {continuation : Value → Action signature Locals Result}
    (first : Leads observe allowed before between action)
    (rest : ∀ value, Leads observe allowed between after (continuation value))
    (leaves : ∀ state, between state → after state) :
    Leads observe allowed before after (action >>= continuation) := by
  intro locals state start
  apply holds_bind.mpr
  apply (first locals state start).imp
  rintro (failure | value) locals reached found
  · exact leaves reached found
  · exact rest value locals reached found

protected theorem scopeGuard
    {body : Action signature Locals Value}
    {release : Action signature Locals Unit}
    (runs : Leads observe allowed before between body)
    (releases : Leads observe allowed between after release) :
    Leads observe allowed before after (scopeGuard body release) := by
  intro locals state start
  apply holds_scopeGuard.mpr
  apply (runs locals state start).imp
  intro outcome locals reached found
  exact releases locals reached found

protected theorem withLocals {Inner : Type} {initial : Inner}
    {body : Action signature Inner Value}
    (runs : Leads observe allowed before after body) :
    Leads observe allowed before after
      (withLocals initial body : Action signature Locals Value) := by
  intro locals state start
  apply holds_withLocals.mpr
  exact runs initial state start

/-- A condition that is kept by all operations of some kind. -/
protected theorem of_safe
    {kind : signature.Op → Prop} {action : Action signature Locals Value}
    (safe : Safe (monitored observe) (fun _ => kind) action)
    (permits : ∀ state op, kind op → before state → allowed state op)
    (preserved : ∀ state event, kind event.op → before state →
      before (observe state event)) :
    Leads observe allowed before before action := by
  intro locals state start
  exact Program.Holds.leads permits preserved (safe locals state) start

end Leads

end Action

end ArnCore.Interaction
