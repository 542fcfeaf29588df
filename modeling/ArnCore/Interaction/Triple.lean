import ArnCore.Interaction.Action

/-!
# Triples

A condition on an action whose states are compared at some points only.  What
holds behind the action may depend on what it returned and on whether it was
left by an exception; its local variables are not looked at.
-/

namespace ArnCore.Interaction

variable {signature : Signature} {Locals Value Result State : Type}

/-- Started where `before` holds, an action ends where `after` holds. -/
def Triple (world : World signature State)
    (allowed : State → signature.Op → Prop) (before : State → Prop)
    (action : Action signature Locals Value)
    (after : Except Exception Value → State → Prop) : Prop :=
  ∀ locals state, before state →
    Action.Holds world allowed (fun outcome _ reached => after outcome reached)
      action locals state

/-- The action returns, and the condition holds of what it returns. -/
def Returning (next : Value → State → Prop) :
    Except Exception Value → State → Prop
  | .ok value, state => next value state
  | .error _, _ => False

namespace Triple

variable {world : World signature State}
  {allowed : State → signature.Op → Prop} {before : State → Prop}

theorem imp
    {action : Action signature Locals Value}
    {after weakened : Except Exception Value → State → Prop}
    (triple : Triple world allowed before action after)
    (implies : ∀ outcome state, after outcome state → weakened outcome state) :
    Triple world allowed before action weakened := by
  intro locals state start
  exact (triple locals state start).imp fun outcome _ reached found =>
    implies outcome reached found

/-- A call and what is done with its value; an exception leaves both. -/
theorem sequence
    {action : Action signature Locals Value}
    {continuation : Value → Action signature Locals Result}
    {between : Except Exception Value → State → Prop}
    {after : Except Exception Result → State → Prop}
    (first : Triple world allowed before action between)
    (rest : ∀ value, Triple world allowed (between (.ok value))
      (continuation value) after)
    (throws : ∀ failure state, between (.error failure) state →
      after (.error failure) state) :
    Triple world allowed before (action >>= continuation) after := by
  intro locals state start
  apply Action.holds_bind.mpr
  apply (first locals state start).imp
  rintro (failure | value) locals reached found
  · exact throws failure reached found
  · exact rest value locals reached found

/-- A call that returns, and what is done with its value. -/
theorem bind
    {action : Action signature Locals Value}
    {continuation : Value → Action signature Locals Result}
    {between : Value → State → Prop}
    {after : Except Exception Result → State → Prop}
    (first : Triple world allowed before action (Returning between))
    (rest : ∀ value,
      Triple world allowed (between value) (continuation value) after) :
    Triple world allowed before (action >>= continuation) after :=
  first.sequence rest fun _ _ found => found.elim

theorem tryCatch
    {action : Action signature Locals Value}
    {handler : Exception → Action signature Locals Value}
    {between after : Except Exception Value → State → Prop}
    (runs : Triple world allowed before action between)
    (returns : ∀ value state, between (.ok value) state →
      after (.ok value) state)
    (handles : ∀ failure, Triple world allowed (between (.error failure))
      (handler failure) after) :
    Triple world allowed before (MonadExcept.tryCatch action handler)
      after := by
  intro locals state start
  apply Action.holds_tryCatch.mpr
  apply (runs locals state start).imp
  rintro (failure | value) locals reached found
  · exact handles failure locals reached found
  · exact returns value reached found

/-- A call that is caught, and what is done with its value. -/
theorem caught
    {action : Action signature Locals Value}
    {continuation : Value → Action signature Locals Result} {fallback : Result}
    {between : Except Exception Value → State → Prop}
    {after : Result → State → Prop}
    (first : Triple world allowed before action between)
    (rest : ∀ value, Triple world allowed (between (.ok value))
      (MonadExcept.tryCatch (continuation value) fun _ => pure fallback)
      (Returning after))
    (throws : ∀ failure state, between (.error failure) state →
      after fallback state) :
    Triple world allowed before
      (MonadExcept.tryCatch (action >>= continuation) fun _ => pure fallback)
      (Returning after) := by
  intro locals state start
  apply Action.holds_tryCatch.mpr
  apply Action.holds_bind.mpr
  apply (first locals state start).imp
  rintro (failure | value) locals reached found
  · exact throws failure reached found
  · exact Action.holds_tryCatch.mp (rest value locals reached found)

/-- A body that is left either way, and its guard. -/
theorem scopeGuard
    {body : Action signature Locals Value}
    {release : Action signature Locals Unit}
    {between after : Except Exception Value → State → Prop}
    (runs : Triple world allowed before body between)
    (releases : ∀ outcome, Triple world allowed (between outcome) release
      fun _ => after outcome) :
    Triple world allowed before (Action.scopeGuard body release) after := by
  intro locals state start
  apply Action.holds_scopeGuard.mpr
  apply (runs locals state start).imp
  intro outcome locals reached found
  exact releases outcome locals reached found

/-- A body that returns, and its guard. -/
theorem guard
    {body : Action signature Locals Value}
    {release : Action signature Locals Unit}
    {between after : Value → State → Prop}
    (runs : Triple world allowed before body (Returning between))
    (releases : ∀ value, Triple world allowed (between value) release
      (Returning fun _ => after value)) :
    Triple world allowed before (Action.scopeGuard body release)
      (Returning after) := by
  refine runs.scopeGuard fun outcome => ?_
  cases outcome with
  | error failure => exact fun _ _ found => found.elim
  | ok value =>
      apply (releases value).imp
      rintro (failure | ⟨⟩) state found
      · exact found.elim
      · exact found

theorem onException
    {body : Action signature Locals Value}
    {cleanup : Action signature Locals Unit}
    {between after : Except Exception Value → State → Prop}
    (runs : Triple world allowed before body between)
    (returns : ∀ value state, between (.ok value) state →
      after (.ok value) state)
    (cleans : ∀ failure, Triple world allowed (between (.error failure))
      cleanup (Returning fun _ => after (.error failure))) :
    Triple world allowed before (Action.onException body cleanup) after :=
  runs.tryCatch returns fun failure =>
    (cleans failure).bind fun _ _ _ found => found

theorem get :
    Triple world allowed before
      (MonadState.get : Action signature Locals Locals)
      (Returning fun _ => before) :=
  fun _ _ found => found

theorem withLocals
    {Inner : Type} {initial : Inner} {body : Action signature Inner Value}
    {after : Except Exception Value → State → Prop}
    (runs : Triple world allowed before body after) :
    Triple world allowed before
      (Action.withLocals initial body : Action signature Locals Value)
      after := by
  intro locals state start
  apply Action.holds_withLocals.mpr
  exact runs initial state start

end Triple

end ArnCore.Interaction
