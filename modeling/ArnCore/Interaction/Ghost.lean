import ArnCore.Interaction.Execution

/-!
# Ghost variables

An action may be run with richer local variables than its own.  When the real
variables are a view of the richer ones, both actions issue the same operations
and are left in the same way, so the richer variables record what the real ones
forget.

A program that is generic in its variables cannot tell which ones it has:
`Parametric` lists what a relation between actions has to respect, so that the
structure of a program is followed once for all such relations.
-/

namespace ArnCore.Interaction.Ghost

variable {signature : Signature} {Ghosts Locals Value Result : Type}

/-! ## Relations that follow the structure of programs -/

/-- The computation issues permitted operations only. -/
def Issues (permitted : signature.Op → Prop)
    (computation : Host signature Value) : Prop :=
  computation.run.Holds (monitored fun _ _ => ()) (fun _ => permitted)
    (fun _ _ => True) ()

/--
A relation between actions on two kinds of variables that every construct
respects, when the operations that see no variables are permitted ones.
-/
structure Parametric (permitted : signature.Op → Prop)
    (Related : {Value : Type} → Action signature Ghosts Value →
      Action signature Locals Value → Prop) : Prop where
  pure : ∀ {Value : Type} (value : Value),
    Related (pure value) (pure value)
  throw : ∀ {Value : Type} (failure : Exception),
    Related (throw failure : Action signature Ghosts Value) (throw failure)
  ofHost : ∀ {Value : Type} (computation : Host signature Value),
    Issues permitted computation →
      Related (Action.ofHost computation) (Action.ofHost computation)
  bind : ∀ {Value Result : Type}
    {ghost : Action signature Ghosts Value}
    {action : Action signature Locals Value}
    {ghostRest : Value → Action signature Ghosts Result}
    {rest : Value → Action signature Locals Result},
    Related ghost action →
      (∀ value, Related (ghostRest value) (rest value)) →
        Related (ghost >>= ghostRest) (action >>= rest)
  scopeGuard : ∀ {Value : Type}
    {ghost : Action signature Ghosts Value}
    {action : Action signature Locals Value}
    {ghostRelease : Action signature Ghosts Unit}
    {release : Action signature Locals Unit},
    Related ghost action → Related ghostRelease release →
      Related (Action.scopeGuard ghost ghostRelease)
        (Action.scopeGuard action release)

/-- A computation that issues permitted operations does so in any world. -/
theorem Issues.holds
    {State : Type} {world : World signature State}
    {allowed : State → signature.Op → Prop}
    {permitted : signature.Op → Prop}
    {computation : Host signature Value}
    (issues : Issues permitted computation)
    (permits : ∀ state op, permitted op → allowed state op) (state : State) :
    computation.run.Holds world allowed (fun _ _ => True) state := by
  have anywhere : ∀ (program : Program signature (Except Exception Value))
      (state : State),
      program.Holds (monitored fun _ _ => ()) (fun _ => permitted)
          (fun _ _ => True) () →
        program.Holds world allowed (fun _ _ => True) state := by
    intro program
    induction program with
    | done value => exact fun _ _ => trivial
    | call op next induction =>
        intro state holds
        refine ⟨permits state op holds.1, ?_⟩
        intro answer after _
        exact induction answer after (holds.2 answer () rfl)
  exact anywhere _ state issues

/-- Being safe respects every construct. -/
theorem safe_parametric
    {State : Type} {world : World signature State}
    {allowed : State → signature.Op → Prop}
    {permitted : signature.Op → Prop}
    (permits : ∀ state op, permitted op → allowed state op) :
    Parametric permitted
      (fun (ghost : Action signature Ghosts _)
        (_ : Action signature Ghosts _) =>
          Action.Safe world allowed ghost) where
  pure := Action.Safe.pure
  throw := Action.Safe.throw
  ofHost _ issues := .ofHost fun state => issues.holds permits state
  bind := Action.Safe.bind
  scopeGuard := Action.Safe.scopeGuard

/-! ## Views -/

/-- The action on the real variables is a view of the action on the ghosts. -/
def Views (view : Ghosts → Locals)
    (ghost : Action signature Ghosts Value)
    (action : Action signature Locals Value) : Prop :=
  ∀ ghosts, action.run.run (view ghosts) =
    ghost.run.run ghosts >>= fun left => pure (left.1, view left.2)

namespace Views

variable {view : Ghosts → Locals}

protected theorem pure (value : Value) :
    Views view (pure value : Action signature Ghosts Value) (pure value) :=
  fun _ => rfl

protected theorem throw (failure : Exception) :
    Views view (throw failure : Action signature Ghosts Value)
      (throw failure) :=
  fun _ => rfl

protected theorem modify
    {ghost : Ghosts → Ghosts} {update : Locals → Locals}
    (agrees : ∀ ghosts, update (view ghosts) = view (ghost ghosts)) :
    Views view (modify ghost : Action signature Ghosts PUnit)
      (modify update) := by
  intro ghosts
  show Program.done (Except.ok PUnit.unit, update (view ghosts)) = _
  rw [agrees]
  rfl

protected theorem ofHost (computation : Host signature Value) :
    Views view (Action.ofHost computation) (Action.ofHost computation) := by
  intro ghosts
  show (computation.run >>= fun outcome => pure (outcome, view ghosts)) =
    (computation.run >>= fun outcome => pure (outcome, ghosts)) >>= _
  rw [bind_assoc]
  rfl

protected theorem bind
    {ghost : Action signature Ghosts Value}
    {action : Action signature Locals Value}
    {ghostRest : Value → Action signature Ghosts Result}
    {rest : Value → Action signature Locals Result}
    (first : Views view ghost action)
    (later : ∀ value, Views view (ghostRest value) (rest value)) :
    Views view (ghost >>= ghostRest) (action >>= rest) := by
  intro ghosts
  rw [ExceptT.run_bind, StateT.run_bind, ExceptT.run_bind, StateT.run_bind,
    first ghosts, bind_assoc, bind_assoc]
  apply congrArg (ghost.run.run ghosts >>= ·)
  funext ⟨outcome, after⟩
  cases outcome with
  | error failure => rfl
  | ok value => exact later value after

protected theorem scopeGuard
    {ghost : Action signature Ghosts Value}
    {action : Action signature Locals Value}
    {ghostRelease : Action signature Ghosts Unit}
    {release : Action signature Locals Unit}
    (runs : Views view ghost action)
    (releases : Views view ghostRelease release) :
    Views view (Action.scopeGuard ghost ghostRelease)
      (Action.scopeGuard action release) := by
  intro ghosts
  show (action.run.run (view ghosts) >>= fun left =>
      release.run.run left.2 >>= fun released =>
        pure (left.1, released.2)) =
    (ghost.run.run ghosts >>= fun left =>
      ghostRelease.run.run left.2 >>= fun released =>
        pure (left.1, released.2)) >>= fun left => pure (left.1, view left.2)
  rw [runs ghosts, bind_assoc, bind_assoc]
  apply congrArg (ghost.run.run ghosts >>= ·)
  funext ⟨outcome, after⟩
  show release.run.run (view after) >>= _ = _
  rw [releases after, bind_assoc, bind_assoc]
  rfl

/-- Being a view respects every construct. -/
theorem parametric
    (permitted : signature.Op → Prop) (view : Ghosts → Locals) :
    Parametric permitted (Views view) where
  pure := Views.pure
  throw := Views.throw
  ofHost computation _ := Views.ofHost computation
  bind := Views.bind
  scopeGuard := Views.scopeGuard

/-- A run on the real variables is a run on the ghosts. -/
theorem finishes
    {ghost : Action signature Ghosts Value}
    {action : Action signature Locals Value} {ghosts : Ghosts}
    {after : Locals} {history : List (Event signature)}
    {outcome : Except Exception Value}
    (views : Views view ghost action)
    (run : Action.Finishes action (view ghosts) history outcome after) :
    ∃ final, after = view final ∧
      Action.Finishes ghost ghosts history outcome final := by
  unfold Action.Finishes at run
  rw [views ghosts, Program.finishes_bind_iff] at run
  obtain ⟨first, later, left, rfl, started, rfl, same⟩ := run
  cases same
  rw [List.append_nil]
  exact ⟨left.2, rfl, started⟩

end Views

/-! ## Variables that follow an observer -/

/-- The variables are what an observer of the operations has seen. -/
def Follows (observe : Ghosts → Event signature → Ghosts)
    (action : Action signature Ghosts Value) : Prop :=
  ∀ ghosts, Action.Holds (monitored observe) (fun _ _ => True)
    (fun _ after seen => seen = after) action ghosts ghosts

namespace Follows

variable {observe : Ghosts → Event signature → Ghosts}

protected theorem pure (value : Value) :
    Follows observe (pure value : Action signature Ghosts Value) :=
  fun _ => rfl

/-- What the observer does not notice does not change the variables. -/
protected theorem ofHost
    {permitted : signature.Op → Prop}
    (unnoticed : ∀ ghosts op answer, permitted op →
      observe ghosts ⟨op, answer⟩ = ghosts)
    {computation : Host signature Value}
    (issues : Issues permitted computation) :
    Follows observe
      (Action.ofHost computation : Action signature Ghosts Value) := by
  intro ghosts
  apply Action.holds_ofHost.mpr
  exact issues.unnoticed (fun _ _ _ => trivial)
    fun _ op answer allowed => unnoticed ghosts op answer allowed

protected theorem bind
    {action : Action signature Ghosts Value}
    {rest : Value → Action signature Ghosts Result}
    (first : Follows observe action)
    (later : ∀ value, Follows observe (rest value)) :
    Follows observe (action >>= rest) := by
  intro ghosts
  apply Action.holds_bind.mpr
  apply (first ghosts).imp
  rintro (failure | value) after reached rfl
  · rfl
  · exact later value reached

protected theorem scopeGuard
    {action : Action signature Ghosts Value}
    {release : Action signature Ghosts Unit}
    (runs : Follows observe action) (releases : Follows observe release) :
    Follows observe (Action.scopeGuard action release) := by
  intro ghosts
  apply Action.holds_scopeGuard.mpr
  apply (runs ghosts).imp
  rintro outcome after reached rfl
  exact releases reached

/-- Following an observer respects every construct. -/
theorem parametric
    {permitted : signature.Op → Prop}
    (unnoticed : ∀ ghosts op answer, permitted op →
      observe ghosts ⟨op, answer⟩ = ghosts) :
    Parametric permitted
      (fun ghost (_ : Action signature Ghosts _) =>
        Follows observe ghost) where
  pure := Follows.pure
  throw _ _ := rfl
  ofHost _ issues := Follows.ofHost unnoticed issues
  bind := Follows.bind
  scopeGuard := Follows.scopeGuard

/-- What the variables are at the end of a run. -/
theorem finishes
    {action : Action signature Ghosts Value} {ghosts after : Ghosts}
    {history : List (Event signature)} {outcome : Except Exception Value}
    (follows : Follows observe action)
    (run : Action.Finishes action ghosts history outcome after) :
    after = history.foldl observe ghosts :=
  ((follows ghosts).returns (Program.runs_done_iff.mpr run)).symm

end Follows

end ArnCore.Interaction.Ghost
