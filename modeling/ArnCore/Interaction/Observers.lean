import ArnCore.Interaction.Action

/-!
# Several observers of one program

Conditions are proved with the observer that suits them.  Two observers can
watch a program side by side, and what one observer knows carries over to
another one that it determines.
-/

namespace ArnCore.Interaction

variable {signature : Signature} {Value State Other : Type}
  {observe : State → Event signature → State}
  {watch : Other → Event signature → Other}
  {allowed : State → signature.Op → Prop}
  {permitted : Other → signature.Op → Prop}

/-- Two observers side by side. -/
def together (observe : State → Event signature → State)
    (watch : Other → Event signature → Other) (seen : State × Other)
    (event : Event signature) : State × Other :=
  (observe seen.1 event, watch seen.2 event)

/-- What is allowed where both observers allow it. -/
def Both (allowed : State → signature.Op → Prop)
    (permitted : Other → signature.Op → Prop) (seen : State × Other)
    (op : signature.Op) : Prop :=
  allowed seen.1 op ∧ permitted seen.2 op

/-- What two observers know of a program holds for both together. -/
theorem Program.Holds.together
    {post : State → Value → Prop} {final : Other → Value → Prop}
    {program : Program signature Value} {state : State} {other : Other}
    (holds : program.Holds (monitored observe) allowed post state)
    (also : program.Holds (monitored watch) permitted final other) :
    program.Holds (monitored (Interaction.together observe watch))
      (Both allowed permitted)
      (fun seen value => post seen.1 value ∧ final seen.2 value)
      (state, other) := by
  induction program generalizing state other with
  | done value => exact ⟨holds, also⟩
  | call op next induction =>
      refine ⟨⟨holds.1, also.1⟩, ?_⟩
      rintro answer after rfl
      exact induction answer (holds.2 answer _ rfl) (also.2 answer _ rfl)

/--
A relation that every allowed event preserves carries a condition from one
observer to another.
-/
theorem Program.Holds.simulates
    {post : State → Value → Prop} {related : State → Other → Prop}
    {program : Program signature Value} {state : State} {other : Other}
    (holds : program.Holds (monitored observe) allowed post state)
    (permits : ∀ state other op, related state other → allowed state op →
      permitted other op)
    (follows : ∀ state other op answer, related state other →
      allowed state op →
        related (observe state ⟨op, answer⟩) (watch other ⟨op, answer⟩))
    (start : related state other) :
    program.Holds (monitored watch) permitted
      (fun after value => ∃ seen, related seen after ∧ post seen value)
      other := by
  induction program generalizing state other with
  | done value => exact ⟨state, start, holds⟩
  | call op next induction =>
      refine ⟨permits state other op start holds.1, ?_⟩
      rintro answer after rfl
      exact induction answer (holds.2 answer _ rfl)
        (follows state other op answer start holds.1)

namespace Action

variable {Locals : Type} {action : Action signature Locals Value}
  {locals : Locals} {state : State} {other : Other}

/-- `Program.Holds.together` for an action. -/
theorem Holds.together
    {post : Except Exception Value → Locals → State → Prop}
    {final : Except Exception Value → Locals → Other → Prop}
    (holds : Holds (monitored observe) allowed post action locals state)
    (also : Holds (monitored watch) permitted final action locals other) :
    Holds (monitored (Interaction.together observe watch))
      (Both allowed permitted)
      (fun outcome after seen =>
        post outcome after seen.1 ∧ final outcome after seen.2)
      action locals (state, other) :=
  Program.Holds.together holds also

/-- `Program.Holds.simulates` for an action. -/
theorem Holds.simulates
    {post : Except Exception Value → Locals → State → Prop}
    {related : State → Other → Prop}
    (holds : Holds (monitored observe) allowed post action locals state)
    (permits : ∀ state other op, related state other → allowed state op →
      permitted other op)
    (follows : ∀ state other op answer, related state other →
      allowed state op →
        related (observe state ⟨op, answer⟩) (watch other ⟨op, answer⟩))
    (start : related state other) :
    Holds (monitored watch) permitted
      (fun outcome after reached =>
        ∃ seen, related seen reached ∧ post outcome after seen)
      action locals other :=
  Program.Holds.simulates holds permits follows start

end Action

end ArnCore.Interaction
