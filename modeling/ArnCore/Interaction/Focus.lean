import ArnCore.Interaction.Ensures
import ArnCore.Interaction.Likeness

/-!
# Variables within others

An action on some variables can be run where they are a part of others.  What
is known of the action is then known of that part, and the rest stays as it is.

Two actions may also own variables that only correspond.  They are related when
from corresponding variables they do the like and leave corresponding ones.
-/

namespace ArnCore.Interaction

variable {signature : Signature}
  {Outer Inner Locals Others Value Other Result Final : Type}

/-- Where variables lie within others. -/
structure Lens (Outer Inner : Type) where
  get : Outer → Inner
  put : Inner → Outer → Outer
  get_put : ∀ inner outer, get (put inner outer) = inner
  put_get : ∀ outer, put (get outer) outer = outer

namespace Action

/-- Run an action on a part of the variables. -/
def within (lens : Lens Outer Inner) (action : Action signature Inner Value) :
    Action signature Outer Value :=
  ExceptT.mk fun outer => do
    let (outcome, inner) ← action.run.run (lens.get outer)
    pure (outcome, lens.put inner outer)

variable {lens : Lens Outer Inner} {action : Action signature Inner Value}

theorem finishes_within
    {outer after : Outer} {history : List (Event signature)}
    {outcome : Except Exception Value} :
    Finishes (within lens action) outer history outcome after ↔
      ∃ inner, Finishes action (lens.get outer) history outcome inner ∧
        after = lens.put inner outer := by
  unfold Finishes within
  change Program.Finishes (action.run.run (lens.get outer) >>= fun left =>
    .done (left.1, lens.put left.2 outer)) history _ ↔ _
  rw [Program.finishes_bind_iff]
  constructor
  · rintro ⟨first, later, value, rfl, started, rfl, same⟩
    cases same
    rw [List.append_nil]
    exact ⟨value.2, started, rfl⟩
  · rintro ⟨inner, started, rfl⟩
    exact ⟨history, [], (outcome, inner), (List.append_nil _).symm, started,
      rfl, rfl⟩

/-! ## Variables that correspond -/

/-- From corresponding variables both do the like and leave such variables. -/
def Related (likeness : Likeness signature) (states : Locals → Others → Prop)
    (values : Value → Other → Prop) (action : Action signature Locals Value)
    (partner : Action signature Others Other) : Prop :=
  ∀ locals others, states locals others →
    (action.run.run locals).Alike likeness
      (fun left right =>
        likeness.Outcomes values left.1 right.1 ∧ states left.2 right.2)
      (partner.run.run others)

namespace Related

variable {likeness : Likeness signature} {states : Locals → Others → Prop}
  {values : Value → Other → Prop} {results : Result → Final → Prop}

protected theorem pure
    {value : Value} {other : Other} (related : values value other) :
    Related likeness states values
      (pure value : Action signature Locals Value)
      (pure other : Action signature Others Other) :=
  fun _ _ same => ⟨.returns related, same⟩

protected theorem get :
    Related likeness states states
      (get : Action signature Locals Locals)
      (get : Action signature Others Others) :=
  fun _ _ same => ⟨.returns same, same⟩

protected theorem modify
    {update : Locals → Locals} {change : Others → Others}
    (keeps : ∀ locals others, states locals others →
      states (update locals) (change others)) :
    Related likeness states Eq
      (modify update : Action signature Locals PUnit)
      (modify change : Action signature Others PUnit) :=
  fun locals others same => ⟨.returns rfl, keeps locals others same⟩

protected theorem ofHost
    {computation : Host signature Value} {partner : Host signature Other}
    (alike : Host.Alike likeness values computation partner) :
    Related likeness states values
      (ofHost computation : Action signature Locals Value)
      (ofHost partner : Action signature Others Other) :=
  fun _ _ same => Program.Alike.bind alike fun _ _ outcomes => ⟨outcomes, same⟩

protected theorem bind
    {action : Action signature Locals Value}
    {partner : Action signature Others Other}
    {continuation : Value → Action signature Locals Result}
    {further : Other → Action signature Others Final}
    (first : Related likeness states values action partner)
    (rest : ∀ value other, values value other →
      Related likeness states results (continuation value) (further other)) :
    Related likeness states results (action >>= continuation)
      (partner >>= further) := by
  intro locals others same
  rw [ExceptT.run_bind, ExceptT.run_bind, StateT.run_bind, StateT.run_bind]
  refine (first locals others same).bind ?_
  rintro ⟨outcome, left⟩ ⟨other, right⟩ ⟨outcomes, same⟩
  cases outcomes with
  | returns related => exact rest _ _ related left right same
  | throws related => exact ⟨.throws related, same⟩

protected theorem scopeGuard
    {action : Action signature Locals Value}
    {partner : Action signature Others Other}
    {release : Action signature Locals Unit}
    {free : Action signature Others Unit}
    (body : Related likeness states values action partner)
    (releases : Related likeness states Eq release free) :
    Related likeness states values (scopeGuard action release)
      (scopeGuard partner free) := by
  intro locals others same
  refine (body locals others same).bind ?_
  rintro ⟨outcome, left⟩ ⟨other, right⟩ ⟨outcomes, same⟩
  refine (releases left right same).bind ?_
  rintro ⟨_, first⟩ ⟨_, second⟩ ⟨_, kept⟩
  exact ⟨outcomes, kept⟩

theorem guarded
    {mutex other : Mutex signature} {body : Action signature Locals Value}
    {partner : Action signature Others Other}
    (alike : mutex.Alike likeness other)
    (runs : Related likeness states values body partner) :
    Related likeness states values (mutex.guarded body)
      (other.guarded partner) := by
  refine .bind (.ofHost alike.lock) fun _ _ _ => ?_
  exact .scopeGuard runs (.ofHost alike.unlock)

/-- Alike actions on parts that are the same. -/
theorem within
    {lens : Lens Locals Inner} {other : Lens Others Inner}
    {action : Action signature Inner Value}
    {partner : Action signature Inner Other}
    (alike : Alike likeness values action partner)
    (parts : ∀ locals others, states locals others →
      lens.get locals = other.get others ∧
        ∀ inner, states (lens.put inner locals) (other.put inner others)) :
    Related likeness states values (Action.within lens action)
      (Action.within other partner) := by
  intro locals others same
  obtain ⟨part, keeps⟩ := parts locals others same
  have alike := alike (lens.get locals)
  rw [part] at alike
  unfold Action.within
  change Program.Alike likeness _ (action.run.run (lens.get locals) >>= _)
    (partner.run.run (other.get others) >>= _)
  rw [part]
  refine alike.bind ?_
  rintro ⟨outcome, left⟩ ⟨reply, right⟩ ⟨outcomes, same⟩
  subst same
  exact ⟨outcomes, keeps left⟩

end Related

end Action

end ArnCore.Interaction
