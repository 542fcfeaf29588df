import ArnCore.Interaction.Execution

/-!
# What finished runs ensure

A finished run decides its outcome, the local variables and every event on the
way.  `Action.Ensures` says all of this at once, for the runs in which the
environment answers as it is permitted to; the rules follow the construction of
an action.
-/

namespace ArnCore.Interaction.Action

variable {signature : Signature} {Locals Value Result : Type}

/--
In every finished run with permitted events each event is shown, and the
postcondition holds where the action is left.
-/
def Ensures (permits shown : Event signature → Prop)
    (post : Except Exception Value → Locals → Prop)
    (action : Action signature Locals Value) (locals : Locals) : Prop :=
  ∀ ⦃history outcome after⦄, Finishes action locals history outcome after →
    (∀ event ∈ history, permits event) →
      (∀ event ∈ history, shown event) ∧ post outcome after

/-- However the action is left, the variables satisfy what they did before. -/
def Maintains (permits shown : Event signature → Prop)
    (kept : Locals → Prop) (action : Action signature Locals Value) : Prop :=
  ∀ locals, kept locals →
    Ensures permits shown (fun _ after => kept after) action locals

namespace Ensures

variable {permits shown : Event signature → Prop}
  {post : Except Exception Value → Locals → Prop} {locals : Locals}

protected theorem pure
    {value : Value} (holds : post (.ok value) locals) :
    Ensures permits shown post (pure value) locals := by
  rintro history outcome after run permitted
  obtain ⟨rfl, rfl, rfl⟩ := finishes_pure.mp run
  exact ⟨by simp, holds⟩

protected theorem throw
    {failure : Exception} (holds : post (.error failure) locals) :
    Ensures permits shown post (throw failure) locals := by
  rintro history outcome after run permitted
  obtain ⟨rfl, rfl, rfl⟩ := finishes_throw.mp run
  exact ⟨by simp, holds⟩

theorem imp
    {weaker : Except Exception Value → Locals → Prop}
    {action : Action signature Locals Value}
    (ensures : Ensures permits shown post action locals)
    (implies : ∀ outcome after, post outcome after → weaker outcome after) :
    Ensures permits shown weaker action locals := by
  intro history outcome after run permitted
  obtain ⟨all, holds⟩ := ensures run permitted
  exact ⟨all, implies outcome after holds⟩

/-- The second part starts where the first one returned. -/
protected theorem bind
    {middle : Except Exception Value → Locals → Prop}
    {final : Except Exception Result → Locals → Prop}
    {action : Action signature Locals Value}
    {next : Value → Action signature Locals Result}
    (first : Ensures permits shown middle action locals)
    (throws : ∀ failure after, middle (.error failure) after →
      final (.error failure) after)
    (rest : ∀ value after, middle (.ok value) after →
      Ensures permits shown final (next value) after) :
    Ensures permits shown final (action >>= next) locals := by
  intro history outcome after run permitted
  rcases finishes_bind.mp run with
    ⟨failure, rfl, thrown⟩ |
    ⟨earlier, later, value, between, rfl, started, continued⟩
  · obtain ⟨all, holds⟩ := first thrown permitted
    exact ⟨all, throws failure after holds⟩
  · obtain ⟨before, behind⟩ := List.forall_mem_append.mp permitted
    obtain ⟨seen, holds⟩ := first started before
    obtain ⟨others, final⟩ := rest value between holds continued behind
    exact ⟨List.forall_mem_append.mpr ⟨seen, others⟩, final⟩

/-- The release finds the variables as the body left them. -/
protected theorem scopeGuard
    {final : Except Exception Value → Locals → Prop}
    {body : Action signature Locals Value}
    {release : Action signature Locals Unit}
    (runs : Ensures permits shown post body locals)
    (releases : ∀ outcome after, post outcome after →
      Ensures permits shown (fun _ released => final outcome released)
        release after) :
    Ensures permits shown final (scopeGuard body release) locals := by
  intro history outcome after run permitted
  obtain ⟨first, later, between, released, rfl, ran, freed⟩ :=
    finishes_scopeGuard.mp run
  obtain ⟨before, behind⟩ := List.forall_mem_append.mp permitted
  obtain ⟨seen, holds⟩ := runs ran before
  obtain ⟨others, final⟩ := releases outcome between holds freed behind
  exact ⟨List.forall_mem_append.mpr ⟨seen, others⟩, final⟩

/-- A condition that asks for nothing. -/
theorem any (action : Action signature Locals Value) :
    Ensures permits (fun _ => True) (fun _ _ => True) action locals :=
  fun _ _ _ _ _ => ⟨fun _ _ => trivial, trivial⟩

end Ensures

namespace Maintains

variable {permits shown : Event signature → Prop} {kept : Locals → Prop}

protected theorem pure (value : Value) :
    Maintains permits shown kept
      (pure value : Action signature Locals Value) :=
  fun _ holds => .pure holds

protected theorem throw (failure : Exception) :
    Maintains permits shown kept
      (throw failure : Action signature Locals Value) :=
  fun _ holds => .throw holds

protected theorem bind
    {action : Action signature Locals Value}
    {next : Value → Action signature Locals Result}
    (first : Maintains permits shown kept action)
    (rest : ∀ value, Maintains permits shown kept (next value)) :
    Maintains permits shown kept (action >>= next) :=
  fun locals holds => .bind (first locals holds) (fun _ _ keeps => keeps)
    fun value after keeps => rest value after keeps

protected theorem modify
    {update : Locals → Locals} (keeps : ∀ locals, kept locals →
      kept (update locals)) :
    Maintains permits shown kept (modify update : Action signature Locals _) := by
  intro locals holds history outcome after run permitted
  obtain ⟨rfl, -, rfl⟩ := finishes_modify.mp run
  exact ⟨by simp, keeps locals holds⟩

protected theorem get :
    Maintains permits shown kept (get : Action signature Locals Locals) := by
  intro locals holds history outcome after run permitted
  obtain ⟨rfl, -, rfl⟩ := finishes_get.mp run
  exact ⟨by simp, holds⟩

protected theorem ofExcept (evaluated : Except Exception Value) :
    Maintains permits shown kept
      (ofExcept evaluated : Action signature Locals Value) := by
  intro locals holds history outcome after run permitted
  obtain ⟨rfl, -, rfl⟩ := finishes_ofExcept.mp run
  exact ⟨by simp, holds⟩

/-- An evaluation that is known is followed by what comes next. -/
protected theorem ofExcept_bind
    {evaluated : Except Exception Value}
    {next : Value → Action signature Locals Result}
    (rest : ∀ value, evaluated = .ok value →
      Maintains permits shown kept (next value)) :
    Maintains permits shown kept (ofExcept evaluated >>= next) := by
  intro locals holds history outcome after run permitted
  rcases finishes_bind.mp run with
    ⟨failure, rfl, thrown⟩ |
    ⟨first, later, value, between, rfl, evaluates, continued⟩
  · exact Maintains.ofExcept evaluated locals holds thrown permitted
  · obtain ⟨rfl, same, rfl⟩ := finishes_ofExcept.mp evaluates
    exact rest value same.symm _ holds continued permitted

/-- A handler finds the variables as the body left them. -/
protected theorem tryCatch
    {action : Action signature Locals Value}
    {handler : Exception → Action signature Locals Value}
    (runs : Maintains permits shown kept action)
    (handles : ∀ failure, Maintains permits shown kept (handler failure)) :
    Maintains permits shown kept (tryCatch action handler) := by
  intro locals holds history outcome after run permitted
  rcases finishes_tryCatch.mp run with
    ⟨value, rfl, body⟩ |
    ⟨first, later, failure, between, rfl, body, handled⟩
  · exact runs locals holds body permitted
  · obtain ⟨before, behind⟩ := List.forall_mem_append.mp permitted
    obtain ⟨seen, keeps⟩ := runs locals holds body before
    obtain ⟨others, final⟩ := handles failure between keeps handled behind
    exact ⟨List.forall_mem_append.mpr ⟨seen, others⟩, final⟩

/-- The variables of a scope are not those outside. -/
protected theorem withLocals
    {Inner : Type} {initial : Inner} {body : Action signature Inner Value}
    (runs : Ensures permits shown (fun _ _ => True) body initial) :
    Maintains permits shown kept (withLocals initial body) := by
  intro locals holds history outcome after run permitted
  obtain ⟨rfl, final, ran⟩ := finishes_withLocals.mp run
  exact ⟨(runs ran permitted).1, holds⟩

/-- The environment does not see the variables. -/
protected theorem ofHost
    {computation : Host signature Value}
    (shows : ∀ history outcome, computation.run.Finishes history outcome →
      ∀ event ∈ history, shown event) :
    Maintains permits shown kept
      (ofHost computation : Action signature Locals Value) := by
  intro locals holds history outcome after run permitted
  obtain ⟨finishes, rfl⟩ := finishes_ofHost.mp run
  exact ⟨shows history outcome finishes, holds⟩

end Maintains

end ArnCore.Interaction.Action
