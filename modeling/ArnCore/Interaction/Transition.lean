/-!
# Executions of labelled transition relations

An execution lists the labels of its steps in order.  It is built at its end,
so that an invariant may speak about the whole log written so far.
-/

namespace ArnCore.Interaction

variable {State Label : Type}

/-- Splitting a log that grew by one entry. -/
theorem snoc_eq_append_cons
    {Entry : Type} {past before after : List Entry} {last entry : Entry}
    (split : past ++ [last] = before ++ entry :: after) :
    (before = past ∧ entry = last ∧ after = []) ∨
      ∃ shorter, past = before ++ entry :: shorter ∧
        after = shorter ++ [last] := by
  rcases List.eq_nil_or_concat after with empty | ⟨shorter, final, grown⟩
  · subst empty
    obtain ⟨samePast, sameLast⟩ := List.append_inj' split rfl
    exact Or.inl ⟨samePast.symm, by simpa using sameLast.symm, rfl⟩
  · subst grown
    rw [List.concat_eq_append, ← List.cons_append,
      ← List.append_assoc] at split
    obtain ⟨samePast, sameLast⟩ := List.append_inj' split rfl
    refine Or.inr ⟨shorter, samePast, ?_⟩
    rw [List.concat_eq_append, sameLast]

/-- An entry that does not come later was written before. -/
theorem append_cons_of_not_mem
    {Entry : Type} {first second : Entry}
    {before after past later : List Entry}
    (split : before ++ first :: after = past ++ second :: later)
    (different : first ≠ second) (absent : first ∉ later) :
    ∃ between, past = before ++ first :: between ∧
      after = between ++ second :: later := by
  rcases List.append_eq_append_iff.mp split with
    ⟨between, rfl, rest⟩ | ⟨between, rfl, rest⟩
  · cases between with
    | nil =>
        injection rest with same
        exact absurd same different
    | cons entry between =>
        injection rest with same rest
        subst same
        exact ⟨between, rfl, rest⟩
  · cases between with
    | nil =>
        injection rest with same
        exact absurd same.symm different
    | cons entry between =>
        injection rest with _ rest
        exact absurd (by simp [rest]) absent

/-- The label of a step determines where it leads. -/
def Determined (step : State → Label → State → Prop) : Prop :=
  ∀ before label after other,
    step before label after → step before label other → other = after

/-- Finite executions of `step` from `initial`, with the log of their labels. -/
inductive Execution (step : State → Label → State → Prop) (initial : State) :
    List Label → State → Prop where
  | start : Execution step initial [] initial
  | extend {log : List Label} {before after : State} {label : Label}
      (past : Execution step initial log before)
      (last : step before label after) :
      Execution step initial (log ++ [label]) after

namespace Execution

variable {step : State → Label → State → Prop} {initial : State}

/--
An invariant of logs and states: it holds at the start and every step that an
execution can take preserves it.
-/
theorem invariant
    {inv : List Label → State → Prop}
    (base : inv [] initial)
    (preserved : ∀ log before label after,
      Execution step initial log before → inv log before →
        step before label after → inv (log ++ [label]) after)
    {log : List Label} {state : State}
    (execution : Execution step initial log state) :
    inv log state := by
  induction execution with
  | start => exact base
  | extend past last induction =>
      exact preserved _ _ _ _ past induction last

/-- The step that wrote a given label of the log, and the execution before it. -/
theorem step_of_log
    {before after : List Label} {label : Label} {state : State}
    (execution : Execution step initial (before ++ label :: after) state) :
    ∃ source target,
      Execution step initial before source ∧ step source label target := by
  generalize written : before ++ label :: after = log at execution
  induction execution generalizing after with
  | start => simp at written
  | @extend past source target last execution final induction =>
      rcases snoc_eq_append_cons written.symm with
        ⟨samePast, sameLast, _⟩ | ⟨shorter, samePast, _⟩
      · subst samePast
        subst sameLast
        exact ⟨source, target, execution, final⟩
      · exact induction samePast.symm

/-- The last step of an execution. -/
theorem last
    {log : List Label} {label : Label} {state : State}
    (execution : Execution step initial (log ++ [label]) state) :
    ∃ source, Execution step initial log source ∧ step source label state := by
  generalize written : log ++ [label] = whole at execution
  cases execution with
  | start => simp at written
  | extend past final =>
      obtain ⟨rfl, same⟩ := List.append_inj' written rfl
      obtain rfl := List.singleton_inj.mp same
      exact ⟨_, past, final⟩

/-- What an execution has been through is an execution. -/
theorem earlier
    {log more : List Label} {state : State}
    (execution : Execution step initial (log ++ more) state) :
    ∃ past, Execution step initial log past := by
  cases more with
  | nil => exact ⟨state, by rwa [List.append_nil] at execution⟩
  | cons label rest =>
      obtain ⟨source, _, past, _⟩ := execution.step_of_log
      exact ⟨source, past⟩

/-- Where every label determines its step, a log determines the state. -/
theorem unique
    (determined : Determined step)
    {log : List Label} {state other : State}
    (execution : Execution step initial log state)
    (also : Execution step initial log other) : other = state := by
  induction execution generalizing other with
  | start =>
      generalize written : ([] : List Label) = log at also
      cases also with
      | start => rfl
      | extend past final => simp at written
  | extend past final induction =>
      obtain ⟨source, before, step⟩ := also.last
      rw [induction before] at step
      exact determined _ _ _ _ final step

end Execution

/-- A step relation restricted to the steps that meet a condition. -/
def restrict (step : State → Label → State → Prop)
    (condition : State → Label → Prop) :
    State → Label → State → Prop :=
  fun before label after => step before label after ∧ condition before label

/--
Every step of a log meets a condition on the log and the state before it.
-/
def Throughout (step : State → Label → State → Prop) (initial : State)
    (condition : List Label → State → Label → Prop)
    (log : List Label) : Prop :=
  ∀ before after label state,
    log = before ++ label :: after →
      Execution step initial before state → condition before state label

namespace Throughout

variable {step : State → Label → State → Prop} {initial : State}
variable {condition : List Label → State → Label → Prop}

theorem of_append {log more : List Label}
    (kept : Throughout step initial condition (log ++ more)) :
    Throughout step initial condition log := by
  intro before after label state split execution
  refine kept before (after ++ more) label state ?_ execution
  rw [split, List.append_assoc, List.cons_append]

theorem last {log : List Label} {label : Label} {state : State}
    (kept : Throughout step initial condition (log ++ [label]))
    (execution : Execution step initial log state) :
    condition log state label :=
  kept log [] label state rfl execution

theorem nil : Throughout step initial condition [] := by
  intro before after label state split
  simp at split

/-- One more step that meets the condition. -/
theorem extend
    (determined : Determined step)
    {log : List Label} {label : Label} {state : State}
    (kept : Throughout step initial condition log)
    (execution : Execution step initial log state)
    (holds : condition log state label) :
    Throughout step initial condition (log ++ [label]) := by
  intro before after other reached split past
  rcases snoc_eq_append_cons split with
    ⟨rfl, rfl, _⟩ | ⟨shorter, earlier, _⟩
  · rw [execution.unique determined past]
    exact holds
  · exact kept before shorter other reached earlier past

/-- The invariant rule for executions under a condition. -/
theorem invariant
    {inv : List Label → State → Prop}
    (base : inv [] initial)
    (preserved : ∀ log before label after,
      inv log before → step before label after →
        condition log before label → inv (log ++ [label]) after)
    {log : List Label} {state : State}
    (execution : Execution step initial log state)
    (kept : Throughout step initial condition log) :
    inv log state := by
  induction execution with
  | start => exact base
  | extend past final induction =>
      exact preserved _ _ _ _ (induction kept.of_append) final
        (kept.last past)

end Throughout

end ArnCore.Interaction
