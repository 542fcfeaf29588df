import ArnCore.Interaction.Action

/-!
# Finished runs

A finished run of a program consists of the events on the way to a leaf.  It
can be inverted along the structure of the program: a run of a sequence is a
run of its first part followed by a run of the continuation.
-/

namespace ArnCore.Interaction

variable {signature : Signature} {Locals Value Result : Type}

namespace Program

/-- With exactly the answers in `history` the program returns `final`. -/
def Finishes :
    Program signature Value → List (Event signature) → Value → Prop
  | .done value, history, final => history = [] ∧ value = final
  | .call op next, history, final =>
      ∃ answer later, history = ⟨op, answer⟩ :: later ∧
        (next answer).Finishes later final

variable {program : Program signature Value}
  {history : List (Event signature)}

/-- The runs of a program that end in a value are its finished runs. -/
theorem runs_done_iff {final : Value} :
    program.Runs history (.done final) ↔ program.Finishes history final := by
  constructor
  · intro run
    have extended : ∀ (before : List (Event signature))
        (configuration : List (Event signature) × Program signature Value),
        (recording signature).Reaches configuration (history, .done final) →
          ∀ program, configuration = (before, program) →
            ∃ later, history = before ++ later ∧
              program.Finishes later final := by
      intro before configuration reached
      induction reached using Relation.ReflTransGen.head_induction_on
        generalizing before with
      | refl =>
          rintro program ⟨⟩
          exact ⟨[], (List.append_nil _).symm, rfl, rfl⟩
      | head step _ induction =>
          rintro program rfl
          cases step with
          | perform answer performed =>
              obtain ⟨later, split, finishes⟩ :=
                induction _ _ (Prod.ext performed rfl)
              rw [List.append_assoc] at split
              exact ⟨_, split, answer, later, rfl, finishes⟩
    obtain ⟨later, split, finishes⟩ := extended [] _ run program rfl
    rwa [split, List.nil_append]
  · intro finishes
    have extended : ∀ (program : Program signature Value)
        (before history : List (Event signature)),
        program.Finishes history final →
          (recording signature).Reaches (before, program)
            (before ++ history, .done final) := by
      intro program
      induction program with
      | done value =>
          rintro before history ⟨rfl, rfl⟩
          rw [List.append_nil]
          exact .refl
      | call op next induction =>
          rintro before history ⟨answer, later, rfl, finishes⟩
          have rest := induction answer (before ++ [⟨op, answer⟩]) later
            finishes
          rw [List.append_assoc] at rest
          exact .head (.perform answer rfl) rest
    exact extended program [] history finishes

/-- A finished run of a sequence splits where its first part ends. -/
theorem finishes_bind_iff
    {continuation : Value → Program signature Result} {final : Result} :
    (program >>= continuation).Finishes history final ↔
      ∃ first later value, history = first ++ later ∧
        program.Finishes first value ∧
        (continuation value).Finishes later final := by
  induction program generalizing history with
  | done value =>
      constructor
      · intro finishes
        exact ⟨[], history, value, rfl, ⟨rfl, rfl⟩, finishes⟩
      · rintro ⟨first, later, other, rfl, ⟨rfl, rfl⟩, finishes⟩
        exact finishes
  | call op next induction =>
      constructor
      · rintro ⟨answer, rest, rfl, finishes⟩
        obtain ⟨first, later, value, rfl, started, continued⟩ :=
          (induction answer).mp finishes
        exact ⟨_, later, value, rfl, ⟨answer, first, rfl, started⟩, continued⟩
      · rintro ⟨first, later, value, rfl, ⟨answer, rest, rfl, started⟩,
          continued⟩
        exact ⟨answer, rest ++ later, rfl,
          (induction answer).mpr ⟨rest, later, value, rfl, started, continued⟩⟩

end Program

/-- The world that permits some events and remembers nothing. -/
def permitting (permits : Event signature → Prop) :
    World signature Unit where
  perform _ op answer _ := permits ⟨op, answer⟩

/--
What holds in the world of permitted events holds of every finished run in
which each event was permitted.
-/
theorem Program.Holds.finishes
    {permits : Event signature → Prop} {allowed : signature.Op → Prop}
    {post : Value → Prop} {program : Program signature Value}
    {history : List (Event signature)} {final : Value}
    (holds : program.Holds (permitting permits) (fun _ => allowed)
      (fun _ => post) ())
    (run : program.Finishes history final)
    (permitted : ∀ event ∈ history, permits event) :
    (∀ event ∈ history, allowed event.op) ∧ post final := by
  induction program generalizing history with
  | done value =>
      obtain ⟨rfl, rfl⟩ := run
      exact ⟨by simp, holds⟩
  | call op next induction =>
      obtain ⟨answer, later, rfl, finishes⟩ := run
      obtain ⟨first, rest⟩ := List.forall_mem_cons.mp permitted
      obtain ⟨others, ends⟩ :=
        induction answer (holds.2 answer () first) finishes rest
      exact ⟨List.forall_mem_cons.mpr ⟨holds.1, others⟩, ends⟩

variable {State : Type}

/-- The world goes from one state to another along a history. -/
def World.Traces (world : World signature State) :
    State → List (Event signature) → State → Prop
  | state, [], after => after = state
  | state, event :: later, after =>
      ∃ between, world.perform state event.op event.answer between ∧
        World.Traces world between later after

theorem World.Traces.append
    {world : World signature State} {state between after : State}
    {first later : List (Event signature)}
    (start : world.Traces state first between)
    (rest : world.Traces between later after) :
    world.Traces state (first ++ later) after := by
  induction first generalizing state with
  | nil =>
      obtain rfl := start
      exact rest
  | cons event first induction =>
      obtain ⟨next, performed, start⟩ := start
      exact ⟨next, performed, induction start⟩

/-- A finished run ends in the state to which its history leads. -/
theorem Program.Holds.traces
    {world : World signature State} {allowed : State → signature.Op → Prop}
    {post : State → Value → Prop} {program : Program signature Value}
    {state after : State} {history : List (Event signature)} {final : Value}
    (holds : program.Holds world allowed post state)
    (run : program.Finishes history final)
    (traces : world.Traces state history after) : post after final := by
  induction program generalizing history state with
  | done value =>
      obtain ⟨rfl, rfl⟩ := run
      obtain rfl := traces
      exact holds
  | call op next induction =>
      obtain ⟨answer, later, rfl, finishes⟩ := run
      obtain ⟨between, performed, rest⟩ := traces
      exact induction answer (holds.2 answer between performed) finishes rest

namespace Action

/--
A finished run of an action: its events, how it is left, and the local
variables afterwards.
-/
def Finishes (action : Action signature Locals Value) (locals : Locals)
    (history : List (Event signature))
    (outcome : Except Exception Value) (after : Locals) : Prop :=
  (action.run.run locals).Finishes history (outcome, after)

/-- An action that is run against a script. -/
theorem finishes_scripted
    (answers : List (Event signature) →
      (op : signature.Op) → signature.Answer op)
    (action : Action signature Locals Value) (locals : Locals) :
    Finishes action locals
      (Program.scripted answers (action.run.run locals) []).1
      (Program.scripted answers (action.run.run locals) []).2.1
      (Program.scripted answers (action.run.run locals) []).2.2 :=
  Program.runs_done_iff.mp (Program.runs_scripted_pair answers _)

section Rules

variable {locals after : Locals} {history : List (Event signature)}

@[simp]
theorem finishes_pure {value : Value} {outcome : Except Exception Value} :
    Finishes (pure value) locals history outcome after ↔
      history = [] ∧ outcome = .ok value ∧ after = locals := by
  refine and_congr Iff.rfl ?_
  rw [Prod.mk.injEq]
  exact and_congr eq_comm eq_comm

@[simp]
theorem finishes_throw {failure : Exception}
    {outcome : Except Exception Value} :
    Finishes (throw failure) locals history outcome after ↔
      history = [] ∧ outcome = .error failure ∧ after = locals := by
  refine and_congr Iff.rfl ?_
  rw [Prod.mk.injEq]
  exact and_congr eq_comm eq_comm

@[simp]
theorem finishes_get {outcome : Except Exception Locals} :
    Finishes get locals history outcome after ↔
      history = [] ∧ outcome = .ok locals ∧ after = locals := by
  refine and_congr Iff.rfl ?_
  rw [Prod.mk.injEq]
  exact and_congr eq_comm eq_comm

@[simp]
theorem finishes_modify {update : Locals → Locals}
    {outcome : Except Exception PUnit} :
    Finishes (modify update) locals history outcome after ↔
      history = [] ∧ outcome = .ok ⟨⟩ ∧ after = update locals := by
  refine and_congr Iff.rfl ?_
  rw [Prod.mk.injEq]
  exact and_congr eq_comm eq_comm

/-- A sequence throws in its first part or goes on behind it. -/
theorem finishes_bind
    {action : Action signature Locals Value}
    {continuation : Value → Action signature Locals Result}
    {outcome : Except Exception Result} :
    Finishes (action >>= continuation) locals history outcome after ↔
      (∃ failure, outcome = .error failure ∧
        Finishes action locals history (.error failure) after) ∨
      ∃ first later value between, history = first ++ later ∧
        Finishes action locals first (.ok value) between ∧
        Finishes (continuation value) between later outcome after := by
  unfold Finishes
  rw [ExceptT.run_bind, StateT.run_bind, Program.finishes_bind_iff]
  constructor
  · rintro ⟨first, later, ⟨failure | value, between⟩, rfl, started, continued⟩
    · obtain ⟨rfl, same⟩ := continued
      cases same
      rw [List.append_nil]
      exact Or.inl ⟨failure, rfl, started⟩
    · exact Or.inr ⟨first, later, value, between, rfl, started, continued⟩
  · rintro (⟨failure, rfl, started⟩ |
      ⟨first, later, value, between, rfl, started, continued⟩)
    · exact ⟨history, [], (.error failure, after),
        (List.append_nil _).symm, started, rfl, rfl⟩
    · exact ⟨first, later, (.ok value, between), rfl, started, continued⟩

/-- A sequence that returns went on behind its first part. -/
theorem finishes_bind_ok
    {action : Action signature Locals Value}
    {continuation : Value → Action signature Locals Result}
    {result : Result} :
    Finishes (action >>= continuation) locals history (.ok result) after ↔
      ∃ first later value between, history = first ++ later ∧
        Finishes action locals first (.ok value) between ∧
        Finishes (continuation value) between later (.ok result) after := by
  rw [finishes_bind]
  constructor
  · rintro (⟨failure, impossible, -⟩ | continued)
    · cases impossible
    · exact continued
  · exact Or.inr

/-- Behind a first part that never throws a sequence goes on. -/
theorem finishes_bind_of_returns
    {action : Action signature Locals Value}
    {continuation : Value → Action signature Locals Result}
    {outcome : Except Exception Result}
    (returns : ∀ {first : List (Event signature)} {failure : Exception}
      {between : Locals},
      ¬ Finishes action locals first (.error failure) between) :
    Finishes (action >>= continuation) locals history outcome after ↔
      ∃ first later value between, history = first ++ later ∧
        Finishes action locals first (.ok value) between ∧
        Finishes (continuation value) between later outcome after := by
  rw [finishes_bind]
  constructor
  · rintro (⟨failure, -, thrown⟩ | continued)
    · exact absurd thrown returns
    · exact continued
  · exact Or.inr

@[simp]
theorem finishes_modify_bind
    {update : Locals → Locals}
    {continuation : PUnit → Action signature Locals Result}
    {outcome : Except Exception Result} :
    Finishes (modify update >>= continuation) locals history outcome after ↔
      Finishes (continuation ⟨⟩) (update locals) history outcome after :=
  Iff.rfl

@[simp]
theorem finishes_get_bind
    {continuation : Locals → Action signature Locals Result}
    {outcome : Except Exception Result} :
    Finishes (get >>= continuation) locals history outcome after ↔
      Finishes (continuation locals) locals history outcome after :=
  Iff.rfl

/-- A handler runs exactly when the body throws. -/
theorem finishes_tryCatch
    {action : Action signature Locals Value}
    {handler : Exception → Action signature Locals Value}
    {outcome : Except Exception Value} :
    Finishes (tryCatch action handler) locals history outcome after ↔
      (∃ value, outcome = .ok value ∧
        Finishes action locals history (.ok value) after) ∨
      ∃ first later failure between, history = first ++ later ∧
        Finishes action locals first (.error failure) between ∧
        Finishes (handler failure) between later outcome after := by
  unfold Finishes
  change Program.Finishes (action.run.run locals >>= _) history _ ↔ _
  rw [Program.finishes_bind_iff]
  constructor
  · rintro ⟨first, later, ⟨failure | value, between⟩, rfl, started, continued⟩
    · exact Or.inr ⟨first, later, failure, between, rfl, started, continued⟩
    · obtain ⟨rfl, same⟩ := continued
      cases same
      rw [List.append_nil]
      exact Or.inl ⟨value, rfl, started⟩
  · rintro (⟨value, rfl, started⟩ |
      ⟨first, later, failure, between, rfl, started, continued⟩)
    · exact ⟨history, [], (.ok value, after),
        (List.append_nil _).symm, started, rfl, rfl⟩
    · exact ⟨first, later, (.error failure, between), rfl, started, continued⟩

theorem finishes_ofHost {computation : Host signature Value}
    {outcome : Except Exception Value} :
    Finishes (ofHost computation) locals history outcome after ↔
      computation.run.Finishes history outcome ∧ after = locals := by
  unfold Finishes ofHost
  change Program.Finishes (computation.run >>= fun outcome =>
    .done (outcome, locals)) history _ ↔ _
  rw [Program.finishes_bind_iff]
  constructor
  · rintro ⟨first, later, value, rfl, started, rfl, same⟩
    cases same
    rw [List.append_nil]
    exact ⟨started, rfl⟩
  · rintro ⟨started, rfl⟩
    exact ⟨history, [], outcome, (List.append_nil _).symm, started, rfl, rfl⟩

@[simp]
theorem finishes_ofExcept {evaluated outcome : Except Exception Value} :
    Finishes (ofExcept evaluated) locals history outcome after ↔
      history = [] ∧ outcome = evaluated ∧ after = locals := by
  unfold ofExcept
  rw [finishes_ofHost]
  change (history = [] ∧ evaluated = outcome) ∧ after = locals ↔ _
  rw [and_assoc]
  exact and_congr Iff.rfl (and_congr eq_comm Iff.rfl)

@[simp]
theorem finishes_ofExcept_bind
    {value : Value}
    {continuation : Value → Action signature Locals Result}
    {outcome : Except Exception Result} :
    Finishes (ofExcept (.ok value) >>= continuation) locals history outcome
        after ↔
      Finishes (continuation value) locals history outcome after := Iff.rfl

/-- Variables of a scope disappear with it. -/
theorem finishes_withLocals {Inner : Type} {initial : Inner}
    {body : Action signature Inner Value}
    {outcome : Except Exception Value} :
    Finishes (withLocals initial body) locals history outcome after ↔
      after = locals ∧
        ∃ final, Finishes body initial history outcome final := by
  unfold Finishes withLocals
  change Program.Finishes (body.run.run initial >>= fun left =>
    .done (left.1, locals)) history _ ↔ _
  rw [Program.finishes_bind_iff]
  constructor
  · rintro ⟨first, later, value, rfl, started, rfl, same⟩
    cases same
    rw [List.append_nil]
    exact ⟨rfl, value.2, started⟩
  · rintro ⟨rfl, final, started⟩
    exact ⟨history, [], (outcome, final), (List.append_nil _).symm, started,
      rfl, rfl⟩

/-- The release runs behind the body, however the body is left. -/
theorem finishes_scopeGuard
    {body : Action signature Locals Value}
    {release : Action signature Locals Unit}
    {outcome : Except Exception Value} :
    Finishes (scopeGuard body release) locals history outcome after ↔
      ∃ first later between released, history = first ++ later ∧
        Finishes body locals first outcome between ∧
        Finishes release between later released after := by
  unfold Finishes
  change Program.Finishes (body.run.run locals >>= fun left =>
    release.run.run left.2 >>= fun released =>
      .done (left.1, released.2)) history _ ↔ _
  rw [Program.finishes_bind_iff]
  constructor
  · rintro ⟨first, later, ⟨_, between⟩, rfl, started, continued⟩
    obtain ⟨rest, _, released, rfl, finished, rfl, same⟩ :=
      Program.finishes_bind_iff.mp continued
    cases same
    rw [List.append_nil]
    exact ⟨first, rest, between, released.1, rfl, started, finished⟩
  · rintro ⟨first, later, between, released, rfl, started, finished⟩
    refine ⟨first, later, (outcome, between), rfl, started, ?_⟩
    apply Program.finishes_bind_iff.mpr
    exact ⟨later, [], (released, after), (List.append_nil _).symm, finished,
      rfl, rfl⟩

/-- The same for an action. -/
theorem Holds.finishes
    {permits : Event signature → Prop} {allowed : signature.Op → Prop}
    {post : Except Exception Value → Locals → Prop}
    {action : Action signature Locals Value}
    {outcome : Except Exception Value}
    (holds : Holds (permitting permits) (fun _ => allowed)
      (fun outcome after _ => post outcome after) action locals ())
    (run : Finishes action locals history outcome after)
    (permitted : ∀ event ∈ history, permits event) :
    (∀ event ∈ history, allowed event.op) ∧ post outcome after :=
  @Program.Holds.finishes _ _ _ _
    (fun left : Except Exception Value × Locals => post left.1 left.2)
    _ _ _ holds run permitted

/-- The same for a world that is led along the history. -/
theorem Holds.traces
    {world : World signature State}
    {allowed : State → signature.Op → Prop}
    {post : Except Exception Value → Locals → State → Prop}
    {action : Action signature Locals Value} {state reached : State}
    {outcome : Except Exception Value}
    (holds : Holds world allowed post action locals state)
    (run : Finishes action locals history outcome after)
    (traces : world.Traces state history reached) :
    post outcome after reached := by
  have program : (action.run.run locals).Holds world allowed
      (fun reached left => post left.1 left.2 reached) state := holds
  exact program.traces run traces

end Rules

end Action

end ArnCore.Interaction
