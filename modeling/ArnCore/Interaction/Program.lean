import Mathlib.Logic.Relation
import ArnCore.Interaction.Transition

/-!
# Programs that talk to an environment

A program is a well-founded tree of calls.  Each call names an operation of an
effect signature and continues with the answer of the environment.  Nothing is
assumed about the answers: a world decides which answers are possible and what
is remembered of them.

`Program.Holds` is the weakest precondition of a program in a world.  It is
defined by recursion over the tree, so that the rules for sequencing, for
weakening and for reachable configurations are short inductions.
-/

namespace ArnCore.Interaction

/-- Operations together with the type of their answers. -/
structure Signature where
  Op : Type
  Answer : Op → Type

/-- One operation and the answer it received. -/
structure Event (signature : Signature) where
  op : signature.Op
  answer : signature.Answer op

/-- Terminating computations over an effect signature. -/
inductive Program (signature : Signature) (Value : Type) where
  | done (value : Value)
  | call (op : signature.Op)
      (next : signature.Answer op → Program signature Value)

variable {signature : Signature} {Value Result : Type}

namespace Program

/-- Sequencing replaces every final value by the continuation. -/
def bind (program : Program signature Value)
    (continuation : Value → Program signature Result) :
    Program signature Result :=
  match program with
  | .done value => continuation value
  | .call op next => .call op fun answer => (next answer).bind continuation

instance : Monad (Program signature) where
  pure := .done
  bind := bind

/-- The program that performs one operation and returns its answer. -/
def perform (op : signature.Op) : Program signature (signature.Answer op) :=
  .call op .done

@[simp]
theorem pure_eq_done (value : Value) :
    (pure value : Program signature Value) = .done value := rfl

@[simp]
theorem done_bind
    (value : Value) (continuation : Value → Program signature Result) :
    (Program.done value >>= continuation) = continuation value := rfl

@[simp]
theorem call_bind
    (op : signature.Op)
    (next : signature.Answer op → Program signature Value)
    (continuation : Value → Program signature Result) :
    (Program.call op next >>= continuation) =
      .call op fun answer => next answer >>= continuation := rfl

@[simp]
theorem perform_bind
    (op : signature.Op)
    (continuation : signature.Answer op → Program signature Result) :
    (perform op >>= continuation) = .call op continuation := rfl

theorem bind_done (program : Program signature Value) :
    (program >>= Program.done) = program := by
  induction program with
  | done value => rfl
  | call op next induction =>
      exact congrArg (Program.call op) (funext induction)

theorem bind_assoc
    {Final : Type}
    (program : Program signature Value)
    (first : Value → Program signature Result)
    (second : Result → Program signature Final) :
    (program >>= first >>= second) =
      program >>= fun value => first value >>= second := by
  induction program with
  | done value => rfl
  | call op next induction =>
      exact congrArg (Program.call op) (funext induction)

instance : LawfulMonad (Program signature) :=
  LawfulMonad.mk' _ bind_done done_bind bind_assoc

end Program

/-! ## Worlds and reachable configurations -/

/--
How an environment answers operations and what it remembers of them.

`perform before op answer after` says that an operation issued in the state
`before` may be answered by `answer`, which leaves the state `after`.
-/
structure World (signature : Signature) (State : Type) where
  perform :
    State → (op : signature.Op) → signature.Answer op → State → Prop

variable {State : Type}

/-- One operation of the running program. -/
inductive World.Step (world : World signature State) :
    State × Program signature Value →
      State × Program signature Value → Prop where
  | perform {before after : State} {op : signature.Op}
      {next : signature.Answer op → Program signature Value}
      (answer : signature.Answer op)
      (performed : world.perform before op answer after) :
      World.Step world (before, .call op next) (after, next answer)

/-- Configurations reached by finitely many operations. -/
def World.Reaches (world : World signature State) :
    State × Program signature Value →
      State × Program signature Value → Prop :=
  Relation.ReflTransGen world.Step

/-! ## Weakest preconditions -/

/--
Every operation the program issues is `allowed` where it is issued, and every
value it returns satisfies `post` where it is returned.
-/
def Program.Holds (world : World signature State)
    (allowed : State → signature.Op → Prop)
    (post : State → Value → Prop) :
    Program signature Value → State → Prop
  | .done value, state => post state value
  | .call op next, state =>
      allowed state op ∧
        ∀ answer after, world.perform state op answer after →
          (next answer).Holds world allowed post after

namespace Program.Holds

variable {world : World signature State}
  {allowed weaker : State → signature.Op → Prop}
  {post : State → Value → Prop} {state : State}

/-- Sequencing: the continuation is verified where the first program ends. -/
theorem bind_iff
    {final : State → Result → Prop}
    {program : Program signature Value}
    {continuation : Value → Program signature Result} :
    (program >>= continuation).Holds world allowed final state ↔
      program.Holds world allowed
        (fun after value =>
          (continuation value).Holds world allowed final after)
        state := by
  induction program generalizing state with
  | done value => exact Iff.rfl
  | call op next induction =>
      refine and_congr Iff.rfl ?_
      refine forall_congr' fun answer => ?_
      refine forall_congr' fun after => ?_
      exact imp_congr Iff.rfl (induction answer)

theorem mono
    {weakened : State → Value → Prop}
    {program : Program signature Value}
    (holds : program.Holds world allowed post state)
    (allows : ∀ after op, allowed after op → weaker after op)
    (implies : ∀ after value, post after value → weakened after value) :
    program.Holds world weaker weakened state := by
  induction program generalizing state with
  | done value => exact implies state value holds
  | call op next induction =>
      refine ⟨allows state op holds.1, ?_⟩
      intro answer after performed
      exact induction answer (holds.2 answer after performed)

/-- Sequencing with the intermediate condition given by name. -/
theorem bind_of
    {final : State → Result → Prop}
    {program : Program signature Value}
    {continuation : Value → Program signature Result}
    (first : program.Holds world allowed post state)
    (rest : ∀ after value, post after value →
      (continuation value).Holds world allowed final after) :
    (program >>= continuation).Holds world allowed final state :=
  bind_iff.mpr (first.mono (fun _ _ permitted => permitted) rest)

/-- The precondition is carried along every step of the program. -/
theorem reaches
    {program rest : Program signature Value} {after : State}
    (holds : program.Holds world allowed post state)
    (reached : world.Reaches (state, program) (after, rest)) :
    rest.Holds world allowed post after := by
  generalize start : (state, program) = configuration at reached
  generalize finish : (after, rest) = target at reached
  induction reached using Relation.ReflTransGen.head_induction_on
    generalizing state program with
  | refl =>
      cases start.trans finish.symm
      exact holds
  | head step _ induction =>
      subst start
      cases step with
      | perform answer performed =>
          exact induction (holds.2 answer _ performed) rfl

/-- What every allowed operation preserves holds wherever the program is. -/
theorem keeps
    {kept : State → Prop} {program rest : Program signature Value}
    {after : State}
    (preserved : ∀ before op answer next, allowed before op →
      world.perform before op answer next → kept before → kept next)
    (holds : program.Holds world allowed post state) (start : kept state)
    (reached : world.Reaches (state, program) (after, rest)) :
    kept after := by
  generalize begin : (state, program) = configuration at reached
  generalize finish : (after, rest) = target at reached
  induction reached using Relation.ReflTransGen.head_induction_on
    generalizing state program with
  | refl =>
      cases begin.trans finish.symm
      exact start
  | head step _ induction =>
      subst begin
      cases step with
      | perform answer performed =>
          exact induction (holds.2 answer _ performed)
            (preserved _ _ _ _ holds.1 performed start) rfl

end Program.Holds

/-! ## Histories and monitors -/

/-- The world that answers anything and remembers every event in order. -/
def recording (signature : Signature) :
    World signature (List (Event signature)) where
  perform history op answer after := after = history ++ [⟨op, answer⟩]

/--
`program.Runs history rest`: with some answers of the environment the program
has issued exactly `history` and is left with `rest`.
-/
def Program.Runs (program : Program signature Value)
    (history : List (Event signature))
    (rest : Program signature Value) : Prop :=
  (recording signature).Reaches ([], program) (history, rest)

/-- With the same answers a program comes to the same point. -/
theorem Program.Runs.unique
    {program rest other : Program signature Value}
    {history : List (Event signature)}
    (run : program.Runs history rest)
    (again : program.Runs history other) :
    rest = other := by
  unfold Program.Runs World.Reaches at run
  generalize finish : (history, rest) = target at run
  induction run generalizing history rest other with
  | refl =>
      cases finish
      rcases Relation.ReflTransGen.cases_tail again with
        same | ⟨_, _, step⟩
      · cases same
        rfl
      · generalize reached : (([] : List (Event signature)), other) =
          last at step
        cases step with
        | perform answer performed =>
            cases reached
            exact absurd performed (by simp [recording])
  | tail _ step induction =>
      cases step with
      | perform answer performed =>
          cases finish
          rcases Relation.ReflTransGen.cases_tail again with
            same | ⟨middle, earlier, last⟩
          · cases same
            exact absurd performed (by simp [recording])
          · generalize reached : (history, other) = final at last
            cases last with
            | perform second performedAgain =>
                cases reached
                rw [performed] at performedAgain
                obtain ⟨sameHistory, sameEvent⟩ :=
                  List.append_inj' performedAgain rfl
                subst sameHistory
                injection sameEvent with sameEvent
                cases sameEvent
                cases induction earlier rfl
                rfl

/-- The world that answers anything and only updates an observer. -/
def monitored (observe : State → Event signature → State) :
    World signature State where
  perform state op answer after := after = observe state ⟨op, answer⟩

/--
A condition proved with an observer holds of every history: each event was
allowed by what the observer had seen before it, and a returned value satisfies
the postcondition.
-/
theorem Program.Holds.runs
    {observe : State → Event signature → State}
    {allowed : State → signature.Op → Prop}
    {post : State → Value → Prop}
    {initial : State} {program rest : Program signature Value}
    {history : List (Event signature)}
    (holds : program.Holds (monitored observe) allowed post initial)
    (run : program.Runs history rest) :
    (∀ before event after, history = before ++ event :: after →
        allowed (before.foldl observe initial) event.op) ∧
      rest.Holds (monitored observe) allowed post
        (history.foldl observe initial) := by
  unfold Program.Runs World.Reaches at run
  generalize finish : (history, rest) = target at run
  induction run generalizing history rest with
  | refl =>
      cases finish
      exact ⟨by simp, holds⟩
  | tail _ step induction =>
      cases step with
      | perform answer performed =>
          obtain ⟨events, callHolds⟩ := induction rfl
          cases finish
          have extended : history = _ := performed
          subst extended
          constructor
          · intro before event after split
            rcases snoc_eq_append_cons split with
              ⟨rfl, rfl, _⟩ | ⟨shorter, split, _⟩
            · exact callHolds.1
            · exact events before event shorter split
          · rw [List.foldl_append]
            exact callHolds.2 answer _ rfl

/-- What holds at the start and behind every allowed event always holds. -/
theorem Program.Holds.always
    {observe : State → Event signature → State}
    {allowed : State → signature.Op → Prop}
    {post : State → Value → Prop} {kept : State → Prop}
    (leads : ∀ state event, allowed state event.op →
      kept (observe state event))
    {initial : State} {program rest : Program signature Value}
    {history : List (Event signature)}
    (holds : program.Holds (monitored observe) allowed post initial)
    (run : program.Runs history rest) (start : kept initial) :
    kept (history.foldl observe initial) := by
  rcases List.eq_nil_or_concat history with rfl | ⟨earlier, last, rfl⟩
  · exact start
  · rw [List.concat_eq_append, List.foldl_append]
    exact leads _ last ((holds.runs run).1 earlier last [] (by simp))

/-- What every event preserves still holds where the program returns. -/
theorem Program.Holds.preserves
    {observe : State → Event signature → State}
    {allowed : State → signature.Op → Prop}
    {post : State → Value → Prop} {kept : State → Prop}
    (preserved : ∀ state event, kept state → kept (observe state event))
    {program : Program signature Value} {state : State}
    (holds : program.Holds (monitored observe) allowed post state)
    (start : kept state) :
    program.Holds (monitored observe) allowed
      (fun after value => post after value ∧ kept after) state := by
  induction program generalizing state with
  | done value => exact ⟨holds, start⟩
  | call op next induction =>
      refine ⟨holds.1, ?_⟩
      rintro answer after rfl
      exact induction answer (holds.2 answer _ rfl) (preserved state _ start)

/-- A condition that every allowed event preserves holds to the end. -/
theorem Program.Holds.leads
    {observe : State → Event signature → State}
    {kind : signature.Op → Prop} {allowed : State → signature.Op → Prop}
    {post : State → Value → Prop} {kept : State → Prop}
    (permits : ∀ state op, kind op → kept state → allowed state op)
    (preserved : ∀ state event, kind event.op → kept state →
      kept (observe state event))
    {program : Program signature Value} {state : State}
    (holds : program.Holds (monitored observe) (fun _ => kind) post state)
    (start : kept state) :
    program.Holds (monitored observe) allowed (fun after _ => kept after)
      state := by
  induction program generalizing state with
  | done value => exact start
  | call op next induction =>
      refine ⟨permits state op holds.1 start, ?_⟩
      rintro answer after rfl
      exact induction answer (holds.2 answer _ rfl)
        (preserved state _ holds.1 start)

/--
An observer that does not notice what a program does still sees its own state
where the program returns.
-/
theorem Program.Holds.unnoticed
    {Other : Type} {observe : State → Event signature → State}
    {allowed : State → signature.Op → Prop} {post : State → Value → Prop}
    {ignore : Other → Event signature → Other}
    {permitted : Other → signature.Op → Prop} {other : Other}
    {program : Program signature Value} {state : State}
    (holds : program.Holds (monitored observe) allowed post state)
    (permits : ∀ state op, allowed state op → permitted other op)
    (ignores : ∀ state op answer, allowed state op →
      ignore other ⟨op, answer⟩ = other) :
    program.Holds (monitored ignore) permitted (fun after _ => after = other)
      other := by
  induction program generalizing state with
  | done value => rfl
  | call op next induction =>
      refine ⟨permits state op holds.1, ?_⟩
      rintro answer after rfl
      rw [ignores state op answer holds.1]
      exact induction answer (holds.2 answer _ rfl)

/-- The same for a condition that looks at the whole history. -/
theorem Program.Holds.records
    {allowed : List (Event signature) → signature.Op → Prop}
    {post : List (Event signature) → Value → Prop}
    {program rest : Program signature Value}
    {history : List (Event signature)}
    (holds : program.Holds (recording signature) allowed post [])
    (run : program.Runs history rest) :
    (∀ before event after, history = before ++ event :: after →
        allowed before event.op) ∧
      rest.Holds (recording signature) allowed post history := by
  have snoc : ∀ events seen : List (Event signature),
      events.foldl (fun seen event => seen ++ [event]) seen =
        seen ++ events := by
    intro events
    induction events with
    | nil => simp
    | cons event later induction =>
        intro seen
        rw [List.foldl_cons, induction, List.append_assoc]
        rfl
  have watched := Program.Holds.runs
    (show program.Holds
      (monitored fun seen event => seen ++ [event]) allowed post [] from
        holds) run
  rw [snoc history, List.nil_append] at watched
  refine ⟨?_, watched.2⟩
  intro before event after split
  have permitted := watched.1 before event after split
  rwa [snoc before, List.nil_append] at permitted

/-- Run a program in a world whose answers depend on its state. -/
def Program.played
    (answers : State → (op : signature.Op) → signature.Answer op)
    (observe : State → Event signature → State) :
    Program signature Value → State → State × Value
  | .done value, state => (state, value)
  | .call op next, state =>
      (next (answers state op)).played answers observe
        (observe state ⟨op, answers state op⟩)

theorem Program.reaches_played
    {world : World signature State}
    {answers : State → (op : signature.Op) → signature.Answer op}
    {observe : State → Event signature → State}
    (performs : ∀ state op, world.perform state op (answers state op)
      (observe state ⟨op, answers state op⟩))
    (program : Program signature Value) (state : State) :
    world.Reaches (state, program)
      ((program.played answers observe state).1,
        .done (program.played answers observe state).2) := by
  induction program generalizing state with
  | done value => exact .refl
  | call op next induction =>
      exact .head (.perform _ (performs state op)) (induction _ _)

/-- Run a program against an environment that answers by what it has seen. -/
def Program.scripted
    (answers : List (Event signature) →
      (op : signature.Op) → signature.Answer op) :
    Program signature Value → List (Event signature) →
      List (Event signature) × Value
  | .done value, history => (history, value)
  | .call op next, history =>
      (next (answers history op)).scripted answers
        (history ++ [⟨op, answers history op⟩])

/-- A scripted run is one of the runs of the program. -/
theorem Program.runs_scripted
    (answers : List (Event signature) →
      (op : signature.Op) → signature.Answer op)
    (program : Program signature Value) :
    program.Runs (program.scripted answers []).1
      (.done (program.scripted answers []).2) := by
  have fromHistory : ∀ (program : Program signature Value)
      (history : List (Event signature)),
      (recording signature).Reaches (history, program)
        ((program.scripted answers history).1,
          .done (program.scripted answers history).2) := by
    intro program
    induction program with
    | done value =>
        intro history
        exact .refl
    | call op next induction =>
        intro history
        exact .head (.perform (answers history op) rfl)
          (induction (answers history op) _)
  exact fromHistory program []

/-- A scripted run whose value is taken apart, so that it need not be computed. -/
theorem Program.runs_scripted_pair
    {Other : Type}
    (answers : List (Event signature) →
      (op : signature.Op) → signature.Answer op)
    (program : Program signature (Value × Other)) :
    program.Runs (program.scripted answers []).1
      (.done ((program.scripted answers []).2.1,
        (program.scripted answers []).2.2)) :=
  program.runs_scripted answers

/-- What is true of every answer of a script is true of every event. -/
theorem Program.forall_mem_scripted
    {answers : List (Event signature) →
      (op : signature.Op) → signature.Answer op}
    {property : Event signature → Prop}
    (answered : ∀ history op, property ⟨op, answers history op⟩)
    (program : Program signature Value) (history : List (Event signature))
    (before : ∀ event ∈ history, property event) :
    ∀ event ∈ (program.scripted answers history).1, property event := by
  induction program generalizing history with
  | done value => exact before
  | call op next induction =>
      refine induction _ _ ?_
      rw [List.forall_mem_append, List.forall_mem_singleton]
      exact ⟨before, answered history op⟩

/-- A script keeps the history it starts with. -/
theorem Program.prefix_scripted
    (answers : List (Event signature) →
      (op : signature.Op) → signature.Answer op)
    (program : Program signature Value) (history : List (Event signature)) :
    history <+: (program.scripted answers history).1 := by
  induction program generalizing history with
  | done value => exact List.prefix_refl history
  | call op next induction =>
      exact (List.prefix_append history _).trans (induction _ _)

/-- A value returned by a run satisfies the postcondition. -/
theorem Program.Holds.returns
    {observe : State → Event signature → State}
    {allowed : State → signature.Op → Prop}
    {post : State → Value → Prop}
    {initial : State} {program : Program signature Value}
    {history : List (Event signature)} {value : Value}
    (holds : program.Holds (monitored observe) allowed post initial)
    (run : program.Runs history (.done value)) :
    post (history.foldl observe initial) value :=
  (holds.runs run).2

end ArnCore.Interaction
