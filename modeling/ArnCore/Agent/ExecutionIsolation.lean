import ArnCore.Agent.EffectiveCancellation

/-!
# Isolation between executions

The provider of a runtime is used by all of its executions, and nothing is
known about it but this: `reset_session` throws or empties the history.  The
memory is extended by the history of the provider, each entry with the
execution during which it was added.
-/

namespace ArnCore.Agent.ExecutionIsolation

open ArnCore.Interaction
open ArnCore.Interaction.Ghost
open ArnCore.Provider
open ArnCore.Agent.EffectiveCancellation
open ArnCore.Agent.Environment
open ArnCore.Agent.ExecutionCourse
open ArnCore.Agent.ExecutionSafety
open ArnCore.Agent.ExposedTools
open ArnCore.Agent.OutcomeTranslation
open ArnCore.Agent.RuntimeExclusion
open ArnCore.Agent.RuntimeFlag
open ArnCore.Agent.RuntimeOutline
open ArnCore.Agent.RuntimeProtocol
open ArnCore.Agent.RuntimeStages
open ArnCore.Agent.SharedMemory
open ArnCore.Agent.TracedSession

variable {Thread : Type}

/-! ## The history of the provider -/

/-- The history of the provider: for every entry the execution that added it. -/
structure Conversation where
  /-- The number of executions that have passed the gate. -/
  execution : Nat := 0
  entries : List Nat := []

/-- What the provider is asked to do. -/
def UsesProvider : AgentOp → Prop
  | .modelCapabilities _ => True
  | .trimHistory _ => True
  | .startTurn _ => True
  | .continueTurn _ => True
  | .cancelProvider => True
  | .resetProvider => True
  | _ => False

/-- The provider adds to the history only on behalf of this execution. -/
def Conversation.Extends (before after : Conversation) : Prop :=
  after.execution = before.execution ∧
    ∀ entry ∈ after.entries,
      entry ∈ before.entries ∨ entry = before.execution

/-- What an event may do to the history of the provider. -/
def Conversation.Follows (before : Conversation) :
    AgentEvent → Conversation → Prop
  | ⟨.exchange .runtimeExecuting true, false⟩, after =>
      after = { before with execution := before.execution + 1 }
  | ⟨.resetProvider, .ok _⟩, after => after = { before with entries := [] }
  | ⟨op, _⟩, after =>
      (UsesProvider op ∧ before.Extends after) ∨
        (¬ UsesProvider op ∧ after = before)

/-- The memory and the provider as the world of one thread. -/
def conversing (thread : Thread) :
    World agents (Memory Thread × Conversation) where
  perform before op answer after :=
    (memoryOf thread).perform before.1 op answer after.1 ∧
      before.2.Follows ⟨op, answer⟩ after.2

/-- Runtimes whose provider has a history. -/
abbrev Conversing (Thread : Type) :=
  Threads Thread RuntimeReturn (Memory Thread × Conversation) agents

/-- The same runtimes without the history. -/
def forget (system : Conversing Thread) : RuntimeThreads Thread where
  shared := system.shared.1
  running := system.running

/-- An execution passes the gate. -/
def passesGate : AgentEvent → Bool
  | ⟨.exchange .runtimeExecuting true, false⟩ => true
  | _ => false

/-- The number of executions that have passed the gate. -/
def passes (log : RuntimeLog Thread) : Nat :=
  log.countP fun
    | .performs _ event => passesGate event
    | _ => false

theorem passes_performs
    (log : RuntimeLog Thread) (thread : Thread) (event : AgentEvent) :
    passes (log ++ [.performs thread event]) =
      passes log + if passesGate event then 1 else 0 := by
  unfold passes
  rw [List.countP_append, List.countP_singleton]

/-! ## One event at the provider -/

theorem Conversation.Extends.refl (conversation : Conversation) :
    conversation.Extends conversation :=
  ⟨rfl, fun _ member => Or.inl member⟩

theorem passesGate_iff {event : AgentEvent} :
    passesGate event = true ↔
      event = ⟨.exchange .runtimeExecuting true, false⟩ := by
  constructor
  · intro opens
    unfold passesGate at opens
    split at opens
    · rfl
    · cases opens
  · rintro rfl
    rfl

/-- Only the provider and the gate change the history. -/
theorem Conversation.Follows.eq_of_unused
    {before after : Conversation} {op : AgentOp} {answer : agents.Answer op}
    (follows : before.Follows ⟨op, answer⟩ after)
    (unused : ¬ UsesProvider op)
    (closed : passesGate ⟨op, answer⟩ = false) :
    after = before := by
  cases op with
  | exchange name value =>
      cases name with
      | runtimeExecuting =>
          cases value with
          | false => exact follows.elim (fun used => used.1.elim) And.right
          | true =>
              cases answer with
              | false => cases closed
              | true => exact follows.elim (fun used => used.1.elim) And.right
      | _ => exact follows.elim (fun used => used.1.elim) And.right
  | resetProvider => exact absurd trivial unused
  | _ =>
      first
      | exact absurd trivial unused
      | exact follows.elim (fun used => used.1.elim) And.right

/-- Whatever the provider does, it adds for the execution past the gate. -/
theorem Conversation.Follows.extends
    {before after : Conversation} {op : AgentOp} {answer : agents.Answer op}
    (follows : before.Follows ⟨op, answer⟩ after)
    (closed : passesGate ⟨op, answer⟩ = false) :
    before.Extends after := by
  by_cases used : UsesProvider op
  · cases op with
    | resetProvider =>
        cases answer with
        | ok value =>
            cases follows
            exact ⟨rfl, nofun⟩
        | error failure =>
            exact follows.elim And.right fun unused => absurd used unused.1
    | _ =>
        first
        | exact used.elim
        | exact follows.elim And.right fun unused => absurd used unused.1
  · rw [follows.eq_of_unused used closed]
    exact .refl before

/-- The number of the execution changes at the gate. -/
theorem Conversation.Follows.execution_eq
    {before after : Conversation} {event : AgentEvent}
    (follows : before.Follows event after) :
    after.execution =
      before.execution + if passesGate event then 1 else 0 := by
  cases closed : passesGate event with
  | false => exact (follows.extends closed).1
  | true =>
      rw [passesGate_iff] at closed
      subst closed
      cases follows
      rfl

/-- A scope stays detached until the session is published. -/
theorem active_after
    {scope : Scope} {op : AgentOp} (detached : scope.active = false)
    (stays : op ≠ .publish .activeSession) :
    (scope.after op).active = false := by
  cases op with
  | publish name =>
      cases name with
      | activeSession => exact absurd rfl stays
      | _ => exact detached
  | clear name =>
      cases name with
      | activeSession => rfl
      | _ => exact detached
  | construct name => cases name <;> exact detached
  | destroy name => cases name <;> exact detached
  | lock name => cases name <;> exact detached
  | unlock name => cases name <;> exact detached
  | store name value => cases name <;> cases value <;> exact detached
  | _ => exact detached

/-! ## The history of an execution -/

/-- What the stage of an execution says about the history of the provider. -/
structure Kept (phase : Phase) (stage : Stage) (conversation : Conversation) :
    Prop where
  emptied : stage.Emptied →
    conversation.entries = [] ∧
      ∃ scope, phase = .gated scope ∧ scope.active = false
  attached : stage = .attached →
    (∀ entry ∈ conversation.entries, entry = conversation.execution) ∧
      phase.IsGated

/-- Three operations only move a call to another stage. -/
theorem Stage.after_of_stays
    {op : AgentOp} {answer : agents.Answer op} (stage : Stage)
    (notReset : op ≠ .resetProvider)
    (notPublished : op ≠ .publish .activeSession)
    (notLeft : ∀ value, op ≠ .store .runtimeExecuting value) :
    stage.after ⟨op, answer⟩ = stage := by
  cases op with
  | resetProvider => exact absurd rfl notReset
  | publish name =>
      cases name with
      | activeSession => exact absurd rfl notPublished
      | _ => cases stage <;> rfl
  | store name value =>
      cases name with
      | runtimeExecuting => exact absurd rfl (notLeft value)
      | _ => cases stage <;> rfl
  | _ => cases stage <;> rfl

/-- An execution whose last reset emptied the history leaves it alone. -/
theorem unused_of_emptied
    {scope : Scope} {stage : Stage} {op : AgentOp}
    (emptied : stage.Emptied) (allowed : scope.Allows op)
    (staged : stage.Allows op) (notReset : op ≠ .resetProvider) :
    ¬ UsesProvider op := by
  cases op with
  | resetProvider => exact absurd rfl notReset
  | modelCapabilities name => rcases emptied with rfl | rfl <;> cases staged
  | trimHistory bound => rcases emptied with rfl | rfl <;> cases staged
  | startTurn request => rcases emptied with rfl | rfl <;> cases staged
  | continueTurn request => rcases emptied with rfl | rfl <;> cases staged
  | cancelProvider => exact allowed.1.elim
  | _ => exact id

/-- An event of an execution past the gate. -/
theorem Kept.gated
    {scope : Scope} {stage : Stage} {op : AgentOp}
    {answer : agents.Answer op} {before after : Conversation}
    (kept : Kept (.gated scope) stage before) (allowed : scope.Allows op)
    (staged : stage.Allows op) (follows : before.Follows ⟨op, answer⟩ after) :
    Kept (observe (.gated scope) ⟨op, answer⟩) (stage.after ⟨op, answer⟩)
      after := by
  have notExchanged : passesGate ⟨op, answer⟩ = false := by
    cases opens : passesGate ⟨op, answer⟩ with
    | false => rfl
    | true =>
        cases passesGate_iff.mp opens
        exact allowed.1.elim
  by_cases reset : op = .resetProvider
  · subst reset
    cases answer with
    | ok value =>
        cases follows
        exact ⟨fun _ => ⟨rfl, scope, rfl, allowed.2⟩, fun _ => ⟨nofun, scope, rfl⟩⟩
    | error failure =>
        have last : stage.after ⟨.resetProvider, .error failure⟩ =
            .settled false := by
          rcases staged with rfl | rfl | ⟨emptied, rfl⟩ <;> rfl
        rw [last]
        constructor
        · rintro (same | same) <;> cases same
        · exact nofun
  · by_cases published : op = .publish .activeSession
    · subst published
      have clean : stage = .clean := staged
      subst clean
      rw [follows.eq_of_unused id notExchanged]
      constructor
      · rintro (same | same) <;> cases same
      · intro attached
        rw [(kept.emptied (Or.inl rfl)).1]
        exact ⟨nofun, scope.after _, rfl⟩
    · by_cases left : ∀ value, op ≠ .store .runtimeExecuting value
      · rw [Stage.after_of_stays stage reset published left,
          observe_gated left]
        constructor
        · intro emptied
          have unused := unused_of_emptied emptied allowed staged reset
          rw [follows.eq_of_unused unused notExchanged]
          obtain ⟨empty, _, ⟨⟩, detached⟩ := kept.emptied emptied
          exact ⟨empty, _, rfl, active_after detached published⟩
        · intro attached
          obtain ⟨own, _⟩ := kept.attached attached
          obtain ⟨same, added⟩ := follows.extends notExchanged
          refine ⟨fun entry member => ?_, _, rfl⟩
          rw [same]
          exact (added entry member).elim (own entry) id
      · obtain ⟨value, stores⟩ := not_forall.mp left
        rw [ne_eq, not_not] at stores
        subst stores
        have last : stage.after ⟨.store .runtimeExecuting value, answer⟩ =
            .left := by
          rcases staged with rfl | ⟨emptied, rfl⟩ <;> rfl
        rw [last]
        constructor
        · rintro (same | same) <;> cases same
        · exact nofun

/-- Only an execution past the gate moves to another stage. -/
theorem stays_of_not_gated
    {phase : Phase} {op : AgentOp} (allowed : Allowed phase op)
    (outside : ¬ phase.IsGated) :
    op ≠ .resetProvider ∧ op ≠ .publish .activeSession ∧
      ∀ value, op ≠ .store .runtimeExecuting value := by
  cases phase with
  | gated scope => exact absurd ⟨scope, rfl⟩ outside
  | entering =>
      cases allowed
      exact ⟨nofun, nofun, nofun⟩
  | waiting =>
      cases allowed
      exact ⟨nofun, nofun, nofun⟩
  | inspecting found =>
      cases found with
      | none =>
          cases allowed
          exact ⟨nofun, nofun, nofun⟩
      | some found =>
          rcases allowed with rfl | ⟨_, dereferences⟩
          · exact ⟨nofun, nofun, nofun⟩
          · refine ⟨?_, ?_, ?_⟩
            · rintro rfl
              exact dereferences
            · rintro rfl
              exact dereferences
            · rintro value rfl
              exact dereferences
  | refused => exact allowed.elim
  | released => exact allowed.elim
  | left => exact allowed.elim

/-- An event of a call keeps what its stage says. -/
theorem Kept.performs
    {phase : Phase} {stage : Stage} {op : AgentOp} {answer : agents.Answer op}
    {before after : Conversation}
    (kept : Kept phase stage before) (allowed : Allowed phase op)
    (staged : stage.Allows op) (follows : before.Follows ⟨op, answer⟩ after) :
    Kept (observe phase ⟨op, answer⟩) (stage.after ⟨op, answer⟩) after := by
  by_cases gated : phase.IsGated
  · obtain ⟨scope, rfl⟩ := gated
    exact kept.gated allowed staged follows
  · obtain ⟨notReset, notPublished, notLeft⟩ :=
      stays_of_not_gated allowed gated
    rw [Stage.after_of_stays stage notReset notPublished notLeft]
    constructor
    · intro emptied
      obtain ⟨_, scope, rfl, _⟩ := kept.emptied emptied
      exact absurd ⟨scope, rfl⟩ gated
    · intro attached
      exact absurd (kept.attached attached).2 gated

/-- An event of another call keeps what the stage of a call says. -/
theorem Kept.others
    {phases : Thread → Option Phase} {memory : Memory Thread}
    {thread other : Thread} {phase otherPhase : Phase} {stage : Stage}
    {op : AgentOp} {answer : agents.Answer op} {before after : Conversation}
    (kept : Kept phase stage before) (different : thread ≠ other)
    (exclusive : Exclusive phases memory)
    (atPhase : phases thread = some phase)
    (atOther : phases other = some otherPhase)
    (allowed : Allowed otherPhase op) (answers : memory.Answers op answer)
    (follows : before.Follows ⟨op, answer⟩ after) :
    Kept phase stage after := by
  by_cases gated : phase.IsGated
  · obtain ⟨scope, rfl⟩ := gated
    have shown := exclusive.gate.shown gated_injective atPhase
    have closed : passesGate ⟨op, answer⟩ = false := by
      cases opens : passesGate ⟨op, answer⟩ with
      | false => rfl
      | true =>
          cases passesGate_iff.mp opens
          exact (answers.trans shown.executing).symm
    by_cases used : UsesProvider op
    · cases otherPhase with
      | gated otherScope =>
          exact absurd (exclusive.gate.unique atPhase atOther) different
      | entering =>
          cases allowed
          exact used.elim
      | waiting =>
          cases allowed
          exact used.elim
      | inspecting found =>
          cases found with
          | none =>
              cases allowed
              exact used.elim
          | some found =>
              rcases allowed with rfl | ⟨rfl, dereferences⟩
              · exact used.elim
              · obtain ⟨same, added⟩ := follows.extends closed
                obtain ⟨owner, ownScope, ownPhase, _, _, active, _⟩ :=
                  exclusive.owner_of_inspecting atOther
                have own := exclusive.gate.unique atPhase ownPhase
                subst own
                constructor
                · intro emptied
                  obtain ⟨_, _, ⟨⟩, detached⟩ := kept.emptied emptied
                  rw [shown.mirrors.active, detached] at active
                  cases active
                · intro attached
                  obtain ⟨own, isGated⟩ := kept.attached attached
                  refine ⟨fun entry member => ?_, isGated⟩
                  rw [same]
                  exact (added entry member).elim (own entry) id
      | refused => exact allowed.elim
      | released => exact allowed.elim
      | left => exact allowed.elim
    · rw [follows.eq_of_unused used closed]
      exact kept
  · constructor
    · intro emptied
      obtain ⟨_, scope, rfl, _⟩ := kept.emptied emptied
      exact absurd ⟨scope, rfl⟩ gated
    · intro attached
      exact absurd (kept.attached attached).2 gated

section Interleavings

variable [DecidableEq Thread] {hasProvider : Bool} {apiKey model : String}
  {bindings : List NativeBinding} {log : RuntimeLog Thread}
  {system : Conversing Thread} {held : List Nat}

/-- The history of the provider can be left out. -/
theorem forget_execution
    (execution : Execution
      (Threads.Step conversing (body hasProvider apiKey model bindings))
      (Threads.idle ({}, { entries := held })) log system) :
    Execution
      (Threads.Step memoryOf (body hasProvider apiKey model bindings))
      (Threads.idle {}) log (forget system) :=
  have respects : ∀ (thread : Thread) before op answer after,
      (conversing thread).perform before op answer after →
        (memoryOf thread).perform before.1 op answer after.1 :=
    fun _ _ _ _ _ performed => performed.1
  Threads.project Prod.fst respects execution

/-- The stage of the call of a thread. -/
def stages (log : RuntimeLog Thread) : Thread → Option Stage :=
  Threads.phases (fun _ => Stage.untouched) Stage.after log

/-- In every execution the stages tell the history of the provider. -/
theorem kept
    (execution : Execution
      (Threads.Step conversing (body hasProvider apiKey model bindings))
      (Threads.idle ({}, { entries := held })) log system)
    {thread : Thread} {phase : Phase} {stage : Stage}
    (atPhase : Threads.phases start observe log thread = some phase)
    (atStage : stages log thread = some stage) :
    Kept phase stage system.shared.2 := by
  have verified := body_verified hasProvider apiKey model bindings
  have staged := body_staged hasProvider apiKey model bindings
  induction execution generalizing phase stage with
  | start => cases atPhase
  | @extend log before after event past last induction =>
      cases last with
      | calls caller call idle =>
          rw [stages, Threads.phases_calls] at atStage
          rw [Threads.phases_calls] at atPhase
          by_cases own : thread = caller
          · subst own
            rw [Function.update_self] at atPhase atStage
            cases atStage
            constructor
            · rintro (same | same) <;> cases same
            · exact nofun
          · rw [Function.update_of_ne own] at atPhase atStage
            exact induction atPhase atStage
      | @performs actor op next answer after runs performed =>
          obtain ⟨actorPhase, atActor, allowed⟩ :=
            Threads.allowed_of_performs verified past runs
          obtain ⟨actorStage, atActorStage, permitted⟩ :=
            Threads.allowed_of_performs staged past runs
          rw [stages, Threads.phases_performs] at atStage
          rw [Threads.phases_performs] at atPhase
          by_cases own : thread = actor
          · subst own
            rw [Function.update_self, atActor] at atPhase
            rw [Function.update_self, atActorStage] at atStage
            cases atPhase
            cases atStage
            exact (induction atActor atActorStage).performs allowed permitted
              performed.2
          · rw [Function.update_of_ne own] at atPhase atStage
            exact (induction atPhase atStage).others own
              (exclusive (forget_execution past)) atPhase atActor allowed
              performed.1.1 performed.2
      | returns leaver runs =>
          rw [stages, Threads.phases_returns] at atStage
          rw [Threads.phases_returns] at atPhase
          by_cases own : thread = leaver
          · subst own
            rw [Function.update_self] at atPhase
            cases atPhase
          · rw [Function.update_of_ne own] at atPhase atStage
            exact induction atPhase atStage

/-- The number of the execution that may use the provider. -/
theorem execution_eq_passes
    (execution : Execution
      (Threads.Step conversing (body hasProvider apiKey model bindings))
      (Threads.idle ({}, { entries := held })) log system) :
    system.shared.2.execution = passes log := by
  induction execution with
  | start => rfl
  | @extend log before after event past last induction =>
      cases last with
      | calls caller call idle =>
          rw [passes, List.countP_append]
          exact induction
      | returns leaver runs =>
          rw [passes, List.countP_append]
          exact induction
      | performs actor runs performed =>
          rw [passes_performs, performed.2.execution_eq, induction]

/-! ## After an execution -/

/-- When nobody is past the gate, nobody uses the provider. -/
theorem unused_of_opened
    {past : RuntimeThreads Thread} {thread : Thread} {op : AgentOp}
    {next : agents.Answer op → Program agents RuntimeReturn}
    (execution : Execution
      (Threads.Step memoryOf (body hasProvider apiKey model bindings))
      (Threads.idle {}) log past)
    (nobody : ∀ other, ¬ PastGate .runtimeExecuting log other)
    (runs : past.running thread = some (.call op next)) :
    ¬ UsesProvider op := by
  obtain ⟨phase, atPhase, allowed⟩ := Threads.allowed_of_performs
    (body_verified hasProvider apiKey model bindings) execution runs
  intro used
  cases phase with
  | gated scope =>
      exact nobody thread
        ((pastGate_iff execution thread).mpr ⟨_, atPhase, scope, rfl⟩)
  | entering =>
      cases allowed
      exact used
  | waiting =>
      cases allowed
      exact used
  | inspecting found =>
      cases found with
      | none =>
          cases allowed
          exact used
      | some found =>
          rcases allowed with rfl | ⟨rfl, _⟩
          · exact used
          · obtain ⟨owner, scope, ownPhase, _⟩ :=
              (exclusive execution).owner_of_inspecting atPhase
            exact nobody owner
              ((pastGate_iff execution owner).mpr ⟨_, ownPhase, scope, rfl⟩)
  | refused => exact allowed
  | released => exact allowed
  | left => exact allowed

/-- An empty history stays empty until an execution passes the gate. -/
theorem empty_while_opened
    {past since : RuntimeLog Thread}
    (opened : ∀ other, ¬ PastGate .runtimeExecuting past other)
    (empty : ∀ source, Execution
      (Threads.Step conversing (body hasProvider apiKey model bindings))
      (Threads.idle ({}, { entries := held })) past source →
        source.shared.2.entries = [])
    (execution : Execution
      (Threads.Step conversing (body hasProvider apiKey model bindings))
      (Threads.idle ({}, { entries := held })) (past ++ since) system)
    (nobody : ∀ other,
      .performs other ⟨.exchange .runtimeExecuting true, false⟩ ∉ since) :
    system.shared.2.entries = [] := by
  induction since using List.reverseRecOn generalizing system with
  | nil => exact empty system (by simpa using execution)
  | append_singleton since last induction =>
      rw [← List.append_assoc] at execution
      obtain ⟨source, earlier, step⟩ := execution.last
      have before := induction earlier fun other member =>
        nobody other (List.mem_append_left _ member)
      have still : ∀ other,
          ¬ PastGate .runtimeExecuting (past ++ since) other := by
        intro other inside
        rcases Threads.within_append inside with entered | entered
        · exact opened other entered
        · obtain ⟨first, rest, rfl, _⟩ := entered
          exact nobody other (by simp)
      cases step with
      | calls thread call idle => exact before
      | returns thread runs => exact before
      | @performs thread op next answer after runs performed =>
          have unused :=
            unused_of_opened (forget_execution earlier) still runs
          have closed : passesGate ⟨op, answer⟩ = false := by
            cases opens : passesGate ⟨op, answer⟩ with
            | false => rfl
            | true =>
                cases passesGate_iff.mp opens
                exact absurd (List.mem_append_right _
                  (List.mem_singleton.mpr rfl)) (nobody thread)
          have follows : source.shared.2.Follows ⟨op, answer⟩ after.2 :=
            performed.2
          rw [← before, ← follows.eq_of_unused unused closed]

/-- A reset that succeeded stays the last one while no other is tried. -/
def Stage.Reset (stage : Stage) : Prop :=
  stage ≠ .untouched ∧ stage ≠ .settled false

theorem Stage.reset_after
    {stage : Stage} {op : AgentOp} {answer : agents.Answer op}
    (reset : Stage.Reset stage) (notReset : op ≠ .resetProvider) :
    Stage.Reset (stage.after ⟨op, answer⟩) := by
  by_cases published : op = .publish .activeSession
  · subst published
    cases stage <;> exact ⟨nofun, nofun⟩
  · by_cases left : ∀ value, op ≠ .store .runtimeExecuting value
    · rw [Stage.after_of_stays stage notReset published left]
      exact reset
    · obtain ⟨value, stores⟩ := not_forall.mp left
      rw [ne_eq, not_not] at stores
      subst stores
      cases stage with
      | untouched => exact absurd rfl reset.1
      | _ => exact ⟨nofun, nofun⟩

theorem Stage.reset_foldl
    {stage : Stage} {history : List AgentEvent} (reset : Stage.Reset stage)
    (silent : ∀ answer, ⟨.resetProvider, answer⟩ ∉ history) :
    Stage.Reset (history.foldl Stage.after stage) := by
  induction history generalizing stage with
  | nil => exact reset
  | cons event rest induction =>
      obtain ⟨op, answer⟩ := event
      apply induction
      · apply Stage.reset_after reset
        rintro rfl
        exact silent answer List.mem_cons_self
      · exact fun answer member => silent answer (List.mem_cons_of_mem _ member)

/-- An execution that opens the gate after a last reset that succeeded. -/
theorem settled_of_reset
    {call : RuntimeCall} {earlier later : List AgentEvent}
    {value : agents.Answer AgentOp.resetProvider}
    {rest : agents.Answer (AgentOp.store .runtimeExecuting false) →
      Program agents RuntimeReturn}
    (run : (body hasProvider apiKey model bindings call).Runs
      (earlier ++ ⟨.resetProvider, value⟩ :: later)
      (.call (AgentOp.store .runtimeExecuting false) rest))
    (succeeded : value = .ok ())
    (silent : ∀ answer, ⟨.resetProvider, answer⟩ ∉ later) :
    (earlier ++ ⟨.resetProvider, value⟩ :: later).foldl Stage.after
      .untouched = .settled true := by
  subst succeeded
  have staged := (body_staged hasProvider apiKey model bindings call).runs run
  have tried : (earlier.foldl Stage.after .untouched).Allows .resetProvider :=
    staged.1 earlier _ later rfl
  have ended : ((earlier ++ ⟨.resetProvider, .ok ()⟩ :: later).foldl
      Stage.after .untouched).Allows (.store .runtimeExecuting false) :=
    staged.2.1
  rw [List.foldl_append, List.foldl_cons] at ended ⊢
  have reset : Stage.Reset ((earlier.foldl Stage.after .untouched).after
      ⟨.resetProvider, .ok ()⟩) := by
    rcases tried with same | same | ⟨emptied, same⟩ <;> rw [same] <;>
      exact ⟨nofun, nofun⟩
  have last := Stage.reset_foldl reset silent
  rcases ended with untouched | ⟨emptied, settled⟩
  · exact absurd untouched last.1
  · cases emptied with
    | true => exact settled
    | false => exact absurd settled last.2

/-- The history is empty when an execution opens the gate after its reset. -/
theorem empty_of_released
    {before : RuntimeLog Thread} {thread : Thread} {call : RuntimeCall}
    {earlier later : List AgentEvent}
    (execution : Execution
      (Threads.Step conversing (body hasProvider apiKey model bindings))
      (Threads.idle ({}, { entries := held }))
      (before ++ [.performs thread ⟨.store .runtimeExecuting false, ()⟩])
      system)
    (atCall : Threads.current before thread =
      some (call, earlier ++ ⟨.resetProvider, .ok ()⟩ :: later))
    (silent : ∀ answer, ⟨.resetProvider, answer⟩ ∉ later) :
    system.shared.2.entries = [] := by
  obtain ⟨source, past, step⟩ := execution.last
  cases step with
  | performs _ runs performed =>
      have running := Threads.runs_current past thread
      rw [atCall, runs] at running
      cases running with
      | runs run =>
          have settled := settled_of_reset run rfl silent
          have atStage : stages before thread = some (.settled true) := by
            rw [stages, Threads.phases, atCall, ← settled]
            rfl
          obtain ⟨phase, atPhase, _⟩ := Threads.allowed_of_performs
            (body_verified hasProvider apiKey model bindings) past runs
          have follows := performed.2.eq_of_unused id rfl
          exact (congrArg Conversation.entries follows).trans
            ((kept past atPhase atStage).emptied (Or.inr rfl)).1

/-- Nobody is past the gate that an execution has just opened. -/
theorem opened_of_released
    {before : RuntimeLog Thread} {thread : Thread}
    {source : RuntimeThreads Thread}
    {next : agents.Answer (AgentOp.store .runtimeExecuting false) →
      Program agents RuntimeReturn}
    (past : Execution
      (Threads.Step memoryOf (body hasProvider apiKey model bindings))
      (Threads.idle {}) before source)
    (runs : source.running thread =
      some (.call (AgentOp.store .runtimeExecuting false) next))
    (other : Thread) :
    ¬ PastGate .runtimeExecuting
      (before ++ [.performs thread ⟨.store .runtimeExecuting false, ()⟩])
      other := by
  intro inside
  obtain ⟨phase, atPhase, allowed⟩ := Threads.allowed_of_performs
    (body_verified hasProvider apiKey model bindings) past runs
  rcases Threads.within_snoc.mp inside with entered | ⟨earlier, stays⟩
  · injection entered with _ same
    exact absurd (congrArg Event.op same) nofun
  · obtain ⟨_, otherPhase, otherScope, rfl⟩ :=
      (pastGate_iff past other).mp earlier
    have gated : phase.IsGated := by
      by_contra outside
      exact (stays_of_not_gated allowed outside).2.2 false rfl
    obtain ⟨scope, rfl⟩ := gated
    have own := (exclusive past).gate.unique otherPhase atPhase
    subst own
    exact stays rfl

/-! ## What an execution reads and asks for -/

/-- An execution reads a set flag when its own session was cancelled. -/
theorem flag_read_iff
    {system : RuntimeThreads Thread} {thread : Thread} {value : Bool}
    {past since later : RuntimeLog Thread} {call : RuntimeCall}
    (execution : Execution
      (Threads.Step memoryOf (body hasProvider apiKey model bindings))
      (Threads.idle {})
      ((past ++ .calls thread call :: since) ++
        .performs thread ⟨.load .cancelled, value⟩ :: later) system)
    (stays : Threads.StaysInCall thread since) :
    value = true ↔ ∃ before canceller after,
      since = before ++
          .performs canceller ⟨.store .cancelled true, ()⟩ :: after ∧
        Attached before thread := by
  constructor
  · rintro rfl
    exact own_cancellation execution stays
  · rintro ⟨before, canceller, after, rfl, attached⟩
    apply (load_iff execution).mpr
    have regroup : past ++ .calls thread call :: (before ++
          .performs canceller ⟨.store .cancelled true, ()⟩ :: after) =
        (past ++ .calls thread call :: before) ++
          .performs canceller ⟨.store .cancelled true, ()⟩ :: after := by
      simp
    have within : Attached (past ++ .calls thread call :: before) thread := by
      have longer := attached.prepend (past ++ [.calls thread call])
      rwa [List.append_assoc] at longer
    rw [regroup] at execution ⊢
    obtain ⟨source, reached⟩ := execution.earlier
    have kept := flag_not_created_again reached within fun value member =>
      stays.2 value (List.mem_append_right _ member)
    exact ⟨_, after, canceller, rfl, within,
      fun again => kept (List.mem_cons_of_mem _ again)⟩

/-- The tools an execution of the context exposes, by name. -/
def Exposes (hasProvider : Bool) (apiKey model : String)
    (bindings : List NativeBinding) (context : AgentContext)
    (exposed : List (String × ExposedTool)) : Prop :=
  exposeTools context.profile context.task.constraints
      (anyRuntime hasProvider apiKey model bindings).tools [] {} =
    some (registryOf PermissionOutcome exposed)

/-- The requests an execution of the context may send. -/
def Requests (hasProvider : Bool) (apiKey model : String)
    (bindings : List NativeBinding) (json : JsonText)
    (context : AgentContext) : AgentOp → Prop
  | .startTurn request =>
      ∃ exposed input,
        Exposes hasProvider apiKey model bindings context exposed ∧
          json.dump (promptJson context) = .ok input ∧
          request =
            { apiKey := apiKey
              model := model
              systemInstruction := systemInstruction context.profile
              userPrompt := input
              tools := exposed.map fun entry => entry.2.definition }
  | .continueTurn request =>
      ∃ exposed responses,
        Exposes hasProvider apiKey model bindings context exposed ∧
          request =
            { apiKey := apiKey
              model := model
              systemInstruction := systemInstruction context.profile
              responses := responses
              tools := exposed.map fun entry => entry.2.definition }
  | _ => True

/-- What a prompt asks for is what its execution may send. -/
theorem requests_of_prompted
    {json : JsonText} {context : AgentContext} {input : String}
    {exposed : List (String × ExposedTool)} {op : AgentOp}
    (known : Exposes hasProvider apiKey model bindings context exposed)
    (serialized : json.dump (promptJson context) = .ok input)
    (prompted : Prompted apiKey model (sessionConfig context) exposed input
      op) :
    Requests hasProvider apiKey model bindings json context op := by
  cases op with
  | startTurn request => exact ⟨exposed, input, known, serialized, prompted⟩
  | continueTurn request =>
      obtain ⟨responses, same⟩ := prompted
      exact ⟨exposed, responses, known, same⟩
  | _ => trivial

/-- Every request of an execution is made from its own context. -/
theorem execute_requests
    {json : JsonText} {context : AgentContext}
    {text progress attached : Bool} :
    (body hasProvider apiKey model bindings
      (.execute json context text progress attached)).Holds
        (monitored fun _ _ => ())
        (fun _ op =>
          Requests hasProvider apiKey model bindings json context op)
        (fun _ _ => True) () := by
  apply Program.Holds.bind_of
  · apply execute_safe
    · intro _ op isOutside
      cases op with
      | startTurn request => exact isOutside.elim
      | continueTurn request => exact isOutside.elim
      | _ => trivial
    · intro exposed input known serialized
      rw [promptedSession_registryOf]
      have permits : ∀ (state : Unit) op,
          Prompted apiKey model (sessionConfig context) exposed input op →
            Requests hasProvider apiKey model bindings json context op :=
        fun _ _ prompted => requests_of_prompted known serialized prompted
      have handlers : HandlersRelated
          (fun ghost (_ : Action agents PermissionOutcome _) =>
            Action.Safe (monitored fun (_ : Unit) _ => ())
              (fun _ op =>
                Requests hasProvider apiKey model bindings json context op)
              ghost)
          (AgentRuntime.confirmHandler (hostHandler attached))
          (AgentRuntime.confirmHandler (hostHandler attached)) := by
        intro request
        cases attached with
        | false => exact .bind (.modify _) fun _ => .pure false
        | true =>
            apply Action.Safe.bind
            · exact .ofHost fun _ => ⟨trivial, fun _ _ _ => trivial⟩
            · exact fun approved => .bind (.modify _) fun _ => .pure approved
      exact prompt_related (safe_parametric permits) handlers
  · exact fun _ _ _ => trivial

/-! ## Isolation -/

/--
What executions of one runtime have in common, whatever the provider, the
tools and the callbacks answer: nothing of an execution reaches a later one.
-/
structure Isolated (hasProvider : Bool) (apiKey model : String)
    (bindings : List NativeBinding) (log : RuntimeLog Thread)
    (system : Conversing Thread) : Prop where
  /-- A first turn finds no history of an earlier execution. -/
  fresh : ∀ thread request next,
    system.running thread = some (.call (.startTurn request) next) →
      PastGate .runtimeExecuting log thread ∧
        ∀ entry ∈ system.shared.2.entries, entry = passes log
  /-- The prompt, the system instruction and the tools come from the context. -/
  requests : ∀ thread op next json context text progress attached history,
    system.running thread = some (.call op next) →
      Threads.current log thread =
          some (.execute json context text progress attached, history) →
        Requests hasProvider apiKey model bindings json context op
  /-- The flag is set only by a cancellation during this very execution. -/
  flag : ∀ past thread call since value later,
    log = (past ++ .calls thread call :: since) ++
        .performs thread ⟨.load .cancelled, value⟩ :: later →
      Threads.StaysInCall thread since →
        (value = true ↔ ∃ before canceller after,
          since = before ++
              .performs canceller ⟨.store .cancelled true, ()⟩ :: after ∧
            Attached before thread)
  /-- Two executions that are answered alike go on alike, permissions included. -/
  alike : ∀ (otherHeld : Nat) (otherLog : RuntimeLog Thread)
      (otherSystem : Conversing Thread),
    Execution
      (Threads.Step conversing (body hasProvider apiKey model bindings))
      (Threads.idle ({}, { entries := List.replicate otherHeld 0 })) otherLog
      otherSystem →
        ∀ thread other,
          Threads.current log thread = Threads.current otherLog other →
            system.running thread = otherSystem.running other
  /-- After a last reset that did not throw the history is empty. -/
  emptied : ∀ (before : RuntimeLog Thread) (thread : Thread)
      (after : RuntimeLog Thread) (call : RuntimeCall)
      (earlier later : List AgentEvent),
    log = before ++
        .performs thread ⟨.store .runtimeExecuting false, ()⟩ :: after →
      Threads.current before thread =
          some (call, earlier ++ ⟨.resetProvider, .ok ()⟩ :: later) →
        (∀ answer, ⟨.resetProvider, answer⟩ ∉ later) →
        (∀ other,
          .performs other ⟨.exchange .runtimeExecuting true, false⟩ ∉ after) →
          system.shared.2.entries = []

/--
In every interleaving of executions and cancellations of one runtime, and
whatever history its provider held before, the executions are isolated.
-/
theorem executions_isolated
    (held : Nat) (log : RuntimeLog Thread) (system : Conversing Thread)
    (execution : Execution
      (Threads.Step conversing (body hasProvider apiKey model bindings))
      (Threads.idle ({}, { entries := List.replicate held 0 })) log system) :
    Isolated hasProvider apiKey model bindings log system := by
  have forgotten := forget_execution execution
  constructor
  · intro thread request next runs
    obtain ⟨phase, atPhase, _⟩ := Threads.allowed_of_performs
      (body_verified hasProvider apiKey model bindings) execution runs
    obtain ⟨stage, atStage, permitted⟩ := Threads.allowed_of_performs
      (body_staged hasProvider apiKey model bindings) execution runs
    obtain ⟨own, gated⟩ :=
      (kept execution atPhase atStage).attached permitted
    rw [execution_eq_passes execution] at own
    exact ⟨(pastGate_iff forgotten thread).mpr ⟨phase, atPhase, gated⟩, own⟩
  · intro thread op next json context text progress attached history runs
      atCall
    have running := Threads.runs_current execution thread
    rw [atCall, runs] at running
    cases running with
    | runs run => exact (execute_requests.runs run).2.1
  · rintro past thread call since value later rfl stays
    exact flag_read_iff forgotten stays
  · intro otherHeld otherLog otherSystem otherExecution thread other same
    exact Threads.running_eq_of_current_eq execution otherExecution same
  · rintro before thread after call earlier later rfl atCall silent nobody
    rw [← List.singleton_append, ← List.append_assoc] at execution
    obtain ⟨released, reached⟩ := execution.earlier
    obtain ⟨source, past, step⟩ := reached.last
    cases step with
    | performs _ runs _ =>
        exact empty_while_opened
          (opened_of_released (forget_execution past) runs)
          (fun _ reached => empty_of_released reached atCall silent)
          execution nobody

end Interleavings

/-! ## A provider that remembers its turns -/

/-- What a provider does that adds an entry for every turn it is asked for. -/
def Conversation.remembers (conversation : Conversation) :
    AgentEvent → Conversation
  | ⟨.exchange .runtimeExecuting true, false⟩ =>
      { conversation with execution := conversation.execution + 1 }
  | ⟨.resetProvider, .ok _⟩ => { conversation with entries := [] }
  | ⟨.startTurn _, _⟩ =>
      { conversation with
        entries := conversation.execution :: conversation.entries }
  | _ => conversation

theorem Conversation.follows_remembers
    (conversation : Conversation) (event : AgentEvent) :
    conversation.Follows event (conversation.remembers event) := by
  obtain ⟨op, answer⟩ := event
  change AgentOp at op
  cases op with
  | exchange name value =>
      cases name with
      | runtimeExecuting =>
          cases value <;> cases answer <;>
            first
            | rfl
            | exact Or.inr ⟨id, rfl⟩
      | _ => exact Or.inr ⟨id, rfl⟩
  | resetProvider =>
      cases answer with
      | ok value => rfl
      | error failure => exact Or.inl ⟨trivial, .refl _⟩
  | startTurn request =>
      refine Or.inl ⟨trivial, rfl, fun entry member => ?_⟩
      exact (List.mem_cons.mp member).symm
  | _ =>
      first
      | exact Or.inr ⟨id, rfl⟩
      | exact Or.inl ⟨trivial, .refl _⟩

/-- The memory and such a provider, with answers that say nothing else. -/
def remembering : Threads.Responses Bool RuntimeCall RuntimeReturn
    (Memory Bool × Conversation) agents :=
  fun log thread shared op =>
    (scheduled (fun _ _ => quiet) log thread shared.1 op).map
      fun (answer, after) =>
        (answer, after, shared.2.remembers ⟨op, answer⟩)

def greeterCall : RuntimeCall :=
  .execute (.knowing [])
    { profile := { id := "greeter" }
      task := { id := "1", objective := "Greet.", workingDirectory := "/" } }
    false false false

/-- Two executions, one after the other. -/
def greetedTwice : Threads.Played Bool RuntimeCall RuntimeReturn
    (Memory Bool × Conversation) agents :=
  Threads.play remembering (body true "key" "model" [])
    ({}, { entries := [0, 0] })
    (.starts true greeterCall :: List.replicate 60 (.continues true) ++
      .starts false greeterCall :: List.replicate 60 (.continues false))

theorem remembering_performs
    (log : RuntimeLog Bool) (thread : Bool)
    (shared : Memory Bool × Conversation) (op : AgentOp)
    (answer : agents.Answer op) (after : Memory Bool × Conversation)
    (responded : remembering log thread shared op = some (answer, after)) :
    (conversing thread).perform shared op answer after := by
  obtain ⟨⟨first, memory⟩, scheduledSo, same⟩ :=
    Option.map_eq_some_iff.mp responded
  cases same
  exact ⟨scheduled_performs _ _ _ _ _ _ _ scheduledSo,
    shared.2.follows_remembers _⟩

theorem executions_isolated_twice :
    Isolated true "key" "model" [] greetedTwice.log greetedTwice.system :=
  executions_isolated 2 _ _ (Threads.play_execution remembering_performs _)

end ArnCore.Agent.ExecutionIsolation
