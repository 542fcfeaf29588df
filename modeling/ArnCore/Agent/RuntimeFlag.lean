import ArnCore.Agent.RuntimeExclusion

/-!
# The flag of an execution

Every execution has a cancellation flag of its own.  It is set exactly when a
cancellation found the session of this very execution attached: what earlier
executions did, and cancellations that came before the session was attached or
after it was detached, leave no trace in it.
-/

namespace ArnCore.Agent.RuntimeFlag

open ArnCore.Interaction
open ArnCore.Provider
open ArnCore.Agent.Environment
open ArnCore.Agent.ExposedTools
open ArnCore.Agent.RuntimeExclusion
open ArnCore.Agent.RuntimeProtocol
open ArnCore.Agent.SharedMemory

variable {Thread : Type}

/-! ## Attached sessions and cancellations in the log -/

/-- The execution has attached its session and has not detached it yet. -/
def Attached (log : RuntimeLog Thread) (thread : Thread) : Prop :=
  Threads.Within (⟨.publish .activeCancel, ()⟩ : AgentEvent)
    ⟨.clear .activeCancel, ()⟩ log thread

/--
A cancellation stored the flag of the execution: its session was attached, and
it has not got another flag since.
-/
def Cancelled (log : RuntimeLog Thread) (thread : Thread) : Prop :=
  ∃ before after canceller,
    log = before ++
        .performs canceller ⟨.store .cancelled true, ()⟩ :: after ∧
      Attached before thread ∧
      .performs thread ⟨.store .cancelled false, ()⟩ ∉ after

theorem cancelled_snoc
    {log : RuntimeLog Thread}
    {event : ThreadEvent Thread RuntimeCall RuntimeReturn agents}
    {thread : Thread} :
    Cancelled (log ++ [event]) thread ↔
      (Attached log thread ∧ ∃ canceller,
          event = .performs canceller ⟨.store .cancelled true, ()⟩) ∨
        (Cancelled log thread ∧
          event ≠ .performs thread ⟨.store .cancelled false, ()⟩) := by
  constructor
  · rintro ⟨before, after, canceller, split, attached, stays⟩
    rcases snoc_eq_append_cons split with
      ⟨sameBefore, sameEvent, _⟩ | ⟨shorter, samePast, sameAfter⟩
    · rw [sameBefore] at attached
      exact Or.inl ⟨attached, canceller, sameEvent.symm⟩
    · subst sameAfter
      refine Or.inr ⟨⟨before, shorter, canceller, samePast, attached, ?_⟩, ?_⟩
      · exact fun again => stays (List.mem_append_left _ again)
      · rintro rfl
        exact stays (List.mem_append_right _ (List.mem_singleton.mpr rfl))
  · rintro (⟨attached, canceller, rfl⟩ |
      ⟨⟨before, after, canceller, split, attached, stays⟩, silent⟩)
    · exact ⟨log, [], canceller, rfl, attached, nofun⟩
    · refine ⟨before, after ++ [event], canceller, by simp [split], attached,
        ?_⟩
      intro again
      rcases List.mem_append.mp again with earlier | last
      · exact stays earlier
      · exact silent (List.mem_singleton.mp last).symm

/-- An event that neither sets nor renews the flag is not noticed. -/
theorem cancelled_snoc_iff
    {log : RuntimeLog Thread}
    {event : ThreadEvent Thread RuntimeCall RuntimeReturn agents}
    {thread : Thread}
    (notStored : ∀ canceller,
      event ≠ .performs canceller ⟨.store .cancelled true, ()⟩)
    (notReset : event ≠ .performs thread ⟨.store .cancelled false, ()⟩) :
    Cancelled (log ++ [event]) thread ↔ Cancelled log thread := by
  rw [cancelled_snoc]
  constructor
  · rintro (⟨_, canceller, same⟩ | ⟨cancelled, _⟩)
    · exact absurd same (notStored canceller)
    · exact cancelled
  · exact fun cancelled => Or.inr ⟨cancelled, notReset⟩

/-- A cancelled execution stays cancelled until it gets another flag. -/
theorem Cancelled.append
    {log later : RuntimeLog Thread} {thread : Thread}
    (cancelled : Cancelled log thread)
    (stays : .performs thread ⟨.store .cancelled false, ()⟩ ∉ later) :
    Cancelled (log ++ later) thread := by
  obtain ⟨before, after, canceller, rfl, attached, silent⟩ := cancelled
  refine ⟨before, after ++ later, canceller, by simp, attached, ?_⟩
  exact fun again => (List.mem_append.mp again).elim silent stays

/-- Once the session is detached, no cancellation reaches the flag. -/
theorem cancelled_iff_of_detached
    {earlier later : RuntimeLog Thread} {thread : Thread}
    [DecidableEq Thread]
    (detached : ⟨.publish .activeCancel, ()⟩ ∉
      Threads.eventsOf thread later)
    (kept : ⟨.store .cancelled false, ()⟩ ∉ Threads.eventsOf thread later) :
    Cancelled
        (earlier ++ .performs thread ⟨.clear .activeCancel, ()⟩ :: later)
        thread ↔
      Cancelled earlier thread := by
  constructor
  · rintro ⟨before, after, canceller, split, attached, stays⟩
    rcases List.append_eq_append_iff.mp split with
      ⟨between, rfl, rest⟩ | ⟨between, rfl, rest⟩
    · cases between with
      | nil => cases rest
      | cons first between =>
          injection rest with sameFirst sameRest
          subst sameFirst
          refine absurd attached (Threads.not_within_of_left nofun ?_)
          intro member
          apply detached
          rw [sameRest]
          exact Threads.mem_eventsOf.mpr
            (List.mem_append_left _ (Threads.mem_eventsOf.mp member))
    · cases between with
      | nil => cases rest
      | cons first between =>
          injection rest with sameFirst sameRest
          subst sameFirst
          refine ⟨before, between, canceller, rfl, attached, ?_⟩
          rw [sameRest] at stays
          exact fun again => stays (List.mem_append_left _ again)
  · intro cancelled
    refine cancelled.append fun again => ?_
    rcases List.mem_cons.mp again with same | member
    · injection same with _ same
      exact absurd (congrArg Event.op same) nofun
    · exact kept (Threads.mem_eventsOf.mpr member)

/-- The session of the execution is attached. -/
def IsAttached (phase : Phase) : Prop :=
  ∃ scope, phase = .gated scope ∧ scope.activeCancel = true

theorem activeCancel_after
    {scope : Scope} {op : AgentOp} :
    (scope.after op).activeCancel = true ↔
      op = .publish .activeCancel ∨
        (scope.activeCancel = true ∧ op ≠ .clear .activeCancel) := by
  cases op with
  | publish name => cases name <;> simp [Scope.after]
  | clear name => cases name <;> simp [Scope.after]
  | construct name => cases name <;> simp [Scope.after]
  | destroy name => cases name <;> simp [Scope.after]
  | lock name => cases name <;> simp [Scope.after]
  | unlock name => cases name <;> simp [Scope.after]
  | store flag value => cases flag <;> cases value <;> simp [Scope.after]
  | _ => simp [Scope.after]

/-- The scope of a call changes with its operations only. -/
theorem scope_of_observe
    {phase : Phase} {op : AgentOp} {answer : agents.Answer op}
    {scope : Scope} (gated : observe phase ⟨op, answer⟩ = .gated scope) :
    scope = {} ∨ ∃ earlier, phase = .gated earlier ∧
      scope = earlier.after op := by
  cases phase with
  | gated current =>
      by_cases stays : ∀ value, op ≠ .store .runtimeExecuting value
      · rw [observe_gated stays] at gated
        cases gated
        exact Or.inr ⟨current, rfl, rfl⟩
      · obtain ⟨value, stores⟩ := not_forall.mp stays
        rw [ne_eq, not_not] at stores
        subst stores
        cases gated
  | entering =>
      cases op with
      | exchange name value =>
          cases name with
          | runtimeExecuting =>
              cases answer with
              | true => cases gated
              | false =>
                  cases gated
                  exact Or.inl rfl
          | _ => cases gated
      | _ => cases gated
  | waiting =>
      cases op with
      | lock name => cases name <;> cases gated
      | _ => cases gated
  | inspecting found =>
      cases op with
      | unlock name => cases name <;> cases found <;> cases gated
      | present name => cases name <;> cases found <;> cases gated
      | _ => cases found <;> cases gated
  | refused => cases op <;> cases gated
  | released => cases op <;> cases gated
  | left => cases op <;> cases gated

/-- What a scope has, an operation of the call has brought about. -/
theorem event_of_scope
    (has : Scope → Prop) {op : AgentOp}
    (initially : ¬ has {})
    (follows : ∀ scope other, has (scope.after other) →
      other = op ∨ has scope)
    {call : RuntimeCall} {history : List AgentEvent} {scope : Scope}
    (atScope : history.foldl observe (start call) = .gated scope)
    (holds : has scope) :
    ∃ answer, (⟨op, answer⟩ : AgentEvent) ∈ history := by
  induction history using List.reverseRecOn generalizing scope with
  | nil => cases call <;> cases atScope
  | append_singleton history last induction =>
      rw [List.foldl_append] at atScope
      obtain ⟨other, answer⟩ := last
      rcases scope_of_observe atScope with rfl | ⟨earlier, atEarlier, rfl⟩
      · exact absurd holds initially
      · rcases follows earlier other holds with rfl | held
        · exact ⟨answer,
            List.mem_append_right _ (List.mem_singleton.mpr rfl)⟩
        · obtain ⟨found, member⟩ := induction atEarlier held
          exact ⟨found, List.mem_append_left _ member⟩

/-- A call whose session is attached has attached it itself. -/
theorem published_of_attached
    {call : RuntimeCall} {history : List AgentEvent}
    (attached : IsAttached (history.foldl observe (start call))) :
    ⟨.publish .activeCancel, ()⟩ ∈ history := by
  obtain ⟨scope, atScope, activeCancel⟩ := attached
  obtain ⟨_, member⟩ := event_of_scope (·.activeCancel = true) nofun
    (fun scope other later => (activeCancel_after.mp later).imp id And.left)
    atScope activeCancel
  exact member

theorem ready_after {scope : Scope} {op : AgentOp}
    (ready : (scope.after op).ready = true) :
    op = .store .cancelled false ∨ scope.ready = true := by
  cases op with
  | publish name => cases name <;> exact Or.inr ready
  | clear name => cases name <;> exact Or.inr ready
  | construct name => cases name <;> exact Or.inr ready
  | destroy name =>
      cases name with
      | cancelled => cases ready
      | _ => exact Or.inr ready
  | lock name => cases name <;> exact Or.inr ready
  | unlock name => cases name <;> exact Or.inr ready
  | store name value =>
      cases name with
      | cancelled =>
          cases value with
          | false => exact Or.inl rfl
          | true => exact Or.inr ready
      | _ => exact Or.inr ready
  | _ => exact Or.inr ready

/-- A call whose flag is ready has created it itself. -/
theorem created_of_ready
    {call : RuntimeCall} {history : List AgentEvent} {scope : Scope}
    (atScope : history.foldl observe (start call) = .gated scope)
    (ready : scope.ready = true) :
    ⟨.store .cancelled false, ()⟩ ∈ history := by
  obtain ⟨_, member⟩ := event_of_scope (·.ready = true) nofun
    (fun scope other later => ready_after later) atScope ready
  exact member

/-- The events after which a session is attached. -/
theorem observe_attached_iff
    (phase : Phase) (op : AgentOp) (answer : agents.Answer op)
    (allowed : Allowed phase op) :
    IsAttached (observe phase ⟨op, answer⟩) ↔
      (⟨op, answer⟩ : AgentEvent) = ⟨.publish .activeCancel, ()⟩ ∨
        (IsAttached phase ∧
          (⟨op, answer⟩ : AgentEvent) ≠ ⟨.clear .activeCancel, ()⟩) := by
  have publishes : (⟨op, answer⟩ : AgentEvent) =
      ⟨.publish .activeCancel, ()⟩ ↔ op = .publish .activeCancel := by
    constructor
    · exact congrArg Event.op
    · rintro rfl
      rfl
  have clears : (⟨op, answer⟩ : AgentEvent) = ⟨.clear .activeCancel, ()⟩ ↔
      op = .clear .activeCancel := by
    constructor
    · exact congrArg Event.op
    · rintro rfl
      rfl
  rw [publishes, ne_eq, clears]
  by_cases gated : ∃ scope, phase = .gated scope
  · obtain ⟨scope, rfl⟩ := gated
    by_cases stays : ∀ value, op ≠ .store .runtimeExecuting value
    · rw [observe_gated stays]
      have own : ∀ found, IsAttached (.gated found) ↔
          found.activeCancel = true := by
        intro found
        constructor
        · rintro ⟨_, ⟨⟩, attached⟩
          exact attached
        · exact fun attached => ⟨found, rfl, attached⟩
      rw [own, own]
      exact activeCancel_after
    · obtain ⟨value, same⟩ := not_forall.mp stays
      rw [ne_eq, not_not] at same
      subst same
      cases value with
      | true => exact allowed.1.elim
      | false =>
          have left : scope = {} := allowed
          subst left
          refine iff_of_false ?_ ?_
          · rintro ⟨_, ⟨⟩, _⟩
          · rintro (⟨⟨⟩⟩ | ⟨⟨_, ⟨⟩, ⟨⟩⟩, _⟩)
  · refine iff_of_false ?_ ?_
    · rintro ⟨scope, same, attached⟩
      rcases (observe_gated_iff phase op answer allowed).mp ⟨scope, same⟩ with
        enters | ⟨⟨_, same⟩, _⟩
      · have exchanged : op = .exchange .runtimeExecuting true :=
          congrArg Event.op enters
        subst exchanged
        have atGate : phase = .entering := entering_of_exchange allowed
        subst atGate
        rw [enters] at same
        cases same
        cases attached
      · exact gated ⟨_, same⟩
    · rintro (same | ⟨⟨scope, same, _⟩, _⟩)
      · subst same
        cases phase with
        | gated scope => exact gated ⟨scope, rfl⟩
        | entering => cases allowed
        | waiting => cases allowed
        | inspecting found =>
            cases found with
            | none => cases allowed
            | some found => exact allowed.elim nofun fun other => other.2
        | refused => exact allowed.elim
        | released => exact allowed.elim
        | left => exact allowed.elim
      · exact gated ⟨scope, same⟩

section Interleavings

variable [DecidableEq Thread] {hasProvider : Bool} {apiKey model : String}
  {bindings : List NativeBinding} {log : RuntimeLog Thread}
  {system : RuntimeThreads Thread}

/-- The attached session in the history agrees with the phases. -/
theorem attached_iff
    (execution : Execution
      (Threads.Step memoryOf (body hasProvider apiKey model bindings))
      (Threads.idle {}) log system)
    (thread : Thread) :
    Attached log thread ↔
      ∃ phase, Threads.phases start observe log thread = some phase ∧
        IsAttached phase := by
  refine Threads.within_iff
    (body_verified hasProvider apiKey model bindings) ?_ observe_attached_iff
    ?_ execution thread
  · rintro (_ | _) ⟨scope, ⟨⟩, _⟩
  · rintro phase value ends ⟨scope, rfl, _⟩
    exact ends

omit [DecidableEq Thread] in
/-- A step of the execution itself leaves its flag alone, or initialises it. -/
theorem flag_iff_own
    {thread : Thread} {scope : Scope} {op : AgentOp}
    {answer : agents.Answer op} {memory : Memory Thread}
    (allowed : scope.Allows op) (ready : (scope.after op).ready = true)
    (earlier : scope.ready = true →
      (memory.flags .cancelled = true ↔ Cancelled log thread)) :
    (memory.update thread op).flags .cancelled = true ↔
      Cancelled (log ++ [.performs thread ⟨op, answer⟩]) thread := by
  by_cases initialises : op = .store .cancelled false
  · subst initialises
    refine iff_of_false ?_ ?_
    · show ¬ Function.update memory.flags .cancelled false .cancelled = true
      rw [Function.update_self]
      exact nofun
    · rw [cancelled_snoc]
      rintro (⟨_, canceller, same⟩ | ⟨_, different⟩)
      · injection same with _ same
        exact absurd (congrArg Event.op same) nofun
      · exact different rfl
  · have notStored : ∀ canceller,
        (.performs thread ⟨op, answer⟩ :
          ThreadEvent Thread RuntimeCall RuntimeReturn agents) ≠
          .performs canceller ⟨.store .cancelled true, ()⟩ := by
      intro canceller same
      injection same with _ same
      have stores : op = .store .cancelled true := congrArg Event.op same
      subst stores
      exact allowed.1.elim
    have notReset :
        (.performs thread ⟨op, answer⟩ :
          ThreadEvent Thread RuntimeCall RuntimeReturn agents) ≠
          .performs thread ⟨.store .cancelled false, ()⟩ := by
      intro same
      injection same with _ same
      exact initialises (congrArg Event.op same)
    have wasReady : scope.ready = true :=
      (ready_after ready).resolve_left initialises
    have sameFlag : (memory.update thread op).flags .cancelled =
        memory.flags .cancelled := by
      cases op with
      | store flag value =>
          cases flag with
          | cancelled =>
              cases value with
              | false => exact absurd rfl initialises
              | true => exact allowed.1.elim
          | _ => rfl
      | exchange flag value => exact allowed.1.elim
      | _ => rfl
    rw [sameFlag, earlier wasReady]
    exact (cancelled_snoc_iff notStored notReset).symm

omit [DecidableEq Thread] in
/-- A step of another call stores the flag when it found the session. -/
theorem flag_of_other
    {phase : Phase} {op : AgentOp} {memory : Memory Thread} {other : Thread}
    (allowed : Allowed phase op) (outside : ∀ scope, phase ≠ .gated scope) :
    (op = .store .cancelled true ∧ phase = .inspecting (some true)) ∨
      (op ≠ .store .cancelled true ∧
        (memory.update other op).flags .cancelled =
          memory.flags .cancelled) := by
  cases phase with
  | gated scope => exact absurd rfl (outside scope)
  | entering =>
      cases allowed
      exact Or.inr ⟨nofun, rfl⟩
  | waiting =>
      cases allowed
      exact Or.inr ⟨nofun, rfl⟩
  | inspecting found =>
      cases found with
      | none =>
          cases allowed
          exact Or.inr ⟨nofun, rfl⟩
      | some found =>
          rcases allowed with rfl | ⟨rfl, dereferences⟩
          · exact Or.inr ⟨nofun, rfl⟩
          · cases op with
            | store flag value =>
                cases flag <;> cases value <;>
                  first
                  | exact dereferences.elim
                  | exact Or.inl ⟨rfl, rfl⟩
            | exchange flag value => exact dereferences.elim
            | _ => exact Or.inr ⟨nofun, rfl⟩
  | refused => exact allowed.elim
  | released => exact allowed.elim
  | left => exact allowed.elim

/-- A step of another call sets the flag that it found attached, or no flag. -/
theorem flag_iff_other
    {other thread : Thread} {scope : Scope} {phase : Phase} {op : AgentOp}
    {answer : agents.Answer op}
    (past : Execution
      (Threads.Step memoryOf (body hasProvider apiKey model bindings))
      (Threads.idle {}) log system)
    (different : other ≠ thread)
    (own : Threads.phases start observe log thread = some (.gated scope))
    (otherPhase : Threads.phases start observe log other = some phase)
    (allowed : Allowed phase op)
    (flag : system.shared.flags .cancelled = true ↔ Cancelled log thread) :
    (system.shared.update other op).flags .cancelled = true ↔
      Cancelled (log ++ [.performs other ⟨op, answer⟩]) thread := by
  have inv := exclusive past
  have outside : ∀ found, phase ≠ .gated found := by
    rintro found rfl
    exact different (inv.gate.unique otherPhase own)
  rcases flag_of_other allowed outside with
    ⟨rfl, rfl⟩ | ⟨notStored, sameFlag⟩
  · refine iff_of_true ?_ ?_
    · show Function.update system.shared.flags .cancelled true .cancelled =
        true
      rw [Function.update_self]
    · rw [cancelled_snoc]
      refine Or.inl ⟨?_, other, rfl⟩
      obtain ⟨owner, found, ownPhase, _, _, _, activeCancel⟩ :=
        inv.owner_of_inspecting otherPhase
      have same := inv.gate.unique ownPhase own
      subst same
      apply (attached_iff past owner).mpr
      refine ⟨_, own, scope, rfl, ?_⟩
      have mirrors := (inv.gate.shown gated_injective own).mirrors
      rw [mirrors.activeCancel, owned_eq_some] at activeCancel
      exact activeCancel.1
  · rw [sameFlag, flag]
    refine (cancelled_snoc_iff ?_ ?_).symm
    · intro canceller same
      injection same with _ same
      exact notStored (congrArg Event.op same)
    · intro same
      injection same with same
      exact different same

/--
The flag of the execution past the gate is set exactly when a cancellation
found its session attached.
-/
theorem flag_iff
    (execution : Execution
      (Threads.Step memoryOf (body hasProvider apiKey model bindings))
      (Threads.idle {}) log system)
    {thread : Thread} {scope : Scope}
    (atPhase : Threads.phases start observe log thread =
      some (.gated scope))
    (ready : scope.ready = true) :
    system.shared.flags .cancelled = true ↔ Cancelled log thread := by
  have verified := body_verified hasProvider apiKey model bindings
  induction execution generalizing scope with
  | start => cases atPhase
  | @extend log before after event past last induction =>
      by_cases own : event.thread = thread
      · subst own
        cases last with
        | calls thread call idle =>
            rw [Threads.phases_calls] at atPhase
            simp only [ThreadEvent.thread, Function.update_self] at atPhase
            cases call <;> cases atPhase
        | returns thread runs =>
            rw [Threads.phases_returns] at atPhase
            simp only [ThreadEvent.thread, Function.update_self] at atPhase
            cases atPhase
        | @performs thread op next answer memory runs performed =>
            obtain ⟨phase, earlier, allowed⟩ :=
              Threads.allowed_of_performs verified past runs
            rw [Threads.phases_performs] at atPhase
            simp only [ThreadEvent.thread, Function.update_self, earlier,
              Option.map_some, Option.some.injEq] at atPhase
            obtain ⟨answers, rfl⟩ := performed
            rcases (observe_gated_iff phase op answer allowed).mp
                ⟨scope, atPhase⟩ with enters | ⟨⟨current, rfl⟩, stays⟩
            · have exchanged : op = .exchange .runtimeExecuting true :=
                congrArg Event.op enters
              subst exchanged
              rw [entering_of_exchange allowed, enters] at atPhase
              cases atPhase
              cases ready
            · have notStore :
                  ∀ value, op ≠ .store .runtimeExecuting value := by
                rintro value rfl
                cases value with
                | true => exact allowed.1.elim
                | false => exact stays rfl
              rw [observe_gated notStore] at atPhase
              cases atPhase
              exact flag_iff_own allowed ready
                fun wasReady => induction earlier wasReady
      · have samePhase : Threads.phases start observe log thread =
            some (.gated scope) := by
          rw [Threads.phases, Threads.current_snoc,
            Threads.advance_of_ne (Ne.symm own)] at atPhase
          exact atPhase
        have flag := induction samePhase ready
        cases last with
        | calls other call idle =>
            rw [cancelled_snoc_iff (by rintro canceller ⟨⟩) (by rintro ⟨⟩)]
            exact flag
        | returns other runs =>
            rw [cancelled_snoc_iff (by rintro canceller ⟨⟩) (by rintro ⟨⟩)]
            exact flag
        | @performs other op next answer memory runs performed =>
            obtain ⟨phase, otherPhase, allowed⟩ :=
              Threads.allowed_of_performs verified past runs
            obtain ⟨answers, rfl⟩ := performed
            exact flag_iff_other past own samePhase otherPhase allowed flag

/-- An execution that reads its flag is past the gate, with its flag ready. -/
theorem ready_of_load
    (execution : Execution
      (Threads.Step memoryOf (body hasProvider apiKey model bindings))
      (Threads.idle {}) log system)
    {thread : Thread}
    {next : agents.Answer (AgentOp.load .cancelled) →
      Program agents RuntimeReturn}
    (runs : system.running thread = some (.call (AgentOp.load .cancelled) next)) :
    ∃ scope, Threads.phases start observe log thread = some (.gated scope) ∧
      scope.ready = true := by
  obtain ⟨phase, atPhase, allowed⟩ := Threads.allowed_of_performs
    (body_verified hasProvider apiKey model bindings) execution runs
  cases phase with
  | gated scope => exact ⟨scope, atPhase, allowed⟩
  | entering => cases allowed
  | waiting => cases allowed
  | inspecting found =>
      cases found with
      | none => cases allowed
      | some found => exact allowed.elim nofun fun other => other.2.elim
  | refused => exact allowed.elim
  | released => exact allowed.elim
  | left => exact allowed.elim

/-- What an execution reads in its flag. -/
theorem load_iff
    {thread : Thread} {value : Bool} {before after : RuntimeLog Thread}
    (execution : Execution
      (Threads.Step memoryOf (body hasProvider apiKey model bindings))
      (Threads.idle {})
      (before ++ .performs thread ⟨.load .cancelled, value⟩ :: after)
      system) :
    value = true ↔ Cancelled before thread := by
  obtain ⟨source, target, past, step⟩ := execution.step_of_log
  cases step with
  | performs _ runs performed =>
      obtain ⟨scope, atPhase, ready⟩ := ready_of_load past runs
      have answers : value = source.shared.flags .cancelled := performed.1
      rw [answers]
      exact flag_iff past atPhase ready

end Interleavings

end ArnCore.Agent.RuntimeFlag
