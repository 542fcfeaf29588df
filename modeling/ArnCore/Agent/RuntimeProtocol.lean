import ArnCore.Agent.PromptDiscipline
import ArnCore.Agent.RuntimeOutline

/-!
# The protocol of the runtime

What a call of `execute` or `cancel_active_request` does to the gate, the
mutex, the two pointers and the local objects of an execution is a small
protocol.  The programs are compared with it here, once; statements about
interleavings then speak about the phases of the calls only.
-/

namespace ArnCore.Agent.RuntimeProtocol

open ArnCore.Interaction
open ArnCore.Provider
open ArnCore.Tool
open ArnCore.Agent.Environment
open ArnCore.Agent.EnvironmentSteps
open ArnCore.Agent.ExposedTools
open ArnCore.Agent.PromptDiscipline
open ArnCore.Agent.RuntimeOutline

/-! ## The calls of a runtime -/

inductive RuntimeCall where
  | execute (json : JsonText) (context : AgentContext)
      (text progress attached : Bool)
  | cancel

inductive RuntimeReturn where
  | executed (outcome : Except Exception AgentResult)
  | cancelled (outcome : Except Exception Unit)

/-- The program of a call of the runtime. -/
def body (hasProvider : Bool) (apiKey model : String)
    (bindings : List NativeBinding) :
    RuntimeCall → Program agents RuntimeReturn
  | .execute json context text progress attached => do
      let (outcome, _) ←
        ((anyRuntime hasProvider apiKey model bindings).execute json context
          (hostCallbacks text progress) (hostHandler attached)).run.run ()
      pure (.executed outcome)
  | .cancel => do
      let (outcome, _) ←
        (anyRuntime hasProvider apiKey model
          bindings).cancelActiveRequest.run.run {}
      pure (.cancelled outcome)

/-- The result of an execution that was refused. -/
def busy : AgentResult :=
  failure "runtime_busy" "This runtime is already executing a task."

/-! ## The protocol of one call -/

/-- What an execution past the gate owns and has published. -/
structure Scope where
  session : Bool := false
  cancelled : Bool := false
  ready : Bool := false
  holding : Bool := false
  active : Bool := false
  activeCancel : Bool := false
deriving DecidableEq

/-- What an operation changes in the scope. -/
def Scope.after (scope : Scope) : AgentOp → Scope
  | .construct .session => { scope with session := true }
  | .destroy .session => { scope with session := false }
  | .construct .cancelled => { scope with cancelled := true }
  | .destroy .cancelled => { scope with cancelled := false, ready := false }
  | .store .cancelled false => { scope with ready := true }
  | .lock .runtime => { scope with holding := true }
  | .unlock .runtime => { scope with holding := false }
  | .publish .activeSession => { scope with active := true }
  | .publish .activeCancel => { scope with activeCancel := true }
  | .clear .activeSession => { scope with active := false }
  | .clear .activeCancel => { scope with activeCancel := false }
  | _ => scope

/-- What an execution past the gate may do. -/
def Scope.Allows (scope : Scope) : AgentOp → Prop
  | .construct .session => True
  | .destroy .session =>
      scope.cancelled = false ∧ scope.active = false ∧
        scope.activeCancel = false
  | .construct .cancelled => scope.session = true ∧ scope.ready = false
  | .destroy .cancelled =>
      scope.active = false ∧ scope.activeCancel = false
  | .lock .runtime => True
  | .unlock .runtime =>
      scope.holding = true ∧ scope.active = scope.activeCancel
  | .publish .activeSession =>
      scope.holding = true ∧ scope.session = true ∧ scope.ready = true
  | .publish .activeCancel =>
      scope.holding = true ∧ scope.session = true ∧ scope.ready = true
  | .clear .activeSession => scope.holding = true
  | .clear .activeCancel => scope.holding = true
  | .store .cancelled false => scope.cancelled = true ∧ scope.ready = false
  | .store .runtimeExecuting false => scope = {}
  | .load .cancelled => scope.ready = true
  | .lock .session => scope.session = true
  | .unlock .session => scope.session = true
  | .modelCapabilities _ => scope.session = true
  | .resetProvider => scope.session = true ∧ scope.active = false
  | op =>
      InPrompt op ∧ scope.active = true ∧ scope.activeCancel = true ∧
        scope.holding = false

/-- Where a call of the runtime stands. -/
inductive Phase where
  | entering
  | refused
  | gated (scope : Scope)
  | released
  | waiting
  | inspecting (found : Option Bool)
  | left
deriving DecidableEq

/-- What the session is asked to do by a cancellation that found it. -/
def Dereferences : AgentOp → Prop
  | .store .cancelled true => True
  | .present .activeProvider => True
  | .lock .session => True
  | .unlock .session => True
  | .cancelProvider => True
  | _ => False

def Allowed : Phase → AgentOp → Prop
  | .entering, op => op = .exchange .runtimeExecuting true
  | .gated scope, op => scope.Allows op
  | .waiting, op => op = .lock .runtime
  | .inspecting none, op => op = .present .activeSession
  | .inspecting (some found), op =>
      op = .unlock .runtime ∨ (found = true ∧ Dereferences op)
  | _, _ => False

def observe : Phase → AgentEvent → Phase
  | .entering, ⟨.exchange .runtimeExecuting _, true⟩ => .refused
  | .entering, ⟨.exchange .runtimeExecuting _, false⟩ => .gated {}
  | .gated _, ⟨.store .runtimeExecuting _, _⟩ => .released
  | .gated scope, ⟨op, _⟩ => .gated (scope.after op)
  | .waiting, ⟨.lock .runtime, _⟩ => .inspecting none
  | .inspecting none, ⟨.present .activeSession, found⟩ =>
      .inspecting (some found)
  | .inspecting _, ⟨.unlock .runtime, _⟩ => .left
  | phase, _ => phase

/-- Where a call stands when it returns. -/
def Post : Phase → RuntimeReturn → Prop
  | .refused, value => value = .executed (.ok busy)
  | .released, .executed (.ok _) => True
  | .left, .cancelled _ => True
  | _, _ => False

def start : RuntimeCall → Phase
  | .execute _ _ _ _ _ => .entering
  | .cancel => .waiting

/-! ## The programs follow the protocol -/

section Protocol

variable {Locals Value Result : Type} {phase : Phase}

/-- An action that ends in the phase it starts in, however it is left. -/
abbrev Keeps (phase : Phase) (action : Action agents Locals Value) : Prop :=
  Action.Keeps observe Allowed phase action

/-- A disciplined action does nothing that the phase would notice. -/
theorem keeps_of_disciplined
    {action : Action agents Locals Value}
    (disciplined : Disciplined action)
    (permits : ∀ op, InPrompt op → Allowed phase op)
    (ignores : ∀ op answer, InPrompt op → observe phase ⟨op, answer⟩ = phase) :
    Keeps phase action := by
  intro locals
  exact (disciplined locals ⟨False, False⟩).unnoticed
    (fun _ op checked => permits op checked.1)
    (fun _ op answer checked => ignores op answer checked.1)

/-- The scope of an execution whose session and flag exist. -/
def flagScope (published : Bool) : Scope where
  session := true
  cancelled := true
  ready := true
  active := published
  activeCancel := published

end Protocol

/-! ## The phases of an execution -/

section Execution

variable {bindings : List NativeBinding}
  {registry : ToolRegistry agents PermissionOutcome}
  {apiKey model : String} {attached text progress : Bool}

theorem inPrompt_allowed (op : AgentOp) (inPrompt : InPrompt op) :
    Allowed (.gated (flagScope true)) op := by
  cases op with
  | load flag => cases flag <;> first | rfl | exact inPrompt.elim
  | lock name => cases name <;> first | rfl | exact inPrompt.elim
  | unlock name => cases name <;> first | rfl | exact inPrompt.elim
  | publish name =>
      cases name <;>
        first
        | exact inPrompt.elim
        | exact ⟨inPrompt, rfl, rfl, rfl⟩
  | clear name =>
      cases name <;>
        first
        | exact inPrompt.elim
        | exact ⟨inPrompt, rfl, rfl, rfl⟩
  | _ =>
      first
      | exact inPrompt.elim
      | exact ⟨inPrompt, rfl, rfl, rfl⟩

theorem inPrompt_unnoticed (op : AgentOp) (answer : agents.Answer op)
    (inPrompt : InPrompt op) (scope : Scope) :
    observe (.gated scope) ⟨op, answer⟩ = .gated scope := by
  cases op with
  | store flag value => exact inPrompt.elim
  | lock name => cases name <;> first | rfl | exact inPrompt.elim
  | unlock name => cases name <;> first | rfl | exact inPrompt.elim
  | publish name => cases name <;> first | rfl | exact inPrompt.elim
  | clear name => cases name <;> first | rfl | exact inPrompt.elim
  | construct name => exact inPrompt.elim
  | destroy name => exact inPrompt.elim
  | _ => rfl

/-- Where an execution stands at a point. -/
def At : Point → Phase → Prop
  | .entering, phase => phase = .entering
  | .refused, phase => phase = .refused
  | .claimed, phase => phase = .gated {}
  | .opened, phase => phase = .gated { session := true }
  | .asked, phase => phase = .gated { session := true }
  | .emptied, phase => phase = .gated { session := true }
  | .flagged, phase => phase = .gated { session := true, cancelled := true }
  | .lowered, phase => phase = .gated (flagScope false)
  | .attached, phase => phase = .gated (flagScope true)
  | .prompted, phase => ∃ published, phase = .gated (flagScope published)
  | .detached, phase => phase = .gated (flagScope false)
  | .finished, phase => phase = .gated (flagScope false)
  | .closing, phase => phase = .gated { session := true }
  | .closed, phase => phase = .gated {}
  | .released, phase => phase = .released

/-- An execution follows the protocol at every point. -/
theorem execution_outline
    (hasProvider : Bool) (json : JsonText) (context : AgentContext) :
    ExecutionOutline (monitored observe) Allowed hasProvider apiKey model
      bindings json context text progress attached At where
  claims := step_at rfl (by rintro (_ | _) <;> rfl)
  refuses _ found := found
  opens := step_at trivial fun _ => rfl
  asks :=
    provided_at (.modelCapabilities model) rfl rfl rfl (fun _ => rfl)
      (by rintro (failure | capabilities) <;> rfl)
  incompatible _ found := found
  empties :=
    provided_at .resetProvider rfl rfl ⟨rfl, rfl⟩ (fun _ => rfl)
      (by rintro (failure | ⟨⟩) <;> rfl)
  flags := step_at ⟨rfl, rfl⟩ fun _ => rfl
  lowers := step_at ⟨rfl, rfl⟩ fun _ => rfl
  attaches :=
    triple_assigned_at
      (.gated { flagScope false with holding := true })
      (.gated { flagScope false with holding := true, active := true })
      (.gated { flagScope true with holding := true })
      trivial rfl ⟨rfl, rfl, rfl⟩ (fun _ => rfl) ⟨rfl, rfl, rfl⟩
      (fun _ => rfl) ⟨rfl, rfl⟩ rfl
  prompts accepted registry input exposed serialized := by
    refine (triple_of_keeps (keeps_of_disciplined
      (prompt_disciplined (ofNativeTools_exposed exposed) _ input)
      inPrompt_allowed fun op answer inPrompt =>
        inPrompt_unnoticed op answer inPrompt _)).imp ?_
    exact fun _ _ found => ⟨true, found⟩
  unprompted _ found := ⟨true, found⟩
  detaches := by
    rintro locals _ ⟨published, rfl⟩
    have clears : SessionTriple (monitored observe) Allowed
        (· = .gated (flagScope published)) (assigned Pointer.clear)
        (Returning fun _ => At .detached) :=
      triple_assigned_at
        (.gated { flagScope published with holding := true })
        (.gated { flagScope published with holding := true, active := false })
        (.gated { flagScope false with holding := true })
        trivial rfl rfl (fun _ => rfl) rfl (fun _ => rfl) ⟨rfl, rfl⟩ rfl
    exact clears locals _ rfl
  resets :=
    provided_at .resetProvider rfl rfl ⟨rfl, rfl⟩ (fun _ => rfl)
      (by rintro (failure | ⟨⟩) <;> rfl)
  again _ found := ⟨false, found⟩
  checks := step_at rfl fun _ => rfl
  unflags := step_at ⟨rfl, rfl⟩ fun _ => rfl
  closes := step_at ⟨rfl, rfl, rfl⟩ fun _ => rfl
  releases := step_at rfl fun _ => rfl

/-- An execution is refused at once, or leaves the gate as it found it. -/
theorem execute_holds
    (hasProvider : Bool) (json : JsonText) (context : AgentContext) :
    Action.Holds (monitored observe) Allowed
      (fun outcome _ after => Post after (.executed outcome))
      ((anyRuntime hasProvider apiKey model bindings).execute json context
        (hostCallbacks text progress) (hostHandler attached)) ()
      .entering := by
  apply ((execution_outline hasProvider json context).execute () _ rfl).imp
  rintro (failure | result) locals after ends
  · exact ends.elim
  · rcases ends with ⟨rfl, refused⟩ | released
    · cases refused
      rfl
    · cases released
      trivial

end Execution

/-! ## The phases of a cancellation -/

section Cancellation

variable {bindings : List NativeBinding} {apiKey model : String}
  {hasProvider : Bool}

theorem guarded_cancel_keeps
    {Value : Type} {body : Action agents PermissionOutcome Value}
    (runs : Keeps (.inspecting (some true)) body) :
    Keeps (.inspecting (some true)) ((mutex .session).guarded body) :=
  keeps_guarded .session (Phase.inspecting (some true))
    (Phase.inspecting (some true)) (Or.inr ⟨rfl, trivial⟩) rfl runs
    (Or.inr ⟨rfl, trivial⟩) rfl

theorem session_cancel_keeps :
    Keeps (.inspecting (some true))
      (((anyRuntime hasProvider apiKey model bindings).session {} none
        none).cancelActiveRequest) := by
  apply Action.Keeps.bind
  · exact keeps_always (.present .activeProvider) (Or.inr ⟨rfl, trivial⟩)
      fun _ => rfl
  · intro active
    cases hasProvider with
    | false =>
        split_ifs
        · exact .pure ()
        · exact guarded_cancel_keeps (.pure ())
    | true =>
        have cancels : Keeps (.inspecting (some true))
            (Action.ofHost (ask AgentOp.cancelProvider) :
              Action agents PermissionOutcome Unit) := by
          intro locals
          refine ⟨Or.inr ⟨rfl, trivial⟩, ?_⟩
          rintro (failure | ⟨⟩) after rfl <;> rfl
        split_ifs
        · exact cancels
        · exact guarded_cancel_keeps cancels

/-- A cancellation inspects the pointers in one critical section. -/
theorem cancelActiveRequest_holds {locals : PermissionOutcome} :
    Action.Holds (monitored observe) Allowed
      (fun outcome _ after => Post after (.cancelled outcome))
      (anyRuntime hasProvider apiKey model bindings).cancelActiveRequest
      locals .waiting := by
  apply Action.holds_bind.mpr
  apply (holds_op (.lock .runtime)).mpr
  refine ⟨rfl, ?_⟩
  rintro ⟨⟩ locked rfl
  apply Action.holds_scopeGuard.mpr
  apply Action.holds_bind.mpr
  apply (holds_op (.present .activeSession)).mpr
  refine ⟨rfl, ?_⟩
  rintro (_ | _) inspected rfl
  · apply Action.holds_pure.mpr
    apply (holds_op (.unlock .runtime)).mpr
    refine ⟨Or.inl rfl, ?_⟩
    rintro ⟨⟩ unlocked rfl
    trivial
  · apply Action.holds_bind.mpr
    apply (holds_op (.store .cancelled true)).mpr
    refine ⟨Or.inr ⟨rfl, trivial⟩, ?_⟩
    rintro ⟨⟩ stored rfl
    apply (session_cancel_keeps locals).imp
    rintro outcome after reached rfl
    apply (holds_op (.unlock .runtime)).mpr
    refine ⟨Or.inl rfl, ?_⟩
    rintro ⟨⟩ unlocked rfl
    trivial

end Cancellation

/-- Every call of a runtime follows the protocol. -/
theorem body_verified
    (hasProvider : Bool) (apiKey model : String)
    (bindings : List NativeBinding) (call : RuntimeCall) :
    (body hasProvider apiKey model bindings call).Holds (monitored observe)
      Allowed Post (start call) := by
  cases call with
  | execute json context text progress attached =>
      apply Program.Holds.bind_of (execute_holds hasProvider json context)
      exact fun after outcome ends => ends
  | cancel =>
      apply Program.Holds.bind_of cancelActiveRequest_holds
      exact fun after outcome ends => ends

/-! ## Facts about the phases -/

/-- The call holds the mutex of the runtime. -/
def Phase.holdsMutex : Phase → Bool
  | .gated scope => scope.holding
  | .inspecting _ => true
  | _ => false

/-- Published objects exist, and outside the mutex both pointers agree. -/
structure Scope.Valid (scope : Scope) : Prop where
  published : scope.active = true ∨ scope.activeCancel = true →
    scope.session = true ∧ scope.ready = true
  ready : scope.ready = true → scope.cancelled = true
  nested : scope.cancelled = true → scope.session = true
  settled : scope.holding = false → scope.active = scope.activeCancel

theorem Scope.Valid.after
    {scope : Scope} {op : AgentOp}
    (valid : scope.Valid) (allowed : scope.Allows op) :
    (scope.after op).Valid := by
  rcases scope with ⟨session, cancelled, ready, holding, active, activeCancel⟩
  rcases valid with ⟨published, nested, inSession, settled⟩
  cases op with
  | store flag value =>
      cases flag <;> cases value <;> constructor <;>
        simp_all [Scope.after, Scope.Allows]
  | publish name =>
      cases name <;> constructor <;> simp_all [Scope.after, Scope.Allows]
  | clear name =>
      cases name <;> constructor <;> simp_all [Scope.after, Scope.Allows]
  | construct name =>
      cases name <;> constructor <;> simp_all [Scope.after, Scope.Allows]
  | destroy name =>
      cases name <;> constructor <;> simp_all [Scope.after, Scope.Allows]
  | lock name =>
      cases name <;> constructor <;> simp_all [Scope.after, Scope.Allows]
  | unlock name =>
      cases name <;> constructor <;> simp_all [Scope.after, Scope.Allows]
  | _ => exact ⟨published, nested, inSession, settled⟩

theorem observe_gated
    {scope : Scope} {op : AgentOp} {answer : agents.Answer op}
    (stays : ∀ value, op ≠ .store .runtimeExecuting value) :
    observe (.gated scope) ⟨op, answer⟩ = .gated (scope.after op) := by
  cases op with
  | store flag value =>
      cases flag with
      | runtimeExecuting => exact absurd rfl (stays value)
      | _ => rfl
  | _ => rfl

/-- The call is past the gate. -/
def Phase.IsGated (phase : Phase) : Prop :=
  ∃ scope, phase = .gated scope

/-- Only a call that stands before the gate exchanges its flag. -/
theorem entering_of_exchange
    {phase : Phase}
    (allowed : Allowed phase (.exchange .runtimeExecuting true)) :
    phase = .entering := by
  cases phase with
  | entering => rfl
  | gated scope => exact allowed.1.elim
  | waiting => cases allowed
  | inspecting found =>
      cases found with
      | none => cases allowed
      | some found =>
          rcases allowed with same | ⟨_, dereferences⟩
          · cases same
          · exact dereferences.elim
  | refused => exact allowed.elim
  | released => exact allowed.elim
  | left => exact allowed.elim

/-- Only a cancellation that found a session stores its flag. -/
theorem inspecting_of_store
    {phase : Phase} (allowed : Allowed phase (.store .cancelled true)) :
    phase = .inspecting (some true) := by
  cases phase with
  | inspecting found =>
      cases found with
      | none => cases allowed
      | some found =>
          rcases allowed with same | ⟨rfl, _⟩
          · cases same
          · rfl
  | entering => cases allowed
  | gated scope => exact allowed.1.elim
  | waiting => cases allowed
  | refused => exact allowed.elim
  | released => exact allowed.elim
  | left => exact allowed.elim

/-- The events after which a call is past the gate. -/
theorem observe_gated_iff
    (phase : Phase) (op : AgentOp) (answer : agents.Answer op)
    (allowed : Allowed phase op) :
    (observe phase ⟨op, answer⟩).IsGated ↔
      (⟨op, answer⟩ : AgentEvent) =
          ⟨.exchange .runtimeExecuting true, false⟩ ∨
        (phase.IsGated ∧
          (⟨op, answer⟩ : AgentEvent) ≠
            ⟨.store .runtimeExecuting false, ()⟩) := by
  cases phase with
  | entering =>
      cases allowed
      cases answer with
      | false => exact iff_of_true ⟨{}, rfl⟩ (Or.inl rfl)
      | true =>
          refine iff_of_false nofun ?_
          rintro (same | ⟨⟨_, ⟨⟩⟩, _⟩)
          injection same with _ value
          cases value
  | gated scope =>
      by_cases stays : ∀ value, op ≠ .store .runtimeExecuting value
      · rw [observe_gated stays]
        refine iff_of_true ⟨_, rfl⟩ (Or.inr ⟨⟨_, rfl⟩, ?_⟩)
        intro same
        exact stays false (congrArg Event.op same)
      · obtain ⟨value, same⟩ := not_forall.mp stays
        rw [ne_eq, not_not] at same
        subst same
        cases value with
        | true => exact allowed.1.elim
        | false =>
            refine iff_of_false nofun ?_
            rintro (same | ⟨_, other⟩)
            · exact absurd (congrArg Event.op same) nofun
            · exact other rfl
  | waiting =>
      cases allowed
      refine iff_of_false nofun ?_
      rintro (same | ⟨⟨_, ⟨⟩⟩, _⟩)
      exact absurd (congrArg Event.op same) nofun
  | inspecting found =>
      refine iff_of_false ?_ ?_
      · rintro ⟨scope, gated⟩
        cases found with
        | none =>
            cases allowed
            cases gated
        | some found =>
            rcases allowed with rfl | ⟨_, dereferences⟩
            · cases gated
            · cases op with
              | unlock name => cases name <;> cases gated
              | _ => cases gated
      · rintro (same | ⟨⟨_, ⟨⟩⟩, _⟩)
        cases same
        cases found with
        | none => cases allowed
        | some found => exact allowed.elim nofun fun other => other.2
  | refused => exact allowed.elim
  | released => exact allowed.elim
  | left => exact allowed.elim

end ArnCore.Agent.RuntimeProtocol
