import ArnCore.Agent.ConductedStages
import ArnCore.Agent.RuntimePermission

/-!
# The permission gate of a stage

In a call of the orchestrator tools are only reached through the runtime that
was made last, and that runtime was made for a profile of the registry.  Every
turn and every native tool is therefore gated by the profile of its stage, over
the whole history of the call.
-/

namespace ArnCore.Agent.StagePermissions

open ArnCore.Interaction
open ArnCore.Provider
open ArnCore.Agent.ConductedStages
open ArnCore.Agent.Environment
open ArnCore.Agent.ExposedTools
open ArnCore.Agent.LockDiscipline
open ArnCore.Agent.OrchestratorProtocol
open ArnCore.Agent.RuntimePermission
open ArnCore.Agent.WorkflowProtocol

/-- The profile a runtime is made for, if the event makes one. -/
def madeFor : AgentEvent → Option AgentProfile
  | ⟨.createRuntime profile, _⟩ => some profile
  | _ => none

/-- The profile of the stage a call is in: the last one a runtime was made for. -/
def stageProfile (history : List AgentEvent) : Option AgentProfile :=
  (history.filterMap madeFor).getLast?

theorem stageProfile_concat (history : List AgentEvent) (event : AgentEvent) :
    stageProfile (history ++ [event]) =
      (madeFor event).or (stageProfile history) := by
  rw [stageProfile, List.filterMap_append]
  cases made : madeFor event with
  | none => simp [made, stageProfile]
  | some profile => simp [made]

theorem stageProfile_concat_of_ne
    {history : List AgentEvent} {op : AgentOp} {answer : agents.Answer op}
    (other : ∀ profile, op ≠ .createRuntime profile) :
    stageProfile (history ++ [⟨op, answer⟩]) = stageProfile history := by
  have nothing : madeFor ⟨op, answer⟩ = none := by
    cases op with
    | createRuntime profile => exact absurd rfl (other profile)
    | _ => rfl
  rw [stageProfile_concat, nothing, Option.none_or]

/-- The operations the permission gate says something about. -/
def Reaches : AgentOp → Prop
  | .startTurn _ => True
  | .continueTurn _ => True
  | .enterTool _ _ => True
  | _ => False

/--
Turns and native tools are gated by the profile of the stage, which is one of
the given profiles.
-/
def StageGated (parts : OrchestratorParts) (profiles : List AgentProfile)
    (constraints : TaskConstraints) (history : List AgentEvent)
    (op : AgentOp) : Prop :=
  Reaches op →
    ∃ profile ∈ profiles, stageProfile history = some profile ∧
      Gated profile constraints (parts.runtimes profile).bindings history op

/-- The history so far, as an observer. -/
def record (history : List AgentEvent) (event : AgentEvent) :
    List AgentEvent :=
  history ++ [event]

section Execution

variable {hasProvider : Bool} {apiKey model : String}
  {bindings : List NativeBinding} {json : JsonText} {context : AgentContext}
  {text progress attached : Bool}

/-- A runtime makes no runtimes. -/
theorem not_makes
    {phase : RuntimeProtocol.Phase} {op : AgentOp}
    (permitted : RuntimeProtocol.Allowed phase op) (profile : AgentProfile) :
    op ≠ .createRuntime profile := by
  rintro rfl
  cases phase with
  | entering => cases permitted
  | gated scope => exact permitted.1
  | waiting => cases permitted
  | inspecting found =>
      cases found with
      | none => cases permitted
      | some found =>
          rcases permitted with same | ⟨_, dereferences⟩
          · cases same
          · exact dereferences
  | _ => exact permitted

/-- The stage of an execution stays the one its runtime was made for. -/
theorem runtime_leads
    {parts : OrchestratorParts} {profiles : List AgentProfile}
    (listed : context.profile ∈ profiles)
    (bound : (parts.runtimes context.profile).bindings = bindings) :
    Action.Leads record
      (StageGated parts profiles context.task.constraints)
      (fun history => stageProfile history = some context.profile)
      (fun _ => True)
      ((anyRuntime hasProvider apiKey model bindings).execute json context
        (hostCallbacks text progress) (hostHandler attached) :
        Action agents Unit AgentResult) := by
  rintro ⟨⟩ history atStage
  have protocol : Action.Holds (monitored RuntimeProtocol.observe)
      RuntimeProtocol.Allowed
      (fun outcome _ after => RuntimeProtocol.Post after (.executed outcome))
      ((anyRuntime hasProvider apiKey model bindings).execute json context
        (hostCallbacks text progress) (hostHandler attached) :
        Action agents Unit AgentResult) () .entering :=
    RuntimeProtocol.execute_holds hasProvider json context
  have gated : Action.Holds (monitored record)
      (Gated context.profile context.task.constraints bindings)
      (fun _ _ _ => True)
      ((anyRuntime hasProvider apiKey model bindings).execute json context
        (hostCallbacks text progress) (hostHandler attached) :
        Action agents Unit AgentResult) () history :=
    execution_guarded hasProvider json context () history
  let Stays (seen : RuntimeProtocol.Phase × List AgentEvent)
      (now : List AgentEvent) : Prop :=
    seen.2 = now ∧ stageProfile now = some context.profile
  have start : Stays (.entering, history) history := ⟨rfl, atStage⟩
  apply ((protocol.together gated).simulates ?_ ?_ start).imp
  · exact fun _ _ _ _ => trivial
  · rintro ⟨phase, seen⟩ now op ⟨rfl, atStage⟩ ⟨_, permitted⟩ _
    refine ⟨context.profile, listed, atStage, ?_⟩
    rw [bound]
    exact permitted
  · rintro ⟨phase, seen⟩ now op answer ⟨rfl, atStage⟩ ⟨permitted, _⟩
    refine ⟨rfl, ?_⟩
    exact (stageProfile_concat_of_ne (not_makes permitted)).trans atStage

end Execution

/-! ## Whole calls -/

/-- The orchestrator itself reaches nothing. -/
theorem not_reaches_of_coordinates
    {op : AgentOp} (own : Coordinates op) :
    ¬ Reaches op := by
  cases op with
  | startTurn request => exact own.elim
  | continueTurn request => exact own.elim
  | enterTool name arguments => exact own.elim
  | _ => exact fun reaches => reaches

theorem not_makes_of_coordinates
    {op : AgentOp} (own : Coordinates op) (profile : AgentProfile) :
    op ≠ .createRuntime profile := by
  rintro rfl
  exact own

/-- The gate of the stages holds from stage to stage. -/
theorem stages_conducted
    (parts : OrchestratorParts) (constraints : TaskConstraints)
    (profiles : List AgentProfile) :
    Conducts parts constraints record
      (StageGated parts profiles constraints)
      (fun rest _ => ∀ profile ∈ rest, profile ∈ profiles)
      (fun profile rest history =>
        (∀ other ∈ profile :: rest, other ∈ profiles) ∧
          stageProfile history = some profile) where
  permits := by
    intro history op own _ reaches
    exact absurd reaches (not_reaches_of_coordinates own)
  keeps := fun _ _ _ _ listed => listed
  attends := by
    rintro profile rest history ⟨op, answer⟩ own ⟨listed, atStage⟩
    refine ⟨listed, ?_⟩
    exact (stageProfile_concat_of_ne (not_makes_of_coordinates own)).trans
      atStage
  skips := fun _ _ _ listed => (List.forall_mem_cons.mp listed).2
  leaves := fun _ _ _ serves => (List.forall_mem_cons.mp serves.1).2
  creates := by
    intro profile rest history answer listed
    refine ⟨fun reaches => reaches.elim, listed, ?_⟩
    rw [record, stageProfile_concat]
    rfl
  executes := by
    intro rest context text progress attached constrained locals history serves
    obtain ⟨listed, atStage⟩ := serves
    subst constrained
    apply (runtime_leads (listed _ List.mem_cons_self) rfl locals history
      atStage).imp
    exact fun _ _ _ _ => (List.forall_mem_cons.mp listed).2

/-- Every call of the host keeps to the gates of its stages. -/
theorem hostBody_gated (parts : OrchestratorParts) (call : HostCall) :
    (hostBody parts call).Holds (monitored record)
      (StageGated parts (awaited parts call) (constraintsOf call))
      (fun _ _ => True) [] :=
  (hostBody_conducted (stages_conducted parts (constraintsOf call) _)
    (fun _ listed => listed)).mono (fun _ _ permitted => permitted)
    fun _ _ _ => trivial

end ArnCore.Agent.StagePermissions
