import ArnCore.Agent.AgentRuntime

/-!
# The bound tools

The runtime visits its bindings in order and remembers the names it has seen.
It rejects them when a tool is missing or a name is empty or repeated, and
otherwise registers the permitted tools behind the permission adapter.
-/

namespace ArnCore.Agent.BoundTools

open ArnCore.Interaction
open ArnCore.Tool

variable {signature : Signature}

/-- The names of the bound tools. -/
def boundNames (bindings : List (AgentToolBinding signature)) : List String :=
  bindings.filterMap fun binding =>
    binding.tool.map fun tool => tool.definition.name

/-- The tool a binding exposes, behind the permission adapter. -/
def shownTool (profile : AgentProfile) (constraints : TaskConstraints)
    (binding : AgentToolBinding signature) :
    Option (ITool signature PermissionOutcome) :=
  binding.tool.bind fun tool =>
    let classification := classify profile constraints binding.operations
    if tool.definition.name ∉ profile.allowedTools ∨
        classification.denied = true then
      none
    else
      some (permissionTool tool classification.ask classification.mutates)

/-- The tools that some bindings expose, in order. -/
def shownTools (profile : AgentProfile) (constraints : TaskConstraints)
    (bindings : List (AgentToolBinding signature)) :
    List (ITool signature PermissionOutcome) :=
  bindings.filterMap (shownTool profile constraints)

/-- No tool is missing, and the names are new, nonempty and distinct. -/
structure Admissible (seen : List String)
    (bindings : List (AgentToolBinding signature)) : Prop where
  present : ∀ binding ∈ bindings, binding.tool ≠ none
  named : ∀ name ∈ boundNames bindings, name ≠ "" ∧ name ∉ seen
  distinct : (boundNames bindings).Nodup

/-! ## The loop over the bindings -/

section Exposing

variable {profile : AgentProfile} {constraints : TaskConstraints}
  {binding : AgentToolBinding signature}
  {rest : List (AgentToolBinding signature)} {seen : List String}
  {tool : ITool signature PermissionOutcome}

theorem boundNames_cons (bound : binding.tool = some tool) :
    boundNames (binding :: rest) =
      tool.definition.name :: boundNames rest := by
  simp [boundNames, bound]

theorem admissible_cons (bound : binding.tool = some tool) :
    Admissible seen (binding :: rest) ↔
      ¬ (tool.definition.name = "" ∨ tool.definition.name ∈ seen) ∧
        Admissible (tool.definition.name :: seen) rest := by
  constructor
  · rintro ⟨present, named, distinct⟩
    rw [boundNames_cons bound] at named distinct
    obtain ⟨fresh, distinct⟩ := List.nodup_cons.mp distinct
    obtain ⟨⟨nonempty, unseen⟩, others⟩ := List.forall_mem_cons.mp named
    refine ⟨not_or.mpr ⟨nonempty, unseen⟩, ?_, ?_, distinct⟩
    · exact fun other member => present other (List.mem_cons_of_mem _ member)
    · intro name member
      refine ⟨(others name member).1, ?_⟩
      rintro (_ | ⟨_, inSeen⟩)
      · exact fresh member
      · exact (others name member).2 inSeen
  · rintro ⟨accepted, present, named, distinct⟩
    obtain ⟨nonempty, unseen⟩ := not_or.mp accepted
    refine ⟨?_, ?_, ?_⟩
    · intro other member
      rcases List.mem_cons.mp member with rfl | inRest
      · rw [bound]
        exact Option.some_ne_none tool
      · exact present other inRest
    · rw [boundNames_cons bound]
      intro name member
      rcases List.mem_cons.mp member with rfl | inRest
      · exact ⟨nonempty, unseen⟩
      · obtain ⟨filled, new⟩ := named name inRest
        exact ⟨filled, fun inSeen => new (List.mem_cons_of_mem _ inSeen)⟩
    · rw [boundNames_cons bound]
      refine List.nodup_cons.mpr ⟨fun member => ?_, distinct⟩
      exact (named _ member).2 List.mem_cons_self

/-- What the loop adds to a registry it was given. -/
theorem exposeTools_from
    (bindings : List (AgentToolBinding signature)) :
    ∀ (seen : List String)
      (registry result : ToolRegistry signature PermissionOutcome),
      exposeTools profile constraints bindings seen registry = some result ↔
        Admissible seen bindings ∧
          (shownTools profile constraints bindings).foldl
              (fun registry tool => (registry.registerTool (some tool)).2)
              registry =
            result := by
  induction bindings with
  | nil =>
      intro seen registry result
      have nothing : Admissible seen
          ([] : List (AgentToolBinding signature)) :=
        ⟨nofun, nofun, List.nodup_nil⟩
      simp [exposeTools, nothing, shownTools]
  | cons binding rest induction =>
      intro seen registry result
      rcases bound : binding.tool with _ | tool
      · have missing : ¬ Admissible seen (binding :: rest) :=
          fun admissible => admissible.present binding List.mem_cons_self bound
        simp [exposeTools, bound, missing]
      · rw [admissible_cons bound]
        simp only [exposeTools, bound]
        split_ifs with rejected listed denied
        · simp [rejected]
        · rw [induction]
          simp [rejected, shownTools, shownTool, bound, denied]
        · rw [induction]
          simp [rejected, shownTools, shownTool, bound, listed, denied]
        · rw [induction]
          simp [rejected, shownTools, shownTool, bound, listed]

/-- The names of the shown tools are among the bound names, in order. -/
theorem shown_sublist (bindings : List (AgentToolBinding signature)) :
    ((shownTools profile constraints bindings).map fun tool =>
      tool.definition.name).Sublist (boundNames bindings) := by
  induction bindings with
  | nil => exact List.Sublist.refl _
  | cons binding rest induction =>
      rcases bound : binding.tool with _ | tool
      · simpa [boundNames, shownTools, shownTool, bound] using induction
      · rw [boundNames_cons bound, shownTools, List.filterMap_cons]
        have named : ∀ shown,
            shownTool profile constraints binding = some shown →
              shown.definition.name = tool.definition.name := by
          intro shown found
          simp only [shownTool, bound, Option.bind_some] at found
          split at found
          · cases found
          · cases found
            rfl
        cases found : shownTool profile constraints binding with
        | none => exact induction.cons _
        | some shown =>
            rw [List.map_cons, named shown found]
            exact induction.cons_cons _

/-- A new registry holds the tools that admissible bindings show. -/
theorem exposeTools_eq_some
    {bindings : List (AgentToolBinding signature)}
    {result : ToolRegistry signature PermissionOutcome} :
    exposeTools profile constraints bindings [] {} = some result ↔
      Admissible [] bindings ∧
        ToolRegistry.registerAll (shownTools profile constraints bindings) =
          result :=
  exposeTools_from bindings [] {} result

end Exposing

end ArnCore.Agent.BoundTools
