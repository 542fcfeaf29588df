import ArnCore.Agent.BoundTools
import ArnCore.Agent.Environment

/-!
# The tools a runtime exposes

The runtime visits its bindings in order, rejects invalid ones, and registers
the permitted ones behind the permission adapter.  The registry it ends with is
compared with a declarative description of the permitted bindings.
-/

namespace ArnCore.Agent.ExposedTools

open ArnCore.Tool
open ArnCore.Agent.BoundTools
open ArnCore.Agent.Environment

/-! ## Runtimes over native tools -/

/-- A binding of a native tool: its definition and whether it asks itself. -/
structure NativeBinding where
  tool : Option (ToolDefinition × Bool)
  operations : List OperationClass

def NativeBinding.toBinding (binding : NativeBinding) :
    AgentToolBinding agents where
  tool := binding.tool.map fun tool => nativeTool tool.1 tool.2
  operations := binding.operations

/-- A runtime over native tools; the provider may be absent. -/
def anyRuntime (hasProvider : Bool) (apiKey model : String)
    (bindings : List NativeBinding) : AgentRuntime agents where
  provider := if hasProvider then some anyProvider else none
  apiKey := apiKey
  model := model
  tools := bindings.map NativeBinding.toBinding
  executing := flag .runtimeExecuting
  activeMutex := mutex .runtime
  active := pointer .activeSession
  activeCancel := pointer .activeCancel
  sessionLifetime := lifetime .session
  sessionMutex := mutex .session
  activeProvider := pointer .activeProvider
  cancelledLifetime := lifetime .cancelled
  cancelled := flag .cancelled

/-- The context every tool call of an execution receives. -/
def callContext (attached : Bool) : ToolContext agents PermissionOutcome where
  cancelRequested := some (flag .cancelled).load
  confirm := AgentRuntime.confirmHandler (hostHandler attached)

/-- The session the runtime prompts. -/
def promptedSession (apiKey model : String) (bindings : List NativeBinding)
    (attached : Bool) (config : AgentConfig)
    (registry : ToolRegistry agents PermissionOutcome) :
    AgentSession agents PermissionOutcome :=
  (anyRuntime true apiKey model bindings).session config (some registry)
    (AgentRuntime.confirmHandler (hostHandler attached))

/-! ## The permission of a binding -/

section Permission

variable (profile : AgentProfile) (constraints : TaskConstraints)
  (bindings : List NativeBinding)

/--
The profile and the task permit a binding: its tool is listed, it names an
operation, no operation is denied, and a read-only task only reads.
-/
def Offered (binding : NativeBinding) (definition : ToolDefinition) : Prop :=
  definition.name ∈ profile.allowedTools ∧
    binding.operations ≠ [] ∧
    (∀ operation ∈ binding.operations,
      profile.permissions.decisionFor operation = .allow ∨
        profile.permissions.decisionFor operation = .askUser) ∧
    (constraints.readOnly = true →
      ∀ operation ∈ binding.operations, operation = .readFile)

instance (binding : NativeBinding) (definition : ToolDefinition) :
    Decidable (Offered profile constraints binding definition) :=
  inferInstanceAs (Decidable (_ ∧ _ ∧ _ ∧ _))

/-- A confirmation is due before every call of the tool. -/
def MustConfirm (binding : NativeBinding) (confirms : Bool) : Prop :=
  confirms = true ∨
    ∃ operation ∈ binding.operations,
      profile.permissions.decisionFor operation = .askUser

/-- The names of the bound tools. -/
def names : List String :=
  bindings.filterMap fun binding =>
    binding.tool.map fun tool => tool.1.name

/-- Valid bindings are non-null and have unique, nonempty names. -/
def Valid : Prop :=
  (∀ binding ∈ bindings, binding.tool.isSome) ∧
    (∀ name ∈ names bindings, name ≠ "") ∧
    (names bindings).Nodup

/-- The definition of a binding that is offered. -/
def offer (binding : NativeBinding) : Option ToolDefinition :=
  binding.tool.bind fun tool =>
    if Offered profile constraints binding tool.1 then some tool.1 else none

/-- The definitions of all offered bindings. -/
def offers : List ToolDefinition :=
  bindings.filterMap (offer profile constraints)

end Permission

/-! ## The classification of a binding -/

section Classification

variable {profile : AgentProfile} {constraints : TaskConstraints}

theorem classify_denied
    {operations : List OperationClass} :
    (classify profile constraints operations).denied = false ↔
      operations ≠ [] ∧
        ∀ operation ∈ operations,
          profile.permissions.decisionFor operation ≠ .deny ∧
            (constraints.readOnly = true → operation = .readFile) := by
  have folded : ∀ (operations : List OperationClass)
      (start : Classification),
      (operations.foldl (Classification.add profile constraints)
          start).denied = false ↔
        start.denied = false ∧
          ∀ operation ∈ operations,
            profile.permissions.decisionFor operation ≠ .deny ∧
              (constraints.readOnly = true → operation = .readFile) := by
    intro operations
    induction operations with
    | nil => simp
    | cons operation rest induction =>
        intro start
        rw [List.foldl_cons, induction]
        simp [Classification.add, and_assoc]
  unfold classify
  rw [folded]
  simp

theorem classify_ask
    {operations : List OperationClass} :
    (classify profile constraints operations).ask = true ↔
      ∃ operation ∈ operations,
        profile.permissions.decisionFor operation = .askUser := by
  have folded : ∀ (operations : List OperationClass)
      (start : Classification),
      (operations.foldl (Classification.add profile constraints)
          start).ask = true ↔
        start.ask = true ∨
          ∃ operation ∈ operations,
            profile.permissions.decisionFor operation = .askUser := by
    intro operations
    induction operations with
    | nil => simp
    | cons operation rest induction =>
        intro start
        rw [List.foldl_cons, induction]
        simp [Classification.add, or_assoc]
  unfold classify
  rw [folded]
  simp

/-- A binding whose name is listed is exposed exactly when it is offered. -/
theorem classify_denied_iff_offered
    {binding : NativeBinding} {definition : ToolDefinition}
    (listed : definition.name ∈ profile.allowedTools) :
    (classify profile constraints binding.operations).denied = false ↔
      Offered profile constraints binding definition := by
  rw [classify_denied]
  constructor
  · rintro ⟨nonempty, each⟩
    refine ⟨listed, nonempty, ?_, ?_⟩
    · intro operation member
      exact AgentPermissions.decisionFor_of_ne_deny (each operation member).1
    · intro readOnly operation member
      exact (each operation member).2 readOnly
  · rintro ⟨_, nonempty, decided, reads⟩
    refine ⟨nonempty, ?_⟩
    intro operation member
    refine ⟨?_, fun readOnly => reads readOnly operation member⟩
    intro denied
    rcases decided operation member with allowed | asked
    · rw [denied] at allowed
      cases allowed
    · rw [denied] at asked
      cases asked

end Classification

/-! ## The exposed registry -/

section Registry

variable {profile : AgentProfile} {constraints : TaskConstraints}

/-- What the registry holds once a list of bindings has been visited. -/
structure Exposes (profile : AgentProfile) (constraints : TaskConstraints)
    (bindings : List NativeBinding)
    (registry : ToolRegistry agents PermissionOutcome) : Prop where
  tools : ∀ name tool, registry.findTool name = some tool →
    ∃ binding ∈ bindings, ∃ definition confirms,
      binding.tool = some (definition, confirms) ∧
        definition.name = name ∧
        Offered profile constraints binding definition ∧
        ∃ ask mutates,
          tool = permissionTool (nativeTool definition confirms) ask mutates ∧
            (MustConfirm profile binding confirms →
              (ask || confirms) = true)
  definitions :
    registry.definitions.Perm (offers profile constraints bindings)

variable {bindings : List NativeBinding}
  {result : ToolRegistry agents PermissionOutcome}

theorem boundNames_toBinding :
    boundNames (bindings.map NativeBinding.toBinding) = names bindings := by
  unfold boundNames names
  rw [List.filterMap_map]
  congr 1
  funext binding
  rcases binding with ⟨_ | ⟨definition, confirms⟩, operations⟩ <;> rfl

theorem valid_of_admissible
    (admissible : Admissible [] (bindings.map NativeBinding.toBinding)) :
    Valid bindings := by
  refine ⟨?_, ?_, boundNames_toBinding ▸ admissible.distinct⟩
  · intro binding member
    have present := admissible.present binding.toBinding
      (List.mem_map_of_mem member)
    rcases binding with ⟨_ | tool, operations⟩
    · exact absurd rfl present
    · rfl
  · intro name member
    exact (admissible.named name (boundNames_toBinding ▸ member)).1

/-- A native tool is shown when its binding is offered. -/
theorem shownTool_toBinding (binding : NativeBinding) :
    shownTool profile constraints binding.toBinding =
      binding.tool.bind fun tool =>
        if Offered profile constraints binding tool.1 then
          some
            (permissionTool (nativeTool tool.1 tool.2)
              (classify profile constraints binding.operations).ask
              (classify profile constraints binding.operations).mutates)
        else
          none := by
  rcases bound : binding.tool with _ | ⟨definition, confirms⟩
  · simp [shownTool, NativeBinding.toBinding, bound]
  · have named : (nativeTool definition confirms :
        ITool agents PermissionOutcome).definition = definition := rfl
    simp only [shownTool, NativeBinding.toBinding, bound, Option.map_some,
      Option.bind_some, named]
    by_cases listed : definition.name ∈ profile.allowedTools
    · simp only [← classify_denied_iff_offered listed]
      cases (classify profile constraints binding.operations).denied <;>
        simp [listed]
    · have refused : ¬ Offered profile constraints binding definition :=
        fun offered => listed offered.1
      simp [listed, refused]

/-- Where a tool that is shown comes from. -/
theorem exists_of_mem_shownTools
    {tool : ITool agents PermissionOutcome}
    (shown : tool ∈ shownTools profile constraints
      (bindings.map NativeBinding.toBinding)) :
    ∃ binding ∈ bindings, ∃ definition confirms,
      binding.tool = some (definition, confirms) ∧
        Offered profile constraints binding definition ∧
        tool =
          permissionTool (nativeTool definition confirms)
            (classify profile constraints binding.operations).ask
            (classify profile constraints binding.operations).mutates := by
  obtain ⟨_, bound, shows⟩ := List.mem_filterMap.mp shown
  obtain ⟨binding, member, rfl⟩ := List.mem_map.mp bound
  rw [shownTool_toBinding] at shows
  rcases native : binding.tool with _ | ⟨definition, confirms⟩
  · simp [native] at shows
  · simp only [native, Option.bind_some] at shows
    split_ifs at shows with offered
    cases shows
    exact ⟨binding, member, definition, confirms, native, offered, rfl⟩

/-- The tools that are shown, and the definitions that are offered. -/
theorem definitions_shownTools :
    (shownTools profile constraints
        (bindings.map NativeBinding.toBinding)).map ITool.definition =
      offers profile constraints bindings := by
  unfold shownTools offers
  rw [List.filterMap_map, List.map_filterMap]
  congr 1
  funext binding
  rw [Function.comp_apply, shownTool_toBinding, offer]
  rcases binding.tool with _ | tool
  · rfl
  · simp only [Option.bind_some]
    split <;> rfl

/-- The runtime checks its bindings and exposes exactly the offered. -/
theorem exposeTools_spec
    (finished : exposeTools profile constraints
      (bindings.map NativeBinding.toBinding) [] {} = some result) :
    Valid bindings ∧ Exposes profile constraints bindings result := by
  obtain ⟨admissible, rfl⟩ := exposeTools_eq_some.mp finished
  refine ⟨valid_of_admissible admissible, ?_, ?_⟩
  · intro name tool found
    obtain ⟨shown, named⟩ := ToolRegistry.findTool_registerAll found
    obtain ⟨binding, member, definition, confirms, bound, offered, rfl⟩ :=
      exists_of_mem_shownTools shown
    refine ⟨binding, member, definition, confirms, bound, named, offered,
      _, _, rfl, ?_⟩
    rintro (confirmed | asked)
    · rw [confirmed, Bool.or_true]
    · rw [classify_ask.mpr asked, Bool.true_or]
  · rw [← definitions_shownTools]
    apply ToolRegistry.definitions_registerAll
    · intro tool member
      refine (admissible.named tool.definition.name ?_).1
      exact (shown_sublist _).subset (List.mem_map_of_mem member)
    · exact (shown_sublist _).nodup admissible.distinct

end Registry

end ArnCore.Agent.ExposedTools
