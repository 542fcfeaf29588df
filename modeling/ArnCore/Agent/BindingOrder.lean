import Mathlib.Data.List.Perm.Basic
import ArnCore.Agent.ExposedTools
import ArnCore.Tool.ToolCatalog

/-!
# The order of bindings

A runtime goes through its bindings in order and remembers the names it has
seen.  What it exposes depends on the set of bindings only: on which tools are
bound, to which operations, and on which names the profile allows.
-/

namespace ArnCore.Agent.BindingOrder

open ArnCore.Collections
open ArnCore.Interaction
open ArnCore.Provider
open ArnCore.Tool
open ArnCore.Agent.BoundTools

variable {signature : Signature}

/-! ## Classifications -/

section Classifying

variable {profile : AgentProfile} {constraints : TaskConstraints}

theorem classify_mutates
    {operations : List OperationClass} :
    (classify profile constraints operations).mutates = true ↔
      ∃ operation ∈ operations, operation ≠ .readFile := by
  have folded : ∀ (operations : List OperationClass)
      (start : Classification),
      (operations.foldl (Classification.add profile constraints)
          start).mutates = true ↔
        start.mutates = true ∨
          ∃ operation ∈ operations, operation ≠ .readFile := by
    intro operations
    induction operations with
    | nil => simp
    | cons operation rest induction =>
        intro start
        rw [List.foldl_cons, induction]
        simp [Classification.add, or_assoc]
  unfold classify
  rw [folded]
  simp

/-- The operations of a binding are classified as a set. -/
theorem classify_eq_of_mem
    {operations others : List OperationClass}
    (same : ∀ operation, operation ∈ operations ↔ operation ∈ others) :
    classify profile constraints operations =
      classify profile constraints others := by
  have nonempty : operations ≠ [] ↔ others ≠ [] := by
    constructor
    · intro filled
      obtain ⟨operation, member⟩ := List.exists_mem_of_ne_nil _ filled
      exact List.ne_nil_of_mem ((same operation).mp member)
    · intro filled
      obtain ⟨operation, member⟩ := List.exists_mem_of_ne_nil _ filled
      exact List.ne_nil_of_mem ((same operation).mpr member)
  have denied : (classify profile constraints operations).denied =
      (classify profile constraints others).denied := by
    rw [Bool.eq_iff_iff, ← not_iff_not, Bool.not_eq_true, Bool.not_eq_true,
      ExposedTools.classify_denied, ExposedTools.classify_denied, nonempty]
    simp only [same]
  have ask : (classify profile constraints operations).ask =
      (classify profile constraints others).ask := by
    rw [Bool.eq_iff_iff, ExposedTools.classify_ask, ExposedTools.classify_ask]
    simp only [same]
  have mutates : (classify profile constraints operations).mutates =
      (classify profile constraints others).mutates := by
    rw [Bool.eq_iff_iff, classify_mutates, classify_mutates]
    simp only [same]
  generalize classify profile constraints operations = left at *
  generalize classify profile constraints others = right at *
  obtain ⟨_, _, _⟩ := left
  obtain ⟨_, _, _⟩ := right
  cases denied
  cases ask
  cases mutates
  rfl

end Classifying

/-! ## Sets of bindings -/

/-- Two bindings of one tool to the same set of operations. -/
def SameBinding (binding other : AgentToolBinding signature) : Prop :=
  binding.tool = other.tool ∧
    ∀ operation, operation ∈ binding.operations ↔
      operation ∈ other.operations

/-- The same bindings in some order. -/
def SameBindings (bindings others : List (AgentToolBinding signature)) : Prop :=
  ∃ reordered, bindings.Perm reordered ∧
    List.Forall₂ SameBinding reordered others

section Comparing

variable {profile : AgentProfile} {constraints : TaskConstraints}
  {bindings others : List (AgentToolBinding signature)}

theorem admissible_perm
    (admissible : Admissible [] bindings) (order : bindings.Perm others) :
    Admissible [] others where
  present := fun binding member =>
    admissible.present binding (order.mem_iff.mpr member)
  named := fun name member =>
    admissible.named name ((order.filterMap _).mem_iff.mpr member)
  distinct := (order.filterMap _).nodup_iff.mp admissible.distinct

theorem boundTools_eq (same : List.Forall₂ SameBinding bindings others) :
    bindings.map AgentToolBinding.tool = others.map AgentToolBinding.tool := by
  induction same with
  | nil => rfl
  | cons first _ induction =>
      rw [List.map_cons, List.map_cons, first.1, induction]

theorem boundNames_eq (same : List.Forall₂ SameBinding bindings others) :
    boundNames bindings = boundNames others := by
  have named : ∀ bindings : List (AgentToolBinding signature),
      boundNames bindings =
        (bindings.map AgentToolBinding.tool).filterMap
          (Option.map fun tool => tool.definition.name) := by
    intro bindings
    rw [List.filterMap_map]
    rfl
  rw [named, named, boundTools_eq same]

theorem admissible_same
    (admissible : Admissible [] bindings)
    (same : List.Forall₂ SameBinding bindings others) :
    Admissible [] others where
  present := by
    intro other member missing
    have tool : other.tool ∈ bindings.map AgentToolBinding.tool := by
      rw [boundTools_eq same]
      exact List.mem_map_of_mem member
    obtain ⟨binding, inBindings, matched⟩ := List.mem_map.mp tool
    exact admissible.present binding inBindings (matched.trans missing)
  named := boundNames_eq same ▸ admissible.named
  distinct := boundNames_eq same ▸ admissible.distinct

/-- A binding shows the same tool to a profile with the same tools. -/
theorem shownTool_eq
    {binding other : AgentToolBinding signature} {listed : List String}
    (same : SameBinding binding other)
    (names : ∀ name, name ∈ listed ↔ name ∈ profile.allowedTools) :
    shownTool profile constraints binding =
      shownTool { profile with allowedTools := listed } constraints other := by
  have classified :
      classify { profile with allowedTools := listed } constraints
          other.operations =
        classify profile constraints binding.operations :=
    classify_eq_of_mem fun operation => (same.2 operation).symm
  simp only [shownTool, same.1, classified, names]

theorem shownTools_eq
    {listed : List String}
    (same : List.Forall₂ SameBinding bindings others)
    (names : ∀ name, name ∈ listed ↔ name ∈ profile.allowedTools) :
    shownTools profile constraints bindings =
      shownTools { profile with allowedTools := listed } constraints others := by
  induction same with
  | nil => rfl
  | cons first _ induction =>
      unfold shownTools at induction ⊢
      rw [List.filterMap_cons, List.filterMap_cons, shownTool_eq first names,
        induction]

/-- One direction of `exposeTools_eq_of_same`. -/
theorem exposeTools_of_same
    {listed : List String}
    {registry : ToolRegistry signature PermissionOutcome}
    (same : SameBindings bindings others)
    (names : ∀ name, name ∈ listed ↔ name ∈ profile.allowedTools)
    (exposed : exposeTools profile constraints bindings [] {} =
      some registry) :
    exposeTools { profile with allowedTools := listed } constraints others []
      {} = some registry := by
  obtain ⟨reordered, order, matched⟩ := same
  obtain ⟨admissible, built⟩ := exposeTools_eq_some.mp exposed
  apply exposeTools_eq_some.mpr
  refine ⟨admissible_same (admissible_perm admissible order) matched, ?_⟩
  have distinct : ((shownTools profile constraints bindings).map
      ToolRegistry.nameOf).Nodup :=
    (shown_sublist bindings).nodup admissible.distinct
  rw [← shownTools_eq matched names, ← built]
  exact (ToolRegistry.registerAll_perm (order.filterMap _) distinct).symm

theorem SameBindings.symm (same : SameBindings bindings others) :
    SameBindings others bindings := by
  obtain ⟨reordered, order, matched⟩ := same
  have back : List.Forall₂ SameBinding others reordered :=
    matched.flip.imp fun other binding same =>
      ⟨same.1.symm, fun operation => (same.2 operation).symm⟩
  have composed : Relation.Comp (List.Forall₂ SameBinding) List.Perm others
      bindings :=
    ⟨reordered, back, order.symm⟩
  rwa [List.forall₂_comp_perm_eq_perm_comp_forall₂] at composed

/-- The same bindings expose the same registry, or are rejected together. -/
theorem exposeTools_eq_of_same
    {listed : List String} (same : SameBindings bindings others)
    (names : ∀ name, name ∈ listed ↔ name ∈ profile.allowedTools) :
    exposeTools { profile with allowedTools := listed } constraints others []
        {} =
      exposeTools profile constraints bindings [] {} := by
  cases exposed : exposeTools profile constraints bindings [] {} with
  | some registry => exact exposeTools_of_same same names exposed
  | none =>
      cases other : exposeTools { profile with allowedTools := listed }
          constraints others [] {} with
      | none => rfl
      | some registry =>
          have back : exposeTools profile constraints bindings [] {} =
              some registry :=
            @exposeTools_of_same signature
              { profile with allowedTools := listed } constraints others
              bindings profile.allowedTools registry same.symm
              (fun name => (names name).symm) other
          rw [exposed] at back
          cases back

end Comparing

/-! ## Executions -/

/--
An execution depends on its bindings as a set: neither their order, nor the
order and repetition of their operations, nor the order and repetition of the
allowed names changes what the runtime does.  The two programs are equal, with
any provider, tools, callbacks and contexts, also where the bindings are
rejected.
-/
theorem bindings_are_a_set
    {Locals : Type} {runtime : AgentRuntime signature}
    {bindings : List (AgentToolBinding signature)} {listed : List String}
    {json : JsonText} {context : AgentContext}
    {callbacks : StreamCallbacks signature} {confirm : HostConfirm signature}
    (same : SameBindings runtime.tools bindings)
    (names : ∀ name, name ∈ listed ↔ name ∈ context.profile.allowedTools) :
    (({ runtime with tools := bindings } : AgentRuntime signature).execute json
        { context with
          profile := { context.profile with allowedTools := listed } }
        callbacks confirm : Action signature Locals AgentResult) =
      runtime.execute json context callbacks confirm := by
  have exposed :
      exposeTools { context.profile with allowedTools := listed }
          context.task.constraints bindings [] {} =
        exposeTools context.profile context.task.constraints runtime.tools []
          {} :=
    exposeTools_eq_of_same same names
  have contexts :
      (({ runtime with tools := bindings } :
          AgentRuntime signature).executeContext json
        { context with
          profile := { context.profile with allowedTools := listed } }
        callbacks confirm : Action signature Locals AgentResult) =
      runtime.executeContext json context callbacks confirm := by
    unfold AgentRuntime.executeContext
    rw [exposed]
    rfl
  unfold AgentRuntime.execute
  rw [contexts]

/-- A tool that reads, bound to an operation that is named twice. -/
def readBinding : ExposedTools.NativeBinding where
  tool :=
    some
      ({ name := "read_file", description := "", parameterSchema := .null },
        false)
  operations := [.readFile, .readFile]

/-- The same tool, bound to the operation once. -/
def readBindingOnce : ExposedTools.NativeBinding :=
  { readBinding with operations := [.readFile] }

def writeBinding : ExposedTools.NativeBinding where
  tool :=
    some
      ({ name := "write_file", description := "", parameterSchema := .null },
        true)
  operations := [.readFile, .writeFile]

/-- A context whose profile allows both tools. -/
def bothContext : AgentContext where
  profile :=
    { id := "coder"
      allowedTools := ["read_file", "write_file"]
      permissions := (AgentPermissions.empty.setDecision .readFile .allow).2 }
  task := { id := "t", objective := "Read it", workingDirectory := "/w" }

theorem bindings_are_a_set_swapped :
    (((ExposedTools.anyRuntime true "key" "model"
          [writeBinding, readBindingOnce]).execute
        (.knowing [])
        { bothContext with
          profile :=
            { bothContext.profile with
              allowedTools := ["write_file", "read_file", "write_file"] } }
        (Environment.hostCallbacks true true)
        (Environment.hostHandler true)) :
      Action Environment.agents Unit AgentResult) =
    (ExposedTools.anyRuntime true "key" "model"
        [readBinding, writeBinding]).execute
      (.knowing []) bothContext
      (Environment.hostCallbacks true true)
      (Environment.hostHandler true) := by
  refine @bindings_are_a_set _ _
    (ExposedTools.anyRuntime true "key" "model" [readBinding, writeBinding])
    _ _ _ _ _ _ ?_ ?_
  · refine ⟨_, List.Perm.swap _ _ [], ?_⟩
    refine .cons ⟨rfl, fun operation => Iff.rfl⟩ (.cons ⟨rfl, ?_⟩ .nil)
    simp [readBinding, readBindingOnce, ExposedTools.NativeBinding.toBinding]
  · simp [bothContext]

end ArnCore.Agent.BindingOrder
