import Mathlib.Data.String.Basic
import ArnCore.Collections.KeyedStore
import ArnCore.Tool.Tool

/-!
# The registry as a catalog

A catalog says which tool a name stands for, and nothing else.  Every sequence
of registrations and removals does to the registry what it does to the catalog,
and the registry of a catalog is unique: the order of registration is not
visible in anything the registry computes.
-/

namespace ArnCore.Tool.ToolRegistry

open ArnCore.Collections
open ArnCore.Interaction

variable {signature : Signature} {Locals : Type}
  (registry : ToolRegistry signature Locals)

/-- `unregister_tool`: whether the tool was removed, and the registry. -/
def unregisterTool (name : String) : Bool × ToolRegistry signature Locals :=
  if registry.hasTool name then
    (true, { tools := OrderedMap.erase name registry.tools })
  else
    (false, registry)

/-- `size` -/
def size : Nat :=
  registry.tools.length

/-- `clear` -/
def clear : ToolRegistry signature Locals := {}

/-! ## Commands -/

/-- What a host does to a registry. -/
inductive Command (signature : Signature) (Locals : Type) where
  | register (tool : Option (ITool signature Locals))
  | unregister (name : String)
  | clear

/-- A command to the registry; `clear` has no reply of its own. -/
def perform : Command signature Locals → Bool × ToolRegistry signature Locals
  | .register tool => registry.registerTool tool
  | .unregister name => registry.unregisterTool name
  | .clear => (true, clear)

/-! ## The catalog -/

/-- The tool a name stands for. -/
abbrev Catalog (signature : Signature) (Locals : Type) :=
  String → Option (ITool signature Locals)

/-- The name of a tool. -/
def nameOf (tool : ITool signature Locals) : String :=
  tool.definition.name

/-- The name no tool is registered under. -/
def unnamed (name : String) : Bool :=
  name = ""

/-- What a command does to the catalog. -/
def specify (catalog : Catalog signature Locals) :
    Command signature Locals → Bool × Catalog signature Locals
  | .register none => (false, catalog)
  | .register (some tool) =>
      (KeyedStore.Update.emplace tool).onMap nameOf unnamed catalog
  | .unregister name =>
      (KeyedStore.Update.erase name).onMap nameOf unnamed catalog
  | .clear => KeyedStore.Update.clear.onMap nameOf unnamed catalog

/-- The registry holds the tools of the catalog, in name order. -/
def Holds (registry : ToolRegistry signature Locals)
    (catalog : Catalog signature Locals) : Prop :=
  KeyedStore.Represents nameOf unnamed registry.tools catalog

variable {registry}

theorem registerTool_eq (tool : ITool signature Locals) :
    registry.registerTool (some tool) =
      (((KeyedStore.Update.emplace tool).onEntries nameOf unnamed
          registry.tools).1,
        ⟨((KeyedStore.Update.emplace tool).onEntries nameOf unnamed
          registry.tools).2⟩) := by
  have sameTest :
      (tool.definition.name = "" ∨
          registry.hasTool tool.definition.name = true) ↔
        (unnamed (nameOf tool) ||
          (OrderedMap.find? (nameOf tool) registry.tools).isSome) = true := by
    rw [Bool.or_eq_true, unnamed, decide_eq_true_eq]
    rfl
  simp only [registerTool, KeyedStore.Update.onEntries, sameTest]
  split <;> rfl

theorem unregisterTool_eq (name : String) :
    registry.unregisterTool name =
      (((KeyedStore.Update.erase name).onEntries nameOf unnamed
          registry.tools).1,
        ⟨((KeyedStore.Update.erase name).onEntries nameOf unnamed
          registry.tools).2⟩) := by
  have sameTest : (OrderedMap.find? name registry.tools).isSome =
      registry.hasTool name := rfl
  simp only [unregisterTool, KeyedStore.Update.onEntries, sameTest]
  split <;> rfl

/-- Every command does to the registry what it does to the catalog. -/
theorem Holds.perform
    {catalog : Catalog signature Locals} (holds : Holds registry catalog)
    (command : Command signature Locals) :
    (registry.perform command).1 = (specify catalog command).1 ∧
      Holds (registry.perform command).2 (specify catalog command).2 := by
  cases command with
  | register tool =>
      cases tool with
      | none => exact ⟨rfl, holds⟩
      | some tool =>
          rw [ToolRegistry.perform, registerTool_eq]
          exact holds.update (.emplace tool)
  | unregister name =>
      rw [ToolRegistry.perform, unregisterTool_eq]
      exact holds.update (.erase name)
  | clear => exact holds.update .clear

theorem holds_nil :
    Holds ({} : ToolRegistry signature Locals) fun _ => none :=
  KeyedStore.represents_nil

/-- The registry of a catalog is unique. -/
theorem Holds.unique
    {other : ToolRegistry signature Locals}
    {catalog : Catalog signature Locals}
    (holds : Holds registry catalog) (also : Holds other catalog) :
    registry = other := by
  obtain ⟨tools⟩ := registry
  obtain ⟨others⟩ := other
  exact congrArg ToolRegistry.mk (KeyedStore.Represents.unique holds also)

/-- The definitions are those of the catalog. -/
theorem Holds.mem_definitions
    {catalog : Catalog signature Locals} (holds : Holds registry catalog)
    {definition : ToolDefinition} :
    definition ∈ registry.definitions ↔
      ∃ tool, catalog definition.name = some tool ∧
        tool.definition = definition := by
  have listed : registry.definitions =
      (registry.tools.map Prod.snd).map ITool.definition := by
    rw [definitions, List.map_map]
    rfl
  rw [listed, List.mem_map]
  constructor
  · rintro ⟨tool, member, rfl⟩
    exact ⟨tool, KeyedStore.Represents.mem_values holds |>.mp member, rfl⟩
  · rintro ⟨tool, found, rfl⟩
    exact ⟨tool, KeyedStore.Represents.mem_values holds |>.mpr found, rfl⟩

theorem Holds.definitions_sorted
    {catalog : Catalog signature Locals} (holds : Holds registry catalog) :
    (registry.definitions.map ToolDefinition.name).Pairwise (· < ·) := by
  have sorted := KeyedStore.Represents.values_sorted holds
  rw [List.pairwise_map] at sorted
  rw [definitions, List.map_map]
  exact List.pairwise_map.mpr sorted

/-- Tools registered one after the other are stored as values of a store. -/
theorem registerAll_eq (tools : List (ITool signature Locals)) :
    registerAll tools = ⟨KeyedStore.emplaceAll nameOf unnamed tools⟩ := by
  induction tools using List.reverseRecOn with
  | nil => rfl
  | append_singleton tools last induction =>
      rw [registerAll_concat, registerTool_eq, induction, KeyedStore.emplaceAll,
        KeyedStore.emplaceAll, List.foldl_append]
      rfl

/-- Tools with different names are registered in any order. -/
theorem registerAll_perm
    {tools permuted : List (ITool signature Locals)}
    (order : tools.Perm permuted) (distinct : (tools.map nameOf).Nodup) :
    registerAll tools = registerAll permuted := by
  rw [registerAll_eq, registerAll_eq, KeyedStore.emplaceAll_perm order distinct]

/-! ## Whole sequences of commands -/

/-- Commands to a new registry, one after the other. -/
def performed (commands : List (Command signature Locals)) :
    List Bool × ToolRegistry signature Locals :=
  KeyedStore.run perform {} commands

/-- The same commands to a new catalog. -/
def specified (commands : List (Command signature Locals)) :
    List Bool × Catalog signature Locals :=
  KeyedStore.run specify (fun _ => none) commands

theorem performed_holds (commands : List (Command signature Locals)) :
    (performed commands).1 = (specified commands).1 ∧
      Holds (performed commands).2 (specified commands).2 :=
  KeyedStore.run_simulates holds_nil
    (fun _ _ command holds => holds.perform command) commands

/--
After every sequence of registrations, removals and clearings of a new registry
the replies are those of the catalog; lookup and size answer for the catalog,
and the definitions are exactly those of its tools, in strictly increasing
order of their names.  All sequences with the same catalog lead to
the same registry.
-/
theorem registry_refines_catalog
    (commands : List (Command signature Locals)) :
    (performed commands).1 = (specified commands).1 ∧
      (∀ name,
        (performed commands).2.findTool name = (specified commands).2 name) ∧
      ((performed commands).2.definitions.map ToolDefinition.name).Pairwise
        (· < ·) ∧
      (∀ definition, definition ∈ (performed commands).2.definitions ↔
        ∃ tool, (specified commands).2 definition.name = some tool ∧
          tool.definition = definition) ∧
      (performed commands).2.size =
        {name | (specified commands).2 name ≠ none}.ncard ∧
      (specified commands).2 "" = none ∧
      ∀ others, (specified others).2 = (specified commands).2 →
        (performed others).2 = (performed commands).2 := by
  obtain ⟨replies, holds⟩ := performed_holds commands
  refine ⟨replies, holds.found, holds.definitions_sorted,
    fun _ => holds.mem_definitions, KeyedStore.Represents.length_eq holds,
    ?_, ?_⟩
  · cases found : (specified commands).2 "" with
    | none => rfl
    | some tool => cases (holds.keyed "" tool found).2
  · intro others same
    have also := (performed_holds others).2
    rw [same] at also
    exact also.unique holds

end ArnCore.Tool.ToolRegistry
