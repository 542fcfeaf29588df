import Mathlib.Data.List.Induction
import ArnCore.Json

/-!
# Tools and the registry

A tool describes itself, says whether it wants a confirmation and runs as an
action.  The context of a call carries the cancellation flag, which a tool can
only read, and the confirmation handler.
-/

namespace ArnCore.Tool

open ArnCore.Collections
open ArnCore.Interaction

/-- A confirmation request shown to the host. -/
structure ConfirmationRequest where
  name : String
  arguments : Json
  summary : String
  changesState : Bool
  changesFiles : Bool
  preview : Json

/-- The constructor: a change of state counts as a change of files. -/
def ConfirmationRequest.make (name : String) (arguments : Json)
    (summary : String := "") (changesState changesFiles : Bool := false)
    (preview : Json := .null) : ConfirmationRequest where
  name := name
  arguments := arguments
  summary := summary
  changesState := changesState
  changesFiles := changesFiles || changesState
  preview := preview

structure ToolDefinition where
  name : String
  description : String
  parameterSchema : Json

structure ToolResult where
  ok : Bool := false
  result : Json := .null
  errorMessage : String := ""

namespace ToolResult

def success (output : Json) : ToolResult where
  ok := true
  result := output

def failure (message : String) : ToolResult where
  result := .ofMembers [("error", .string message)]
  errorMessage := message

end ToolResult

/-- `const std::atomic_bool*`: absent, or an action that loads the flag. -/
abbrev CancelFlag (signature : Signature) :=
  Option (Host signature Bool)

variable {signature : Signature} {Locals : Type}

/-- `flag && flag->load()` -/
def isSet (flag : CancelFlag signature) : Action signature Locals Bool :=
  match flag with
  | none => pure false
  | some load => Action.ofHost load

/-- A confirmation handler; absent when the `std::function` is empty. -/
abbrev ConfirmationFn (signature : Signature) (Locals : Type) :=
  Option (ConfirmationRequest → Action signature Locals Bool)

structure ToolContext (signature : Signature) (Locals : Type) where
  cancelRequested : CancelFlag signature
  confirm : ConfirmationFn signature Locals

/-- The interface `ITool`. -/
structure ITool (signature : Signature) (Locals : Type) where
  definition : ToolDefinition
  requiresConfirmation : Bool
  execute :
    Json → ToolContext signature Locals → Action signature Locals ToolResult

/-! ## The registry -/

/-- Registered tools under their names, in name order. -/
structure ToolRegistry (signature : Signature) (Locals : Type) where
  tools : List (String × ITool signature Locals) := []

namespace ToolRegistry

variable (registry : ToolRegistry signature Locals)

/-- `find_tool` -/
def findTool (name : String) : Option (ITool signature Locals) :=
  OrderedMap.find? name registry.tools

/-- `has_tool` -/
def hasTool (name : String) : Bool :=
  (registry.findTool name).isSome

/-- `register_tool`: whether the tool was added, and the registry. -/
def registerTool (tool : Option (ITool signature Locals)) :
    Bool × ToolRegistry signature Locals :=
  match tool with
  | none => (false, registry)
  | some tool =>
      if tool.definition.name = "" ∨ registry.hasTool tool.definition.name then
        (false, registry)
      else
        (true,
          { tools :=
              OrderedMap.insert tool.definition.name tool registry.tools })

/-- Tools registered one after the other. -/
def registerAll (tools : List (ITool signature Locals)) :
    ToolRegistry signature Locals :=
  tools.foldl (fun registry tool => (registry.registerTool (some tool)).2) {}

/-- `definitions` -/
def definitions : List ToolDefinition :=
  registry.tools.map fun entry => entry.2.definition

/-- `definitions_json` -/
def definitionsJson : List Json :=
  registry.definitions.map fun definition =>
    .ofMembers
      [("name", .string definition.name),
        ("description", .string definition.description),
        ("parameters", definition.parameterSchema)]

/-- `empty` -/
def empty : Bool :=
  registry.tools.isEmpty

/-- `execute`: dispatch by name, or the unknown-tool failure. -/
def execute (name : String) (arguments : Json)
    (context : ToolContext signature Locals) :
    Action signature Locals ToolResult :=
  match registry.findTool name with
  | none => pure (.failure ("Unknown tool requested: " ++ name))
  | some tool => tool.execute arguments context

/-- Registering a tool under a fresh nonempty name adds its definition. -/
theorem definitions_registerTool
    {tool : ITool signature Locals}
    (named : tool.definition.name ≠ "")
    (fresh : registry.findTool tool.definition.name = none) :
    (registry.registerTool (some tool)).2.definitions.Perm
      (tool.definition :: registry.definitions) := by
  have notPresent : registry.hasTool tool.definition.name = false := by
    rw [hasTool, fresh]
    rfl
  simp only [registerTool, named, notPresent, definitions]
  exact (OrderedMap.insert_perm_of_find?_eq_none fresh).map _

theorem registerAll_concat
    (tools : List (ITool signature Locals)) (last : ITool signature Locals) :
    registerAll (tools ++ [last]) =
      ((registerAll tools).registerTool (some last)).2 := by
  unfold registerAll
  rw [List.foldl_append]
  rfl

/-- What is found under a name was registered, and has that name. -/
theorem findTool_registerAll
    {tools : List (ITool signature Locals)} {name : String}
    {tool : ITool signature Locals}
    (found : (registerAll tools).findTool name = some tool) :
    tool ∈ tools ∧ tool.definition.name = name := by
  induction tools using List.reverseRecOn with
  | nil => cases found
  | append_singleton tools last induction =>
      have earlier : (registerAll tools).findTool name = some tool →
          tool ∈ tools ++ [last] ∧ tool.definition.name = name := by
        intro found
        obtain ⟨member, named⟩ := induction found
        exact ⟨List.mem_append_left _ member, named⟩
      rw [registerAll_concat] at found
      unfold registerTool at found
      simp only at found
      split_ifs at found with rejected
      · exact earlier found
      · unfold findTool at found
        rw [OrderedMap.find?_insert] at found
        split_ifs at found with same
        · cases found
          exact ⟨List.mem_append_right _ List.mem_cons_self, same⟩
        · exact earlier found

/-- Tools with different, nonempty names are all defined. -/
theorem definitions_registerAll
    {tools : List (ITool signature Locals)}
    (named : ∀ tool ∈ tools, tool.definition.name ≠ "")
    (distinct : (tools.map fun tool => tool.definition.name).Nodup) :
    (registerAll tools).definitions.Perm (tools.map ITool.definition) := by
  induction tools using List.reverseRecOn with
  | nil => exact .refl _
  | append_singleton tools last induction =>
      rw [List.map_append] at distinct
      obtain ⟨earlier, _, apart⟩ := List.nodup_append.mp distinct
      have fresh : (registerAll tools).findTool last.definition.name =
          none := by
        cases found : (registerAll tools).findTool last.definition.name with
        | none => rfl
        | some tool =>
            obtain ⟨member, same⟩ := findTool_registerAll found
            exact absurd same
              (apart _ (List.mem_map_of_mem member) _ List.mem_cons_self)
      rw [registerAll_concat, List.map_append]
      apply (definitions_registerTool _ (named last (by simp)) fresh).trans
      apply ((induction (fun tool member =>
        named tool (List.mem_append_left _ member)) earlier).cons _).trans
      exact (List.perm_append_singleton _ _).symm

end ToolRegistry

end ArnCore.Tool
