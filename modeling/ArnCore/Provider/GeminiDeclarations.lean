import ArnCore.Agent.Environment
import ArnCore.Provider.GeminiSchema

/-!
# Subschemas of the declarations

JSON Schema has more keywords with subschemas below them than the adaptation for
Gemini visits.  A declaration is free of `additionalProperties` exactly when
every subschema of its parameters with that member is reached by visited
keywords alone.
-/

namespace ArnCore.Provider.GeminiDeclarations

open ArnCore.Agent.Environment
open ArnCore.Collections
open ArnCore.Interaction
open ArnCore.Provider.GeminiSchema
open ArnCore.Schema.SchemaNodes
open ArnCore.Tool

/-- The standard applicator keywords. -/
def applicators : Keywords where
  named := ["properties", "patternProperties", "$defs", "definitions",
    "dependentSchemas"]
  single := ["items", "not", "if", "then", "else", "contains", "propertyNames"]
  listed := ["items", "prefixItems", "anyOf", "oneOf", "allOf"]

/-- No subschema has the member `additionalProperties`. -/
def Clean (schema : Json) : Prop :=
  ∀ path node, SchemaAt applicators schema path node →
    node.contains "additionalProperties" = false

/-- Subschemas with the member stand where the adaptation comes to. -/
def Covered (schema : Json) : Prop :=
  ∀ path node, SchemaAt applicators schema path node →
    node.contains "additionalProperties" = true → IsNode visited schema path

/-! ## The value of one keyword -/

/-- The subschemas in a value are free of the member. -/
def CleanInside (key : String) (value : Json) : Prop :=
  ∀ front child, Inside applicators key value front child → Clean child

/-- The subschemas in a value with the member are visited. -/
def CoveredInside (key : String) (value : Json) : Prop :=
  ∀ front child, Inside applicators key value front child →
    ∀ path node, SchemaAt applicators child path node →
      node.contains "additionalProperties" = true →
        IsNodeInside visited key value (front ++ path)

section Values

variable {key : String} {value schema : Json} {front path : List Nat}

/-- A value without visited schemas is covered only when it is clean. -/
theorem clean_iff_covered_of_nothing_inside
    (nothing : ∀ front other, ¬ Inside visited key value front other) :
    CleanInside key value ↔ CoveredInside key value := by
  constructor
  · intro clean front child inside path node found has
    rw [clean front child inside path node found] at has
    cases has
  · intro covered front child inside path node found
    rw [← Bool.not_eq_true]
    intro has
    obtain ⟨_, other, _, -, visits, -⟩ :=
      covered front child inside path node found has
    exact nothing _ other visits

theorem inside_applicators_named_iff (named : key ∈ visited.named) :
    Inside applicators key value front schema ↔
      key ∈ applicators.named ∧
        ∃ children position name, value = .object children ∧
          front = [position] ∧ children[position]? = some (name, schema) := by
  have alone : ∀ key ∈ visited.named,
      key ∉ applicators.single ∧ key ∉ applicators.listed := by decide
  constructor
  · intro inside
    cases inside with
    | named keyword child => exact ⟨keyword, _, _, _, rfl, rfl, child⟩
    | single keyword => exact absurd keyword (alone key named).1
    | listed keyword child => exact absurd keyword (alone key named).2
  · rintro ⟨keyword, children, position, name, rfl, rfl, child⟩
    exact .named keyword child

theorem clean_iff_covered_of_named
    (named : key ∈ visited.named)
    (each : ∀ schema, sizeOf schema ≤ sizeOf value →
      (Clean (geminiFunctionSchema schema) ↔ Covered schema)) :
    CleanInside key (visitNamed value) ↔ CoveredInside key value := by
  cases value with
  | object children =>
      constructor
      · intro clean front child inside path node found has
        obtain ⟨keyword, _, position, name, ⟨⟩, rfl, isChild⟩ :=
          (inside_applicators_named_iff named).mp inside
        have after : (children.map fun inner =>
            (inner.1, geminiFunctionSchema inner.2))[position]? =
              some (name, geminiFunctionSchema child) := by
          rw [List.getElem?_map, isChild]
          rfl
        have covered := (each child (sizeOf_lt_object isChild).le).mp
          (clean [position] _ (.named keyword after))
        exact (isNodeInside_named_iff named isChild).mpr
          (covered path node found has)
      · intro covered front child inside
        obtain ⟨keyword, _, position, name, ⟨⟩, rfl, isChild⟩ :=
          (inside_applicators_named_iff named).mp inside
        rw [List.getElem?_map, Option.map_eq_some_iff] at isChild
        obtain ⟨⟨name, before⟩, isBefore, ⟨⟩⟩ := isChild
        refine (each before (sizeOf_lt_object isBefore).le).mpr ?_
        intro path node found has
        exact (isNodeInside_named_iff named isBefore).mp
          (covered [position] before (.named keyword isBefore) path node found
            has)
  | _ =>
      refine clean_iff_covered_of_nothing_inside fun front other inside => ?_
      obtain ⟨_, _, _, impossible, -⟩ := (inside_named_iff named).mp inside
      cases impossible

theorem clean_iff_covered_of_single
    (single : key ∈ visited.single)
    (each : ∀ schema, sizeOf schema ≤ sizeOf value →
      (Clean (geminiFunctionSchema schema) ↔ Covered schema)) :
    CleanInside key (visitSingle value) ↔ CoveredInside key value := by
  have alone : ∀ key ∈ visited.single,
      key ∉ applicators.named ∧ key ∈ applicators.single := by decide
  cases value with
  | object fields =>
      obtain ⟨after, isAfter⟩ :
          ∃ after, geminiFunctionSchema (.object fields) = .object after :=
        ⟨_, geminiFunctionSchema_object fields⟩
      have here := each (.object fields) le_rfl
      rw [isAfter] at here
      constructor
      · intro clean front child inside path node found has
        cases inside with
        | named keyword child => exact absurd keyword (alone key single).1
        | single keyword =>
            rw [visitSingle, isAfter] at clean
            exact (isNodeInside_single_iff single).mpr
              (here.mp (clean [] _ (.single keyword)) path node found has)
      · intro covered front child inside
        rw [visitSingle, isAfter] at inside
        cases inside with
        | named keyword child => exact absurd keyword (alone key single).1
        | single keyword =>
            refine here.mpr fun path node found has => ?_
            exact (isNodeInside_single_iff single).mp
              (covered [] _ (.single keyword) path node found has)
  | _ =>
      refine clean_iff_covered_of_nothing_inside fun front other inside => ?_
      obtain ⟨_, impossible, -⟩ := (inside_single_iff single).mp inside
      cases impossible

theorem clean_iff_covered_of_listed
    (listed : key ∈ visited.listed)
    (each : ∀ schema, sizeOf schema ≤ sizeOf value →
      (Clean (geminiFunctionSchema schema) ↔ Covered schema)) :
    CleanInside key (visitListed value) ↔ CoveredInside key value := by
  cases value with
  | array items =>
      constructor
      · intro clean front child inside path node found has
        cases inside with
        | @listed _ position _ keyword isChild =>
            have after : (items.map geminiFunctionSchema)[position]? =
                some (geminiFunctionSchema child) := by
              rw [List.getElem?_map, isChild]
              rfl
            have covered := (each child (sizeOf_lt_array isChild).le).mp
              (clean [position] _ (.listed keyword after))
            exact (isNodeInside_listed_iff listed isChild).mpr
              (covered path node found has)
      · intro covered front child inside
        cases inside with
        | @listed _ position _ keyword isChild =>
            rw [List.getElem?_map, Option.map_eq_some_iff] at isChild
            obtain ⟨before, isBefore, rfl⟩ := isChild
            refine (each before (sizeOf_lt_array isBefore).le).mpr ?_
            intro path node found has
            exact (isNodeInside_listed_iff listed isBefore).mp
              (covered [position] before (.listed keyword isBefore) path node
                found has)
  | _ =>
      refine clean_iff_covered_of_nothing_inside fun front other inside => ?_
      obtain ⟨_, _, impossible, -⟩ := (inside_listed_iff listed).mp inside
      cases impossible

/-- A value is clean after the visit exactly when it was covered. -/
theorem clean_visitedValue_iff
    (each : ∀ schema, sizeOf schema ≤ sizeOf value →
      (Clean (geminiFunctionSchema schema) ↔ Covered schema)) :
    CleanInside key (visitedValue key value) ↔ CoveredInside key value := by
  rw [visitedValue]
  split_ifs with named single listed
  · exact clean_iff_covered_of_named named each
  · exact clean_iff_covered_of_single single each
  · exact clean_iff_covered_of_listed listed each
  · exact clean_iff_covered_of_nothing_inside fun front other =>
      not_inside_of_not_mem named single listed

end Values

/-! ## Whole schemas -/

section Schemas

variable {members : List (String × Json)} {schema : Json}

/-- An object is clean when it lacks the member and its values are clean. -/
theorem clean_object_iff :
    Clean (.object members) ↔
      (Json.object members).contains "additionalProperties" = false ∧
        ∀ member ∈ members, CleanInside member.1 member.2 := by
  constructor
  · intro clean
    refine ⟨clean [] _ .root, ?_⟩
    intro member inside front child isChild path node found
    obtain ⟨position, below, isMember⟩ := List.getElem_of_mem inside
    have there : members[position]? = some (member.1, member.2) :=
      List.getElem?_eq_some_iff.mpr ⟨below, isMember⟩
    exact clean _ _ (.under there isChild found)
  · rintro ⟨root, values⟩ path node found
    cases found with
    | root => exact root
    | under member inside rest =>
        exact values _ (List.mem_of_getElem? member) _ _ inside _ _ rest

/-- An object is covered when its values are. -/
theorem covered_object_iff :
    Covered (.object members) ↔
      ∀ member ∈ members, CoveredInside member.1 member.2 := by
  constructor
  · intro covered member inside front child isChild path node found has
    obtain ⟨position, below, isMember⟩ := List.getElem_of_mem inside
    have there : members[position]? = some (member.1, member.2) :=
      List.getElem?_eq_some_iff.mpr ⟨below, isMember⟩
    exact (isNode_member_iff there).mp
      (covered _ _ (.under there isChild found) has)
  · intro values path node found has
    cases found with
    | root => exact isNode_root
    | under member inside rest =>
        exact (isNode_member_iff member).mpr
          (values _ (List.mem_of_getElem? member) _ _ inside _ _ rest has)

/-- Under the removed member there is no subschema. -/
theorem not_inside_additionalProperties
    {value : Json} {front : List Nat} :
    ¬ Inside applicators "additionalProperties" value front schema :=
  not_inside_of_not_mem (by decide) (by decide) (by decide)

/-- The wire form of a schema is clean exactly when the schema is covered. -/
theorem clean_geminiFunctionSchema_iff (schema : Json) :
    Clean (geminiFunctionSchema schema) ↔ Covered schema := by
  induction schema using sizeInduction with
  | step schema induction =>
      by_cases isObject : ∃ members, schema = .object members
      · obtain ⟨members, rfl⟩ := isObject
        have each : ∀ member ∈ members,
            (CleanInside member.1 (visitedValue member.1 member.2) ↔
              CoveredInside member.1 member.2) := by
          intro member inside
          have smaller := sizeOf_member_lt inside
          exact clean_visitedValue_iff fun other small =>
            induction other (small.trans_lt smaller)
        rw [geminiFunctionSchema_object, clean_object_iff, covered_object_iff]
        constructor
        · rintro ⟨-, values⟩ member inside
          by_cases removed : member.1 = "additionalProperties"
          · intro front child isChild
            rw [removed] at isChild
            exact absurd isChild not_inside_additionalProperties
          · refine (each member inside).mp ?_
            refine values (member.1, visitedValue member.1 member.2) ?_
            exact List.mem_filter.mpr
              ⟨List.mem_map_of_mem inside, decide_eq_true removed⟩
        · intro values
          constructor
          · refine Option.isSome_eq_false_iff.mpr (Option.isNone_iff_eq_none.mpr ?_)
            refine OrderedMap.find?_eq_none_iff.mpr fun after isAfter => ?_
            exact of_decide_eq_true (List.mem_filter.mp isAfter).2
          · intro after isAfter
            obtain ⟨isMapped, -⟩ := List.mem_filter.mp isAfter
            obtain ⟨member, inside, rfl⟩ := List.mem_map.mp isMapped
            exact (each member inside).mpr (values member inside)
      · have other : ∀ members, schema ≠ .object members :=
          fun members same => isObject ⟨members, same⟩
        rw [geminiFunctionSchema_of_not_object other]
        refine iff_of_true ?_ ?_
        · intro path node found
          cases found with
          | root =>
              cases schema with
              | object members => exact absurd rfl (other members)
              | _ => rfl
          | under => exact absurd rfl (other _)
        · intro path node found has
          cases found with
          | root => exact isNode_root
          | under => exact absurd rfl (other _)

end Schemas

/-! ## The declarations -/

/-- One of the declarations `serialize_gemini_tools` produced. -/
def Declared (wire declaration : Json) : Prop :=
  ∃ entry ∈ wire.elements, ∃ declarations,
    entry.find? "functionDeclarations" = some declarations ∧
      declaration ∈ declarations.elements

/-- No subschema of the parameters of a declaration has the member. -/
def NothingSurvives (wire : Json) : Prop :=
  ∀ declaration, Declared wire declaration →
    ∀ parameters, declaration.find? "parameters" = some parameters →
      Clean parameters

section Declarations

variable {signature : Signature} {Locals : Type}
  {tools : ToolRegistry signature Locals}

theorem parameters_geminiDeclaration (definition : ToolDefinition) :
    (geminiDeclaration definition).find? "parameters" =
      some (geminiFunctionSchema definition.parameterSchema) := by
  simp [geminiDeclaration, Json.ofMembers, Json.find?]

theorem declared_iff {declaration : Json} :
    Declared (serializeGeminiTools tools) declaration ↔
      ∃ definition ∈ tools.definitions,
        geminiDeclaration definition = declaration := by
  rw [serializeGeminiTools]
  split_ifs with none
  · have empty : tools.definitions = [] := by
      rw [ToolRegistry.definitions, List.isEmpty_iff.mp none]
      rfl
    rw [empty]
    constructor
    · rintro ⟨entry, impossible, -⟩
      cases impossible
    · rintro ⟨definition, impossible, -⟩
      cases impossible
  · constructor
    · rintro ⟨entry, isEntry, declarations, found, member⟩
      cases List.mem_singleton.mp isEntry
      cases found
      exact List.mem_map.mp member
    · intro declared
      exact ⟨_, List.mem_singleton_self _, _, rfl, List.mem_map.mpr declared⟩

/--
No `additionalProperties` survives exactly when the subschemas with that member
are reached by visited keywords alone.
-/
theorem nothing_survives_iff (tools : ToolRegistry signature Locals) :
    NothingSurvives (serializeGeminiTools tools) ↔
      ∀ definition ∈ tools.definitions, Covered definition.parameterSchema := by
  constructor
  · intro nothing definition member
    refine (clean_geminiFunctionSchema_iff _).mp ?_
    exact nothing _ (declared_iff.mpr ⟨definition, member, rfl⟩) _
      (parameters_geminiDeclaration definition)
  · intro covered declaration declared parameters isParameters
    obtain ⟨definition, member, rfl⟩ := declared_iff.mp declared
    rw [parameters_geminiDeclaration] at isParameters
    cases isParameters
    exact (clean_geminiFunctionSchema_iff _).mpr (covered definition member)

end Declarations

/-! ## A schema behind another keyword -/

/-- Closed objects as the values of a pattern. -/
def patternSchema : Json :=
  .object
    [("patternProperties",
      .object
        [("^x-", .object [("additionalProperties", .bool false)])])]

/-- A registry with one tool. -/
def patternTools : ToolRegistry agents Unit where
  tools :=
    [("set_headers",
      { definition :=
          { name := "set_headers"
            description := "Sets headers."
            parameterSchema := patternSchema }
        requiresConfirmation := false
        execute := fun _ _ => pure (.success .null) })]

theorem not_covered_patternSchema : ¬ Covered patternSchema := by
  intro covered
  have found : SchemaAt applicators patternSchema [0, 0]
      (.object [("additionalProperties", .bool false)]) :=
    @SchemaAt.under _ _ 0 "patternProperties" _ _ _ [0] [] rfl
      (.named (by decide) rfl) .root
  obtain ⟨front, child, rest, -, inside, -⟩ :=
    (isNode_member_iff rfl).mp (covered _ _ found rfl)
  exact not_inside_of_not_mem (by decide) (by decide) (by decide) inside

/-- The member survives in the schema of a pattern. -/
theorem additionalProperties_survives :
    ¬ ∀ tools : ToolRegistry agents Unit,
      NothingSurvives (serializeGeminiTools tools) := by
  intro nothing
  apply not_covered_patternSchema
  refine (clean_geminiFunctionSchema_iff _).mp ?_
  exact nothing patternTools _
    (declared_iff.mpr ⟨_, List.mem_singleton_self _, rfl⟩) _
    (parameters_geminiDeclaration _)

end ArnCore.Provider.GeminiDeclarations
