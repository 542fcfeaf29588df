import ArnCore.Provider.Payload
import ArnCore.Schema.SchemaNodes

/-!
# The schemas Gemini is sent

The wire form of a parameter schema is the schema without the member
`additionalProperties` of its schema nodes.  Data, property names and everything
else that stands at another place is kept.
-/

namespace ArnCore.Provider.GeminiSchema

open ArnCore.Schema.SchemaNodes

/-- The keywords `gemini_function_schema` visits. -/
def visited : Keywords where
  named := ["properties", "$defs", "defs", "definitions"]
  single := ["items", "not"]
  listed := ["prefixItems", "anyOf", "oneOf", "allOf"]

/-- An object of named schemas after the visit. -/
def visitNamed : Json → Json
  | .object children =>
      .object (children.map fun inner =>
        (inner.1, geminiFunctionSchema inner.2))
  | other => other

/-- A single schema after the visit. -/
def visitSingle : Json → Json
  | .object fields => geminiFunctionSchema (.object fields)
  | other => other

/-- An array of schemas after the visit. -/
def visitListed : Json → Json
  | .array items => .array (items.map geminiFunctionSchema)
  | other => other

/-- The value of a member after the visit. -/
def visitedValue (key : String) (value : Json) : Json :=
  if key ∈ visited.named then visitNamed value
  else if key ∈ visited.single then visitSingle value
  else if key ∈ visited.listed then visitListed value
  else value

theorem map_attach_eq
    {Value Result : Type} {values : List Value}
    {update : { value // value ∈ values } → Result} {each : Value → Result}
    (same : ∀ value, update value = each value.1) :
    values.attach.map update = values.map each := by
  apply List.ext_getElem
  · simp
  · intro position first second
    simp [same]

theorem geminiFunctionSchema_object (members : List (String × Json)) :
    geminiFunctionSchema (.object members) =
      .object ((members.map fun member =>
        (member.1, visitedValue member.1 member.2)).filter fun member =>
          member.1 ≠ "additionalProperties") := by
  rw [geminiFunctionSchema]
  congr 2
  apply map_attach_eq
  rintro ⟨⟨key, value⟩, found⟩
  refine congrArg (Prod.mk key) ?_
  rw [visitedValue]
  refine if_congr Iff.rfl ?_ (if_congr Iff.rfl ?_ (if_congr Iff.rfl ?_ rfl))
  · cases value with
    | object children =>
        exact congrArg Json.object (map_attach_eq fun inner => rfl)
    | _ => rfl
  · cases value <;> rfl
  · cases value with
    | array items => exact congrArg Json.array (map_attach_eq fun inner => rfl)
    | _ => rfl

theorem geminiFunctionSchema_of_not_object
    {schema : Json} (other : ∀ members, schema ≠ .object members) :
    geminiFunctionSchema schema = schema := by
  cases schema with
  | object members => exact absurd rfl (other members)
  | _ => rw [geminiFunctionSchema]; simp

/-! ## Every keyword has one form -/

section Forms

variable {key : String} {value schema : Json} {front path : List Nat}

theorem inside_named_iff (named : key ∈ visited.named) :
    Inside visited key value front schema ↔
      ∃ children position name, value = .object children ∧
        front = [position] ∧ children[position]? = some (name, schema) := by
  have alone : ∀ key ∈ visited.named,
      key ∉ visited.single ∧ key ∉ visited.listed := by decide
  constructor
  · intro inside
    cases inside with
    | named keyword child => exact ⟨_, _, _, rfl, rfl, child⟩
    | single keyword => exact absurd keyword (alone key named).1
    | listed keyword child => exact absurd keyword (alone key named).2
  · rintro ⟨children, position, name, rfl, rfl, child⟩
    exact .named named child

theorem inside_single_iff (single : key ∈ visited.single) :
    Inside visited key value front schema ↔
      ∃ fields, value = .object fields ∧ front = [] ∧
        schema = .object fields := by
  have alone : ∀ key ∈ visited.single,
      key ∉ visited.named ∧ key ∉ visited.listed := by decide
  constructor
  · intro inside
    cases inside with
    | named keyword child => exact absurd keyword (alone key single).1
    | single keyword => exact ⟨_, rfl, rfl, rfl⟩
    | listed keyword child => exact absurd keyword (alone key single).2
  · rintro ⟨fields, rfl, rfl, rfl⟩
    exact .single single

theorem inside_listed_iff (listed : key ∈ visited.listed) :
    Inside visited key value front schema ↔
      ∃ items position, value = .array items ∧ front = [position] ∧
        items[position]? = some schema := by
  have alone : ∀ key ∈ visited.listed,
      key ∉ visited.named ∧ key ∉ visited.single := by decide
  constructor
  · intro inside
    cases inside with
    | named keyword child => exact absurd keyword (alone key listed).1
    | single keyword => exact absurd keyword (alone key listed).2
    | listed keyword child => exact ⟨_, _, rfl, rfl, child⟩
  · rintro ⟨items, position, rfl, rfl, child⟩
    exact .listed listed child

/-- The places below a child are those of the child. -/
theorem isNodeInside_child_iff
    {position : Nat}
    (only : ∀ front other, Inside visited key value front other →
      ∃ here, front = [here])
    (child : ∀ other, Inside visited key value [position] other ↔
      other = schema) :
    IsNodeInside visited key value (position :: path) ↔
      IsNode visited schema path := by
  constructor
  · rintro ⟨front, other, rest, same, inside, node⟩
    obtain ⟨here, rfl⟩ := only front other inside
    cases same
    obtain rfl := (child other).mp inside
    exact node
  · intro node
    exact ⟨[position], schema, path, rfl, (child schema).mpr rfl, node⟩

theorem isNodeInside_named_iff
    {children : List (String × Json)} {position : Nat} {name : String}
    (named : key ∈ visited.named)
    (found : children[position]? = some (name, schema)) :
    IsNodeInside visited key (.object children) (position :: path) ↔
      IsNode visited schema path := by
  refine isNodeInside_child_iff ?_ fun other => ?_
  · intro front other inside
    obtain ⟨_, here, _, -, same, -⟩ := (inside_named_iff named).mp inside
    exact ⟨here, same⟩
  · rw [inside_named_iff named]
    constructor
    · rintro ⟨_, _, name, ⟨⟩, ⟨⟩, isChild⟩
      rw [found] at isChild
      cases isChild
      rfl
    · rintro rfl
      exact ⟨_, _, _, rfl, rfl, found⟩

theorem isNodeInside_single_iff
    {fields : List (String × Json)} (single : key ∈ visited.single) :
    IsNodeInside visited key (.object fields) path ↔
      IsNode visited (.object fields) path := by
  constructor
  · rintro ⟨front, other, rest, rfl, inside, node⟩
    obtain ⟨_, ⟨⟩, rfl, rfl⟩ := (inside_single_iff single).mp inside
    exact node
  · intro node
    exact ⟨[], _, path, rfl, .single single, node⟩

theorem isNodeInside_listed_iff
    {items : List Json} {position : Nat} (listed : key ∈ visited.listed)
    (found : items[position]? = some schema) :
    IsNodeInside visited key (.array items) (position :: path) ↔
      IsNode visited schema path := by
  refine isNodeInside_child_iff ?_ fun other => ?_
  · intro front other inside
    obtain ⟨_, here, -, same, -⟩ := (inside_listed_iff listed).mp inside
    exact ⟨here, same⟩
  · rw [inside_listed_iff listed]
    constructor
    · rintro ⟨_, _, ⟨⟩, ⟨⟩, isChild⟩
      rw [found] at isChild
      cases isChild
      rfl
    · rintro rfl
      exact ⟨_, _, rfl, rfl, found⟩

/-- A value without schemas is kept. -/
theorem eraseAt_of_nothing_inside
    (nothing : ∀ front other, ¬ Inside visited key value front other) :
    eraseAt "additionalProperties" (IsNodeInside visited key value) value =
      value := by
  refine eraseAt_of_no_place _ ?_
  rintro path ⟨front, other, rest, -, inside, -⟩
  exact nothing front other inside

/-- The member is removed from every schema that is no larger. -/
def ErasesUpTo (value : Json) : Prop :=
  ∀ schema, sizeOf schema ≤ sizeOf value →
    geminiFunctionSchema schema =
      eraseAt "additionalProperties" (IsNode visited schema) schema

theorem eraseAt_visitNamed
    (named : key ∈ visited.named) (erases : ErasesUpTo value) :
    eraseAt "additionalProperties" (IsNodeInside visited key value) value =
      visitNamed value := by
  cases value with
  | object children =>
      refine eraseAt_object_of_not_place ?_ fun position member found => ?_
      · rintro ⟨front, other, rest, same, inside, -⟩
        obtain ⟨_, _, _, -, rfl, -⟩ := (inside_named_iff named).mp inside
        cases same
      · rw [erases member.2 (sizeOf_lt_object found).le]
        congr 1
        funext path
        exact propext (isNodeInside_named_iff named found)
  | _ =>
      refine eraseAt_of_nothing_inside fun front other inside => ?_
      obtain ⟨_, _, _, impossible, -⟩ := (inside_named_iff named).mp inside
      cases impossible

theorem eraseAt_visitSingle
    (single : key ∈ visited.single) (erases : ErasesUpTo value) :
    eraseAt "additionalProperties" (IsNodeInside visited key value) value =
      visitSingle value := by
  cases value with
  | object fields =>
      have same : IsNodeInside visited key (.object fields) =
          IsNode visited (.object fields) :=
        funext fun path => propext (isNodeInside_single_iff single)
      rw [same, ← erases _ le_rfl]
      rfl
  | _ =>
      refine eraseAt_of_nothing_inside fun front other inside => ?_
      obtain ⟨_, impossible, -⟩ := (inside_single_iff single).mp inside
      cases impossible

theorem eraseAt_visitListed
    (listed : key ∈ visited.listed) (erases : ErasesUpTo value) :
    eraseAt "additionalProperties" (IsNodeInside visited key value) value =
      visitListed value := by
  cases value with
  | array items =>
      refine eraseAt_array_of fun position item found => ?_
      rw [erases item (sizeOf_lt_array found).le]
      congr 1
      funext path
      exact propext (isNodeInside_listed_iff listed found)
  | _ =>
      refine eraseAt_of_nothing_inside fun front other inside => ?_
      obtain ⟨_, _, impossible, -⟩ := (inside_listed_iff listed).mp inside
      cases impossible

/-- Removing the member at the schema nodes of a value is visiting it. -/
theorem eraseAt_visitedValue (erases : ErasesUpTo value) :
    eraseAt "additionalProperties" (IsNodeInside visited key value) value =
      visitedValue key value := by
  rw [visitedValue]
  split_ifs with named single listed
  · exact eraseAt_visitNamed named erases
  · exact eraseAt_visitSingle single erases
  · exact eraseAt_visitListed listed erases
  · exact eraseAt_of_nothing_inside fun front other =>
      not_inside_of_not_mem named single listed

end Forms

/-! ## Whole schemas -/

/-- The schema is the one without the member at its schema nodes. -/
theorem geminiFunctionSchema_eq_eraseAt (schema : Json) :
    geminiFunctionSchema schema =
      eraseAt "additionalProperties" (IsNode visited schema) schema := by
  induction schema using sizeInduction with
  | step schema induction =>
      cases schema with
      | object members =>
          have below : ∀ position member, members[position]? = some member →
              eraseAt "additionalProperties"
                  (fun path => IsNode visited (.object members)
                    (position :: path)) member.2 =
                visitedValue member.1 member.2 := by
            intro position member found
            have smaller := sizeOf_lt_object found
            have places : (fun path => IsNode visited (.object members)
                (position :: path)) =
                  IsNodeInside visited member.1 member.2 := by
              funext path
              exact propext (isNode_member_iff found)
            rw [places]
            exact eraseAt_visitedValue fun other small =>
              induction other (small.trans_lt smaller)
          rw [geminiFunctionSchema_object,
            eraseAt_object_of_place isNode_root below]
      | array items =>
          have nowhere : ∀ position item, items[position]? = some item →
              eraseAt "additionalProperties"
                  (fun path => IsNode visited (.array items)
                    (position :: path)) item =
                id item := by
            intro position item found
            refine eraseAt_of_no_place item ?_
            rintro path ⟨node, impossible⟩
            cases impossible
          rw [eraseAt_array_of nowhere, List.map_id,
            geminiFunctionSchema_of_not_object (by simp)]
      | _ =>
          rw [geminiFunctionSchema_of_not_object (by simp), eraseAt]
            <;> simp

/-- A second visit of a value changes nothing. -/
theorem visitedValue_visitedValue
    {key : String} {value : Json}
    (again : ∀ schema, sizeOf schema ≤ sizeOf value →
      geminiFunctionSchema (geminiFunctionSchema schema) =
        geminiFunctionSchema schema) :
    visitedValue key (visitedValue key value) = visitedValue key value := by
  simp only [visitedValue]
  split_ifs with named single listed
  · cases value with
    | object children =>
        have each : ∀ inner ∈ children,
            geminiFunctionSchema (geminiFunctionSchema inner.2) =
              geminiFunctionSchema inner.2 :=
          fun inner member => again inner.2 (sizeOf_member_lt member).le
        simp only [visitNamed, List.map_map]
        congr 1
        apply List.map_congr_left
        intro inner member
        exact congrArg (Prod.mk inner.1) (each inner member)
    | _ => rfl
  · cases value with
    | object fields =>
        have twice := again (.object fields) le_rfl
        rw [visitSingle]
        rw [geminiFunctionSchema_object] at twice ⊢
        exact twice
    | _ => rfl
  · cases value with
    | array items =>
        simp only [visitListed, List.map_map]
        congr 1
        apply List.map_congr_left
        intro item member
        exact again item (sizeOf_item_lt member).le
    | _ => rfl
  · rfl

/-- A second visit changes nothing. -/
theorem geminiFunctionSchema_idempotent (schema : Json) :
    geminiFunctionSchema (geminiFunctionSchema schema) =
      geminiFunctionSchema schema := by
  induction schema using sizeInduction with
  | step schema induction =>
      cases schema with
      | object members =>
          have kept : ∀ member ∈ (members.map fun member =>
              (member.1, visitedValue member.1 member.2)).filter fun member =>
                member.1 ≠ "additionalProperties",
              (member.1, visitedValue member.1 member.2) = member ∧
                member.1 ≠ "additionalProperties" := by
            intro member inside
            obtain ⟨visits, other⟩ := List.mem_filter.mp inside
            obtain ⟨before, isMember, rfl⟩ := List.mem_map.mp visits
            have smaller := sizeOf_member_lt isMember
            refine ⟨congrArg (Prod.mk before.1) ?_, of_decide_eq_true other⟩
            exact visitedValue_visitedValue fun other small =>
              induction other (small.trans_lt smaller)
          rw [geminiFunctionSchema_object, geminiFunctionSchema_object,
            List.map_congr_left fun member inside => (kept member inside).1,
            List.map_id', List.filter_eq_self.mpr]
          exact fun member inside => decide_eq_true (kept member inside).2
      | _ => simp [geminiFunctionSchema_of_not_object]

/--
The wire form of a schema is the schema without the member
`additionalProperties` of every schema node, and it is its own wire form.
-/
theorem schema_nodes_erased (schema : Json) :
    geminiFunctionSchema schema =
        eraseAt "additionalProperties" (IsNode visited schema) schema ∧
      geminiFunctionSchema (geminiFunctionSchema schema) =
        geminiFunctionSchema schema :=
  ⟨geminiFunctionSchema_eq_eraseAt schema,
    geminiFunctionSchema_idempotent schema⟩

end ArnCore.Provider.GeminiSchema
