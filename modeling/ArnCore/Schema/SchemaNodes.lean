import ArnCore.Json

/-!
# Schemas inside a JSON value

Which values inside a JSON document are schemas depends on their place: the
value of a keyword, a member of an object of named schemas, or an element of an
array of schemas.  A place is the list of positions that leads to it.  Members
are removed from an object by the place at which it stands.
-/

namespace ArnCore.Schema.SchemaNodes

/-- Keywords with schemas below them, by the form their value has. -/
structure Keywords where
  /-- The members of an object are schemas. -/
  named : List String
  /-- An object is a schema. -/
  single : List String
  /-- The elements of an array are schemas. -/
  listed : List String

/-- A schema in the value of a keyword, with its place in that value. -/
inductive Inside (keywords : Keywords) (key : String) :
    Json → List Nat → Json → Prop where
  | named {children : List (String × Json)} {position : Nat} {name : String}
      {schema : Json} (keyword : key ∈ keywords.named)
      (child : children[position]? = some (name, schema)) :
      Inside keywords key (.object children) [position] schema
  | single {fields : List (String × Json)} (keyword : key ∈ keywords.single) :
      Inside keywords key (.object fields) [] (.object fields)
  | listed {items : List Json} {position : Nat} {schema : Json}
      (keyword : key ∈ keywords.listed)
      (child : items[position]? = some schema) :
      Inside keywords key (.array items) [position] schema

/-- A schema at a place of a schema. -/
inductive SchemaAt (keywords : Keywords) : Json → List Nat → Json → Prop where
  | root {schema : Json} : SchemaAt keywords schema [] schema
  | under {members : List (String × Json)} {position : Nat} {key : String}
      {value schema node : Json} {front path : List Nat}
      (member : members[position]? = some (key, value))
      (inside : Inside keywords key value front schema)
      (rest : SchemaAt keywords schema path node) :
      SchemaAt keywords (.object members) (position :: (front ++ path)) node

/-- A schema stands at the place. -/
def IsNode (keywords : Keywords) (schema : Json) (path : List Nat) : Prop :=
  ∃ node, SchemaAt keywords schema path node

/-- A schema stands at the place in the value of a keyword. -/
def IsNodeInside (keywords : Keywords) (key : String) (value : Json)
    (path : List Nat) : Prop :=
  ∃ front schema rest, path = front ++ rest ∧
    Inside keywords key value front schema ∧ IsNode keywords schema rest

section Places

variable {keywords : Keywords} {members : List (String × Json)}
  {position : Nat} {key : String} {value schema node : Json}
  {front path : List Nat}

/-- What stands below a member. -/
theorem schemaAt_member_iff (member : members[position]? = some (key, value)) :
    SchemaAt keywords (.object members) (position :: path) node ↔
      ∃ front schema rest, path = front ++ rest ∧
        Inside keywords key value front schema ∧
        SchemaAt keywords schema rest node := by
  constructor
  · intro found
    cases found with
    | under other inside rest =>
        rw [member] at other
        cases other
        exact ⟨_, _, _, rfl, inside, rest⟩
  · rintro ⟨front, schema, rest, rfl, inside, found⟩
    exact .under member inside found

theorem isNode_member_iff (member : members[position]? = some (key, value)) :
    IsNode keywords (.object members) (position :: path) ↔
      IsNodeInside keywords key value path := by
  constructor
  · rintro ⟨node, found⟩
    obtain ⟨front, schema, rest, same, inside, below⟩ :=
      (schemaAt_member_iff member).mp found
    exact ⟨front, schema, rest, same, inside, node, below⟩
  · rintro ⟨front, schema, rest, same, inside, node, below⟩
    exact ⟨node, (schemaAt_member_iff member).mpr
      ⟨front, schema, rest, same, inside, below⟩⟩

/-- The root is a schema. -/
theorem isNode_root : IsNode keywords schema [] := ⟨schema, .root⟩

/-- Under another keyword there is no schema. -/
theorem not_inside_of_not_mem
    (named : key ∉ keywords.named) (single : key ∉ keywords.single)
    (listed : key ∉ keywords.listed) :
    ¬ Inside keywords key value front schema := by
  intro inside
  cases inside with
  | named keyword child => exact named keyword
  | single keyword => exact single keyword
  | listed keyword child => exact listed keyword

end Places

/-! ## Removing members by place -/

open Classical in
/-- The value without the members `key` of the objects at some places. -/
noncomputable def eraseAt (key : String) :
    (List Nat → Prop) → Json → Json
  | places, .object members =>
      .object ((members.attach.mapIdx fun position entry =>
        (entry.1.1,
          eraseAt key (fun path => places (position :: path)) entry.1.2)).filter
            fun member => ¬ (places [] ∧ member.1 = key))
  | places, .array items =>
      .array (items.attach.mapIdx fun position item =>
        eraseAt key (fun path => places (position :: path)) item.1)
  | _, other => other
termination_by _ value => sizeOf value
decreasing_by
  · have smaller := List.sizeOf_lt_of_mem entry.2
    rcases entry with ⟨⟨name, child⟩, found⟩
    simp only [Prod.mk.sizeOf_spec] at smaller
    simp only [Json.object.sizeOf_spec]
    omega
  · have smaller := List.sizeOf_lt_of_mem item.2
    simp only [Json.array.sizeOf_spec]
    omega

section Erasing

variable {erased : String} {places : List Nat → Prop}
  {members : List (String × Json)} {items : List Json}

theorem mapIdx_attach
    {Value Result : Type} (update : Nat → Value → Result)
    (values : List Value) :
    values.attach.mapIdx (fun position entry => update position entry.1) =
      values.mapIdx update := by
  apply List.ext_getElem
  · simp
  · intro position first second
    simp

theorem mapIdx_eq_map_of_getElem?
    {Value Result : Type} {update : Nat → Value → Result}
    {each : Value → Result} {values : List Value}
    (same : ∀ position value, values[position]? = some value →
      update position value = each value) :
    values.mapIdx update = values.map each := by
  apply List.ext_getElem?
  intro position
  rw [List.getElem?_mapIdx, List.getElem?_map]
  cases found : values[position]? with
  | none => rfl
  | some value => exact congrArg some (same position value found)

open Classical in
theorem eraseAt_object :
    eraseAt erased places (.object members) =
      .object ((members.mapIdx fun position member =>
        (member.1,
          eraseAt erased (fun path => places (position :: path))
            member.2)).filter
              fun member => ¬ (places [] ∧ member.1 = erased)) := by
  rw [eraseAt, mapIdx_attach fun position (member : String × Json) =>
    (member.1,
      eraseAt erased (fun path => places (position :: path)) member.2)]

theorem eraseAt_array :
    eraseAt erased places (.array items) =
      .array (items.mapIdx fun position item =>
        eraseAt erased (fun path => places (position :: path)) item) := by
  rw [eraseAt, mapIdx_attach fun position (item : Json) =>
    eraseAt erased (fun path => places (position :: path)) item]

/-- An object at a place, whose members are known after the removal below. -/
theorem eraseAt_object_of_place
    {each : String × Json → Json} (here : places [])
    (same : ∀ position member, members[position]? = some member →
      eraseAt erased (fun path => places (position :: path)) member.2 =
        each member) :
    eraseAt erased places (.object members) =
      .object ((members.map fun member => (member.1, each member)).filter
        fun member => member.1 ≠ erased) := by
  have mapped : (members.mapIdx fun position member =>
      (member.1,
        eraseAt erased (fun path => places (position :: path)) member.2)) =
      members.map fun member => (member.1, each member) :=
    mapIdx_eq_map_of_getElem? fun position member found => by
      rw [same position member found]
  rw [eraseAt_object, mapped]
  congr 1
  apply List.filter_congr
  intro member _
  simp [here]

/-- An object at another place. -/
theorem eraseAt_object_of_not_place
    {each : String × Json → Json} (elsewhere : ¬ places [])
    (same : ∀ position member, members[position]? = some member →
      eraseAt erased (fun path => places (position :: path)) member.2 =
        each member) :
    eraseAt erased places (.object members) =
      .object (members.map fun member => (member.1, each member)) := by
  have mapped : (members.mapIdx fun position member =>
      (member.1,
        eraseAt erased (fun path => places (position :: path)) member.2)) =
      members.map fun member => (member.1, each member) :=
    mapIdx_eq_map_of_getElem? fun position member found => by
      rw [same position member found]
  rw [eraseAt_object, mapped]
  congr 1
  apply List.filter_eq_self.mpr
  intro member _
  simp [elsewhere]

theorem eraseAt_array_of
    {each : Json → Json}
    (same : ∀ position item, items[position]? = some item →
      eraseAt erased (fun path => places (position :: path)) item =
        each item) :
    eraseAt erased places (.array items) = .array (items.map each) := by
  rw [eraseAt_array, mapIdx_eq_map_of_getElem? same]

theorem sizeOf_lt_object
    {position : Nat} {member : String × Json}
    (found : members[position]? = some member) :
    sizeOf member.2 < sizeOf (Json.object members) := by
  have smaller := List.sizeOf_lt_of_mem (List.mem_of_getElem? found)
  rcases member with ⟨name, child⟩
  simp only [Prod.mk.sizeOf_spec] at smaller
  simp only [Json.object.sizeOf_spec]
  omega

theorem sizeOf_lt_array
    {position : Nat} {item : Json} (found : items[position]? = some item) :
    sizeOf item < sizeOf (Json.array items) := by
  have smaller := List.sizeOf_lt_of_mem (List.mem_of_getElem? found)
  simp only [Json.array.sizeOf_spec]
  omega

/-- Induction along the values inside a value. -/
theorem sizeInduction
    {motive : Json → Prop} (value : Json)
    (step : ∀ value : Json,
      (∀ smaller : Json, sizeOf smaller < sizeOf value → motive smaller) →
        motive value) :
    motive value :=
  (measure sizeOf).wf.induction value step

/-- Where there is no place, nothing is removed. -/
theorem eraseAt_of_no_place
    (value : Json) (nowhere : ∀ path, ¬ places path) :
    eraseAt erased places value = value := by
  induction value using sizeInduction generalizing places with
  | step value induction =>
      cases value with
      | object members =>
          have below : ∀ position member, members[position]? = some member →
              eraseAt erased (fun path => places (position :: path)) member.2 =
                member.2 := fun position member found =>
            induction _ (sizeOf_lt_object found) fun path =>
              nowhere (position :: path)
          rw [eraseAt_object_of_not_place (nowhere []) below]
          simp
      | array items =>
          have below : ∀ position item, items[position]? = some item →
              eraseAt erased (fun path => places (position :: path)) item =
                id item := fun position item found =>
            induction _ (sizeOf_lt_array found) fun path =>
              nowhere (position :: path)
          rw [eraseAt_array_of below]
          simp
      | _ => rw [eraseAt] <;> simp

end Erasing

end ArnCore.Schema.SchemaNodes
