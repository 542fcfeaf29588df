import ArnCore.Provider.StreamUpdates

/-!
# The accumulated calls

Every entry of the array of tool calls has the members it was padded with.  An
update changes one of them, and what a sequence of updates makes of a member is
decided by the last value that was assigned to it, or by the fragments that were
appended.  The array is as before exactly when that is so at every member.
-/

namespace ArnCore.Provider.CallEntries

open ArnCore.Collections
open ArnCore.Interaction
open ArnCore.Provider.StreamUpdates

/-- An accumulated call: deltas assign any value, but append only strings. -/
structure CallEntry where
  id : Json := .string ""
  type : Json := .string "function"
  name : Json := .string ""
  arguments : String := ""

namespace CallEntry

/-- The entry as it stands in the array. -/
def toJson (entry : CallEntry) : Json :=
  .object
    [("function",
        .object
          [("arguments", .string entry.arguments), ("name", entry.name)]),
      ("id", entry.id), ("type", entry.type)]

theorem toJson_injective : Function.Injective toJson := by
  rintro ⟨id, type, name, arguments⟩ ⟨_, _, _, _⟩ same
  simp only [toJson, Json.object.injEq, List.cons.injEq, Prod.mk.injEq,
    true_and, and_true, Json.string.injEq] at same
  obtain ⟨⟨rfl, rfl⟩, rfl, rfl⟩ := same
  rfl

theorem toJson_empty : ({} : CallEntry).toJson = emptyCall := rfl

/-- The value of a member. -/
def read (entry : CallEntry) : CallField → Json
  | .id => entry.id
  | .type => entry.type
  | .name => entry.name

/-- The entry with another value of a member. -/
def write (entry : CallEntry) (field : CallField) (value : Json) :
    CallEntry :=
  match field with
  | .id => { entry with id := value }
  | .type => { entry with type := value }
  | .name => { entry with name := value }

/-- The entry with more argument text. -/
def append (entry : CallEntry) (fragment : String) : CallEntry :=
  { entry with arguments := entry.arguments ++ fragment }

theorem assignField_toJson
    (entry : CallEntry) (field : CallField) (value : Json) :
    assignField field value entry.toJson =
      .ok (entry.write field value).toJson := by
  cases field with
  | id =>
      simp only [assignField, toJson, write, Json.assign, OrderedMap.insert,
        String.reduceEq, String.reduceLT, if_true, if_false]
  | type =>
      simp only [assignField, toJson, write, Json.assign, OrderedMap.insert,
        String.reduceEq, String.reduceLT, if_true, if_false]
  | name =>
      have inner : (member entry.toJson "function").assign "name" value =
          .ok (.object
            [("arguments", .string entry.arguments), ("name", value)]) := by
        simp only [member, toJson, Json.find?_object, OrderedMap.find?_cons,
          if_true, Option.getD_some, Json.assign, OrderedMap.insert,
          String.reduceEq, String.reduceLT, if_false]
      have outer : entry.toJson.assign "function"
          (.object [("arguments", .string entry.arguments), ("name", value)]) =
            .ok (entry.write .name value).toJson := by
        rw [toJson, Json.assign, OrderedMap.insert, if_pos rfl]
        rfl
      rw [assignField, assignFunction, inner]
      exact outer

theorem appendArguments_toJson (entry : CallEntry) (fragment : String) :
    appendArguments (.string fragment) entry.toJson =
      .ok (entry.append fragment).toJson := rfl

@[simp]
theorem read_write
    (entry : CallEntry) (field other : CallField) (value : Json) :
    (entry.write field value).read other =
      if field = other then value else entry.read other := by
  cases field <;> cases other <;> rfl

@[simp]
theorem read_append
    (entry : CallEntry) (fragment : String) (field : CallField) :
    (entry.append fragment).read field = entry.read field := by
  cases field <;> rfl

@[simp]
theorem arguments_write
    (entry : CallEntry) (field : CallField) (value : Json) :
    (entry.write field value).arguments = entry.arguments := by
  cases field <;> rfl

@[simp]
theorem arguments_append (entry : CallEntry) (fragment : String) :
    (entry.append fragment).arguments = entry.arguments ++ fragment := rfl

/-- Entries with the same members and the same arguments are the same. -/
theorem ext_read
    {first second : CallEntry}
    (fields : ∀ field, first.read field = second.read field)
    (arguments : first.arguments = second.arguments) : first = second := by
  rcases first with ⟨id, type, name, text⟩
  obtain rfl := fields .id
  obtain rfl := fields .type
  obtain rfl := fields .name
  obtain rfl := arguments
  rfl

end CallEntry

/-! ## Updates of one entry -/

/-- What an update makes of the entry at an index. -/
def entryStep (index : Nat) (entry : CallEntry) : Update → CallEntry
  | .field other field value =>
      if other = index then entry.write field value else entry
  | .fragment other (.string fragment) =>
      if other = index then entry.append fragment else entry
  | _ => entry

/-- The value an update assigns to a member of the entry at an index. -/
def assigned? (index : Nat) (field : CallField) : Update → Option Json
  | .field other changed value =>
      if other = index ∧ changed = field then some value else none
  | _ => none

/-- The last value assigned to a member of the entry at an index. -/
def lastAssigned? (index : Nat) (field : CallField) :
    List Update → Option Json
  | [] => none
  | update :: updates =>
      (lastAssigned? index field updates).or (assigned? index field update)

/-- The fragment an update appends at an index. -/
def fragment? (index : Nat) : Update → Option String
  | .fragment other (.string fragment) =>
      if other = index then some fragment else none
  | _ => none

theorem read_entryStep
    (index : Nat) (entry : CallEntry) (update : Update) (field : CallField) :
    (entryStep index entry update).read field =
      (assigned? index field update).getD (entry.read field) := by
  cases update with
  | field other changed value =>
      simp only [entryStep, assigned?]
      by_cases same : other = index
      · by_cases sameField : changed = field
        · simp [same, sameField]
        · simp [same, sameField]
      · simp [same]
  | fragment other text =>
      cases text with
      | string fragment =>
          simp only [entryStep, assigned?, Option.getD_none]
          split_ifs <;> simp
      | _ => rfl
  | _ => rfl

theorem arguments_entryStep
    (index : Nat) (entry : CallEntry) (update : Update) :
    (entryStep index entry update).arguments =
      entry.arguments ++ (fragment? index update).getD "" := by
  cases update with
  | field other changed value =>
      simp only [entryStep, fragment?, Option.getD_none]
      split_ifs <;> simp
  | fragment other text =>
      cases text with
      | string fragment =>
          simp only [entryStep, fragment?]
          split_ifs <;> simp
      | _ => simp [entryStep, fragment?]
  | _ => simp [entryStep, fragment?]

/-- A member has the last value that was assigned to it. -/
theorem read_foldl_entryStep
    (index : Nat) (entry : CallEntry) (updates : List Update)
    (field : CallField) :
    (updates.foldl (entryStep index) entry).read field =
      (lastAssigned? index field updates).getD (entry.read field) := by
  induction updates generalizing entry with
  | nil => rfl
  | cons update updates induction =>
      rw [List.foldl_cons, induction, read_entryStep, lastAssigned?]
      cases lastAssigned? index field updates with
      | none => rfl
      | some value => rfl

/-- The arguments grow by every fragment. -/
theorem arguments_foldl_entryStep
    (index : Nat) (entry : CallEntry) (updates : List Update) :
    (updates.foldl (entryStep index) entry).arguments =
      entry.arguments ++
        String.join (updates.filterMap (fragment? index)) := by
  induction updates generalizing entry with
  | nil => simp
  | cons update updates induction =>
      rw [List.foldl_cons, induction, arguments_entryStep]
      cases found : fragment? index update with
      | none => simp [found]
      | some fragment =>
          simp [found, String.append_assoc]

theorem join_eq_empty_iff {texts : List String} :
    String.join texts = "" ↔ ∀ text ∈ texts, text = "" := by
  induction texts with
  | nil => simp
  | cons text texts induction =>
      rw [String.join_cons, String.append_eq_empty_iff, induction]
      simp

/-- Updates leave an entry as it was. -/
theorem foldl_entryStep_eq_iff
    {index : Nat} {entry : CallEntry} {updates : List Update} :
    updates.foldl (entryStep index) entry = entry ↔
      (∀ field value, lastAssigned? index field updates = some value →
        entry.read field = value) ∧
      ∀ update ∈ updates, ∀ fragment,
        fragment? index update = some fragment → fragment = "" := by
  have silent : String.join (updates.filterMap (fragment? index)) = "" ↔
      ∀ update ∈ updates, ∀ fragment,
        fragment? index update = some fragment → fragment = "" := by
    rw [join_eq_empty_iff]
    simp only [List.mem_filterMap, forall_exists_index, and_imp]
    exact ⟨fun all update member fragment found =>
      all fragment update member found,
      fun all fragment update member found =>
        all update member fragment found⟩
  constructor
  · intro same
    constructor
    · intro field value last
      have read := read_foldl_entryStep index entry updates field
      rw [same, last] at read
      exact read
    · have grown := arguments_foldl_entryStep index entry updates
      rw [same] at grown
      exact silent.mp (String.append_eq_left_iff.mp grown.symm)
  · rintro ⟨fields, fragments⟩
    refine CallEntry.ext_read (fun field => ?_) ?_
    · rw [read_foldl_entryStep]
      cases last : lastAssigned? index field updates with
      | none => rfl
      | some value => exact (fields field value last).symm
    · rw [arguments_foldl_entryStep, silent.mpr fragments, String.append_empty]

/-! ## Updates of the array -/

/-- What an update makes of the accumulated entries. -/
def entriesStep (entries : List CallEntry) : Update → List CallEntry
  | .pad index => entries ++ List.replicate (index + 1 - entries.length) {}
  | .field index field value =>
      entries.modify index fun entry => entry.write field value
  | .fragment index (.string fragment) =>
      entries.modify index fun entry => entry.append fragment
  | _ => entries

/-- The entries a padding makes sure of. -/
def padded : Update → Nat
  | .pad index => index + 1
  | _ => 0

theorem length_entriesStep (entries : List CallEntry) (update : Update) :
    (entriesStep entries update).length =
      max entries.length (padded update) := by
  cases update with
  | pad index =>
      simp only [entriesStep, padded, List.length_append,
        List.length_replicate]
      omega
  | fragment index text => cases text <;> simp [entriesStep, padded]
  | _ => simp [entriesStep, padded]

/-- The entries that were there are updated each on its own. -/
theorem getElem?_entriesStep
    {entries : List CallEntry} {index : Nat} {entry : CallEntry}
    (found : entries[index]? = some entry) (update : Update) :
    (entriesStep entries update)[index]? =
      some (entryStep index entry update) := by
  cases update with
  | pad other =>
      have inside := (List.getElem?_eq_some_iff.mp found).1
      rw [entriesStep, List.getElem?_append_left inside]
      exact found
  | field other field value =>
      rw [entriesStep, List.getElem?_modify, found]
      simp [entryStep]
  | fragment other text =>
      cases text with
      | string fragment =>
          rw [entriesStep, List.getElem?_modify, found]
          simp [entryStep]
      | _ => exact found
  | _ => exact found

theorem getElem?_foldl_entriesStep
    {entries : List CallEntry} {index : Nat} {entry : CallEntry}
    (found : entries[index]? = some entry) (updates : List Update) :
    (updates.foldl entriesStep entries)[index]? =
      some (updates.foldl (entryStep index) entry) := by
  induction updates generalizing entries entry with
  | nil => exact found
  | cons update updates induction =>
      exact induction (getElem?_entriesStep found update)

/-- The array never shrinks, and reaches as far as it was padded. -/
theorem le_length_foldl_entriesStep
    (entries : List CallEntry) (updates : List Update) :
    entries.length ≤ (updates.foldl entriesStep entries).length ∧
      ∀ update ∈ updates,
        padded update ≤ (updates.foldl entriesStep entries).length := by
  induction updates generalizing entries with
  | nil => simp
  | cons update updates induction =>
      obtain ⟨grows, rest⟩ := induction (entriesStep entries update)
      rw [length_entriesStep] at grows
      refine ⟨by rw [List.foldl_cons]; omega, ?_⟩
      intro other member
      rw [List.foldl_cons]
      rcases List.mem_cons.mp member with rfl | later
      · omega
      · exact rest other later

theorem length_foldl_entriesStep
    {entries : List CallEntry} {updates : List Update}
    (inside : ∀ update ∈ updates, padded update ≤ entries.length) :
    (updates.foldl entriesStep entries).length = entries.length := by
  induction updates generalizing entries with
  | nil => rfl
  | cons update updates induction =>
      obtain ⟨first, rest⟩ := List.forall_mem_cons.mp inside
      have same : (entriesStep entries update).length = entries.length := by
        rw [length_entriesStep]
        omega
      rw [List.foldl_cons, induction (by rwa [same]), same]

/-- Updates leave the array as it was. -/
theorem foldl_entriesStep_eq_iff
    {entries : List CallEntry} {updates : List Update} :
    updates.foldl entriesStep entries = entries ↔
      (∀ update ∈ updates, padded update ≤ entries.length) ∧
        ∀ index entry, entries[index]? = some entry →
          updates.foldl (entryStep index) entry = entry := by
  constructor
  · intro same
    constructor
    · have reaches := (le_length_foldl_entriesStep entries updates).2
      rwa [same] at reaches
    · intro index entry found
      have updated := getElem?_foldl_entriesStep found updates
      rw [same, found] at updated
      exact (Option.some.inj updated).symm
  · rintro ⟨inside, kept⟩
    apply List.ext_getElem?
    intro index
    cases found : entries[index]? with
    | none =>
        rw [List.getElem?_eq_none_iff] at found ⊢
        rwa [length_foldl_entriesStep inside]
    | some entry =>
        rw [getElem?_foldl_entriesStep found, kept index entry found]

/-! ## Updates that find their entry -/

/-- The entry an update changes is there. -/
def Within (length : Nat) : Update → Prop
  | .field index _ _ => index < length
  | .fragment index _ => index < length
  | _ => True

theorem Within.mono
    {first second : Nat} {update : Update} (within : Within first update)
    (grows : first ≤ second) : Within second update := by
  cases update with
  | field index field value => exact Nat.lt_of_lt_of_le within grows
  | fragment index text => exact Nat.lt_of_lt_of_le within grows
  | _ => trivial

/-- Every update finds its entry once the ones before it were performed. -/
def Padded (length : Nat) : List Update → Prop
  | [] => True
  | update :: updates =>
      Within length update ∧ Padded (max length (padded update)) updates

theorem Padded.of_within
    {length : Nat} {updates : List Update}
    (within : ∀ update ∈ updates, Within length update) :
    Padded length updates := by
  induction updates generalizing length with
  | nil => trivial
  | cons update updates induction =>
      obtain ⟨first, rest⟩ := List.forall_mem_cons.mp within
      exact ⟨first, induction fun other member =>
        (rest other member).mono (Nat.le_max_left ..)⟩

theorem Padded.append
    {length : Nat} {first second : List Update}
    (start : Padded length first) (rest : ∀ length, Padded length second) :
    Padded length (first ++ second) := by
  induction first generalizing length with
  | nil => exact rest length
  | cons update first induction => exact ⟨start.1, induction start.2⟩

theorem padded_flatMap
    {updates : Json → List Update}
    (each : ∀ item length, Padded length (updates item)) (items : List Json)
    (length : Nat) : Padded length (items.flatMap updates) := by
  induction items generalizing length with
  | nil => trivial
  | cons item items induction =>
      rw [List.flatMap_cons]
      exact (each item length).append induction

/-- An update that stays inside the array finds its entry in it. -/
theorem Padded.within
    {length : Nat} {updates : List Update} (found : Padded length updates)
    (inside : ∀ update ∈ updates, padded update ≤ length) :
    ∀ update ∈ updates, Within length update := by
  induction updates with
  | nil => simp
  | cons update updates induction =>
      obtain ⟨first, rest⟩ := List.forall_mem_cons.mp inside
      have others := found.2
      rw [Nat.max_eq_left first] at others
      exact List.forall_mem_cons.mpr ⟨found.1, induction others rest⟩

theorem within_present
    {length : Nat} {value : Json} {key : String}
    {updates : Json → List Update}
    (within : ∀ found, ∀ update ∈ updates found, Within length update) :
    ∀ update ∈ presentUpdates value key updates, Within length update := by
  unfold presentUpdates
  cases value.find? key with
  | none => simp
  | some found => exact within found

/-- A change pads the array up to its index before it updates the entry. -/
theorem padded_changeUpdates (change : Json) (length : Nat) :
    Padded length (changeUpdates change) := by
  unfold changeUpdates
  cases change.valueOr Json.getUnsigned "index" 0 with
  | error failure => exact ⟨trivial, trivial⟩
  | ok index =>
      have reached : index < max length (index + 1) := by omega
      have single : ∀ update, Within (max length (index + 1)) update →
          ∀ other ∈ [update], Within (max length (index + 1)) other := by
        intro update within other member
        cases List.mem_singleton.mp member
        exact within
      simp only [List.singleton_append]
      refine ⟨trivial, Padded.of_within ?_⟩
      refine List.forall_mem_append.mpr
        ⟨within_present fun id => single _ reached, ?_⟩
      refine List.forall_mem_append.mpr
        ⟨within_present fun type => single _ reached, ?_⟩
      refine within_present fun function => List.forall_mem_append.mpr
        ⟨within_present fun name => single _ reached,
          within_present fun text => single _ reached⟩

theorem padded_packetUpdates (packet : Json) (length : Nat) :
    Padded length (packetUpdates packet) := by
  unfold packetUpdates
  cases delta? packet with
  | none => trivial
  | some delta =>
      refine Padded.append ?_ fun length => ?_
      · unfold contentUpdates
        cases delta.find? "content" with
        | none => trivial
        | some content =>
            cases content with
            | null => trivial
            | _ => exact ⟨trivial, trivial⟩
      · cases delta.valueOr Except.ok "tool_calls" (.array []) with
        | error failure => exact ⟨trivial, trivial⟩
        | ok changes => exact padded_flatMap padded_changeUpdates _ length

/-- The updates of an event find their entries, whatever was accumulated. -/
theorem padded_eventUpdates
    (chat : ChatStream.ChatProvider) (json : JsonText) (event : String)
    (length : Nat) : Padded length (eventUpdates chat json event) := by
  unfold eventUpdates
  split_ifs
  · trivial
  · cases json.parse event with
    | error failure => exact ⟨trivial, trivial⟩
    | ok parsed => exact padded_flatMap padded_packetUpdates _ length

end ArnCore.Provider.CallEntries
