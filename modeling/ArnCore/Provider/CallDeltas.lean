import ArnCore.Interaction.Execution
import ArnCore.Provider.StreamChunk
import Mathlib.Data.List.Forall2

/-!
# Tool calls encoded as deltas

A chat-completion stream carries the calls of an answer in fragments.  Every
fragment names the index of its call; ids and names may be repeated, argument
texts are concatenated.  The parsers collect the fragments in an array that
grows with the largest index seen.  The invariant says of every entry what the
deltas so far have contributed to its index.
-/

namespace ArnCore.Provider.CallDeltas

open ArnCore.Collections
open ArnCore.Interaction

/-! ## Deltas -/

/-- What one element of `tool_calls` contributes to the call at its index. -/
structure CallDelta where
  index : Nat
  id : Option String := none
  name : Option String := none
  arguments : Option String := none

/-- What one packet contributes. -/
structure PacketDelta where
  content : Option String := none
  calls : List CallDelta := []

/-- What the deltas of one index add up to. -/
structure CallFields where
  id : String := ""
  name : String := ""
  arguments : String := ""

/-- Later ids and names replace earlier ones; argument texts are appended. -/
def CallFields.add (fields : CallFields) (delta : CallDelta) : CallFields where
  id := delta.id.getD fields.id
  name := delta.name.getD fields.name
  arguments := fields.arguments ++ delta.arguments.getD ""

/-- What a sequence of deltas adds up to at an index. -/
def fieldsAt (deltas : List CallDelta) (index : Nat) : CallFields :=
  (deltas.filter fun delta => delta.index = index).foldl CallFields.add {}

theorem fieldsAt_append_singleton
    (deltas : List CallDelta) (delta : CallDelta) (index : Nat) :
    fieldsAt (deltas ++ [delta]) index =
      if delta.index = index then (fieldsAt deltas index).add delta
      else fieldsAt deltas index := by
  unfold fieldsAt
  rw [List.filter_append, List.foldl_append]
  by_cases same : delta.index = index
  · simp [same]
  · simp [same]

/-- No delta contributes to an index that was not addressed. -/
theorem fieldsAt_eq_empty
    {deltas : List CallDelta} {index : Nat}
    (unaddressed : ∀ delta ∈ deltas, delta.index ≠ index) :
    fieldsAt deltas index = {} := by
  have nothing : deltas.filter (fun delta => delta.index = index) = [] := by
    simpa using unaddressed
  rw [fieldsAt, nothing]
  rfl

/-! ## Their JSON form -/

/-- A change of `tool_calls` that carries a delta, and possibly more. -/
structure EncodesCall (change : Json) (delta : CallDelta) : Prop where
  index : change.valueOr Json.getUnsigned "index" 0 = .ok delta.index
  id : change.find? "id" = delta.id.map Json.string
  name : (member change "function").find? "name" =
    delta.name.map Json.string
  arguments : (member change "function").find? "arguments" =
    delta.arguments.map Json.string

/-- An entry of the accumulated array that reads as the given fields. -/
def Reads (entry : Json) (fields : CallFields) : Prop :=
  entry.find? "id" = some (.string fields.id) ∧
    ∃ function, entry.find? "function" = some function ∧
      function.find? "name" = some (.string fields.name) ∧
      function.find? "arguments" = some (.string fields.arguments)

theorem reads_emptyCall : Reads emptyCall {} :=
  ⟨rfl, _, rfl, rfl, rfl⟩

/-- A value with a member is an object. -/
theorem exists_members
    {value found : Json} {key : String}
    (present : value.find? key = some found) :
    ∃ members, value = .object members := by
  cases value with
  | object members => exact ⟨members, rfl⟩
  | _ => cases present

/-- Assigning one member of an object changes no other member. -/
theorem find?_of_assign
    {value assigned updated : Json} {key : String}
    (assigns : value.assign key assigned = .ok updated)
    (object : ∃ members, value = .object members) (other : String) :
    updated.find? other =
      if key = other then some assigned else value.find? other := by
  obtain ⟨members, rfl⟩ := object
  cases assigns
  exact OrderedMap.find?_insert

theorem assign_of_object
    {value : Json} (object : ∃ members, value = .object members)
    (key : String) (assigned : Json) :
    ∃ updated, value.assign key assigned = .ok updated := by
  obtain ⟨members, rfl⟩ := object
  exact ⟨_, rfl⟩

section Entries

variable {entry : Json} {fields : CallFields}

/-- Any member other than the id and the function may be assigned. -/
theorem Reads.assign_other
    (reads : Reads entry fields) {key : String} (assigned : Json)
    (notId : key ≠ "id") (notFunction : key ≠ "function") :
    ∃ updated, entry.assign key assigned = .ok updated ∧
      Reads updated fields := by
  have object := exists_members reads.1
  obtain ⟨updated, assigns⟩ := assign_of_object object key assigned
  have finds := find?_of_assign assigns object
  refine ⟨updated, assigns, ?_⟩
  rw [Reads, finds, finds, if_neg notId, if_neg notFunction]
  exact reads

theorem Reads.assign_id
    (reads : Reads entry fields) (id : String) :
    ∃ updated, entry.assign "id" (.string id) = .ok updated ∧
      Reads updated { fields with id := id } := by
  have object := exists_members reads.1
  obtain ⟨updated, assigns⟩ := assign_of_object object "id" (.string id)
  have finds := find?_of_assign assigns object
  refine ⟨updated, assigns, ?_⟩
  rw [Reads, finds, finds]
  exact ⟨rfl, reads.2⟩

/-- Assigning a member of the function of an entry. -/
theorem Reads.assign_function
    {changed : CallFields} {key : String} {assigned : Json}
    (reads : Reads entry fields)
    (sameId : changed.id = fields.id)
    (name : (if key = "name" then some assigned
      else some (.string fields.name)) = some (.string changed.name))
    (arguments : (if key = "arguments" then some assigned
      else some (.string fields.arguments)) =
        some (.string changed.arguments)) :
    ∃ updated, assignFunction key assigned entry = .ok updated ∧
      Reads updated changed := by
  obtain ⟨id, function, functionFound, nameFound, argumentsFound⟩ := reads
  have object := exists_members id
  have functionObject := exists_members nameFound
  obtain ⟨inner, assigns⟩ := assign_of_object functionObject key assigned
  obtain ⟨updated, outer⟩ := assign_of_object object "function" inner
  have innerFinds := find?_of_assign assigns functionObject
  have outerFinds := find?_of_assign outer object
  refine ⟨updated, ?_, ?_, inner, ?_, ?_, ?_⟩
  · rw [assignFunction, member, functionFound]
    change (function.assign key assigned >>= fun function =>
      entry.assign "function" function) = _
    rw [assigns]
    exact outer
  · rw [outerFinds, sameId]
    exact id
  · exact outerFinds "function"
  · rw [innerFinds, nameFound]
    exact name
  · rw [innerFinds, argumentsFound]
    exact arguments

theorem Reads.append_arguments
    (reads : Reads entry fields) (fragment : String) :
    ∃ updated, appendArguments (.string fragment) entry = .ok updated ∧
      Reads updated
        { fields with arguments := fields.arguments ++ fragment } := by
  obtain ⟨updated, assigns, changed⟩ :=
    (reads.assign_function rfl rfl rfl :
      ∃ updated,
        assignFunction "arguments" (.string (fields.arguments ++ fragment))
            entry = .ok updated ∧
          Reads updated
            { fields with arguments := fields.arguments ++ fragment })
  refine ⟨updated, ?_, changed⟩
  obtain ⟨id, function, functionFound, nameFound, argumentsFound⟩ := reads
  rw [appendArguments, member, member, functionFound]
  rw [Option.getD_some, argumentsFound]
  exact assigns

end Entries

/-! ## One change -/

section Changes

variable {signature : Signature} {State : Type}
  {world : World signature State} {allowed : State → signature.Op → Prop}
  {post : Except Exception Unit → TurnParts → State → Prop}
  {parts : TurnParts} {state : State} {index : Nat} {entry : Json}
  {fields : CallFields}

/-- The parts after an entry was replaced. -/
def replaceCall (parts : TurnParts) (index : Nat) (entry : Json) :
    TurnParts :=
  { parts with calls := parts.calls.set index entry }

theorem holds_updateCall
    {update : Json → Except Exception Json} {updated : Json}
    (found : parts.calls[index]? = some entry)
    (updates : update entry = .ok updated)
    (continues : post (.ok ⟨⟩) (replaceCall parts index updated) state) :
    Action.Holds world allowed post (updateCall index update) parts state := by
  unfold updateCall
  rw [Action.holds_bind, Action.holds_get]
  simp only [found, updates]
  exact continues

/-- An update that is made when a member is present. -/
theorem holds_whenPresent_updateCall
    {change : Json} {key : String}
    {update : Json → Json → Except Exception Json}
    {carried : Option Json} (changed : CallFields)
    (found : parts.calls[index]? = some entry)
    (carries : change.find? key = carried)
    (absent : carried = none → Reads entry changed)
    (present : ∀ value, carried = some value →
      ∃ updated, update value entry = .ok updated ∧ Reads updated changed)
    (continues : ∀ updated, Reads updated changed →
      post (.ok ⟨⟩) (replaceCall parts index updated) state) :
    Action.Holds world allowed post
      (whenPresent change key fun value =>
        updateCall index (update value)) parts state := by
  unfold whenPresent
  rw [carries]
  cases carried with
  | none =>
      have unchanged : replaceCall parts index entry = parts := by
        obtain ⟨inside, rfl⟩ := List.getElem?_eq_some_iff.mp found
        rw [replaceCall, List.set_getElem_self]
      have post := continues entry (absent rfl)
      rwa [unchanged] at post
  | some value =>
      obtain ⟨updated, updates, reads⟩ := present value rfl
      exact holds_updateCall found updates (continues updated reads)

theorem getElem?_replaceCall
    (found : parts.calls[index]? = some entry) (updated : Json) :
    (replaceCall parts index updated).calls[index]? = some updated := by
  obtain ⟨inside, -⟩ := List.getElem?_eq_some_iff.mp found
  exact List.getElem?_set_self inside

@[simp]
theorem replaceCall_replaceCall (first second : Json) :
    replaceCall (replaceCall parts index first) index second =
      replaceCall parts index second := by
  simp [replaceCall]

/-- The parts once the array reaches an index. -/
def padParts (parts : TurnParts) (index : Nat) : TurnParts :=
  { parts with calls := padCalls parts.calls index }

/-- The function of a change contributes a name and a fragment. -/
theorem holds_applyFunction
    {change : Json} {delta : CallDelta} (encodes : EncodesCall change delta)
    (found : parts.calls[index]? = some entry) (reads : Reads entry fields)
    (continues : ∀ updated,
      Reads updated
          { fields with
            name := delta.name.getD fields.name
            arguments := fields.arguments ++ delta.arguments.getD "" } →
        post (.ok ⟨⟩) (replaceCall parts index updated) state) :
    Action.Holds world allowed post
      (whenPresent change "function" fun function => do
        whenPresent function "name" fun name =>
          updateCall index (assignFunction "name" name)
        whenPresent function "arguments" fun fragment =>
          updateCall index (appendArguments fragment)) parts state := by
  have name := encodes.name
  have arguments := encodes.arguments
  unfold member at name arguments
  unfold whenPresent
  cases functionFound : change.find? "function" with
  | none =>
      rw [functionFound] at name arguments
      have noName : delta.name = none := by simpa [Json.find?] using name.symm
      have noArguments : delta.arguments = none := by
        simpa [Json.find?] using arguments.symm
      simp only [noName, noArguments, Option.getD_none, String.append_empty]
        at continues
      have unchanged := continues entry reads
      obtain ⟨inside, rfl⟩ := List.getElem?_eq_some_iff.mp found
      rwa [replaceCall, List.set_getElem_self] at unchanged
  | some function =>
      rw [functionFound, Option.getD_some] at name arguments
      refine Action.holds_bind.mpr (holds_whenPresent_updateCall
        { fields with name := delta.name.getD fields.name }
        found name ?_ ?_ ?_)
      · intro absent
        rw [Option.map_eq_none_iff.mp absent]
        exact reads
      · intro value present
        obtain ⟨text, carried, rfl⟩ := Option.map_eq_some_iff.mp present
        rw [carried]
        exact reads.assign_function rfl rfl rfl
      · intro named reads
        refine holds_whenPresent_updateCall
          { fields with
            name := delta.name.getD fields.name
            arguments := fields.arguments ++ delta.arguments.getD "" }
          (getElem?_replaceCall found named) arguments ?_ ?_ ?_
        · intro absent
          rw [Option.map_eq_none_iff.mp absent, Option.getD_none,
            String.append_empty]
          exact reads
        · intro value present
          obtain ⟨text, carried, rfl⟩ := Option.map_eq_some_iff.mp present
          rw [carried]
          exact reads.append_arguments text
        · intro updated reads
          rw [replaceCall_replaceCall]
          exact continues updated reads

/-- A change contributes its delta to the entry at its index. -/
theorem holds_applyChange
    {change : Json} {delta : CallDelta} (encodes : EncodesCall change delta)
    (found : (padParts parts delta.index).calls[delta.index]? = some entry)
    (reads : Reads entry fields)
    (continues : ∀ updated, Reads updated (fields.add delta) →
      post (.ok ⟨⟩)
        (replaceCall (padParts parts delta.index) delta.index updated)
        state) :
    Action.Holds world allowed post (applyChange change) parts state := by
  unfold applyChange
  rw [encodes.index]
  change Action.Holds world allowed post (_ >>= fun _ => _)
    (padParts parts delta.index) state
  refine Action.holds_bind.mpr (holds_whenPresent_updateCall
    { fields with id := delta.id.getD fields.id } found encodes.id ?_ ?_ ?_)
  · intro absent
    rw [Option.map_eq_none_iff.mp absent]
    exact reads
  · intro value present
    obtain ⟨text, carried, rfl⟩ := Option.map_eq_some_iff.mp present
    rw [carried]
    exact reads.assign_id text
  · intro identified reads
    refine Action.holds_bind.mpr (holds_whenPresent_updateCall
      { fields with id := delta.id.getD fields.id }
      (getElem?_replaceCall found identified) rfl (fun _ => reads) ?_ ?_)
    · intro value _
      exact reads.assign_other value (by decide) (by decide)
    · intro typed reads
      rw [replaceCall_replaceCall]
      refine holds_applyFunction encodes (getElem?_replaceCall found typed)
        reads ?_
      intro updated reads
      rw [replaceCall_replaceCall]
      exact continues updated reads

end Changes

/-! ## The accumulated array -/

/--
The invariant of the array: it reaches as far as the largest index, and every
entry reads as what the deltas have contributed to its index.
-/
structure Accumulates (deltas : List CallDelta) (entries : List Json) :
    Prop where
  reach : ∀ index, index < entries.length ↔
    ∃ delta ∈ deltas, index ≤ delta.index
  reads : ∀ index entry, entries[index]? = some entry →
    Reads entry (fieldsAt deltas index)

theorem accumulates_nil : Accumulates [] [] where
  reach := by simp
  reads := by simp

theorem length_padCalls (entries : List Json) (index : Nat) :
    (padCalls entries index).length = max entries.length (index + 1) := by
  rw [padCalls, List.length_append, List.length_replicate]
  omega

/-- A new entry is empty, as are the fields of an unaddressed index. -/
theorem Accumulates.reads_padCalls
    {deltas : List CallDelta} {entries : List Json}
    (accumulates : Accumulates deltas entries) (last : Nat) :
    ∀ index entry, (padCalls entries last)[index]? = some entry →
      Reads entry (fieldsAt deltas index) := by
  intro index entry found
  by_cases old : index < entries.length
  · rw [padCalls, List.getElem?_append_left old] at found
    exact accumulates.reads index entry found
  · rw [padCalls, List.getElem?_append_right (Nat.le_of_not_lt old)] at found
    have empty := List.eq_of_mem_replicate (List.mem_of_getElem? found)
    rw [empty, fieldsAt_eq_empty]
    · exact reads_emptyCall
    · rintro delta member rfl
      exact old ((accumulates.reach delta.index).mpr ⟨delta, member, Nat.le_refl _⟩)

/-- The entry at the index of a delta exists once the array is padded. -/
theorem exists_padCalls (entries : List Json) (index : Nat) :
    ∃ entry, (padCalls entries index)[index]? = some entry := by
  have inside : index < (padCalls entries index).length := by
    rw [length_padCalls]
    omega
  exact ⟨_, List.getElem?_eq_getElem inside⟩

/-- Replacing the addressed entry accounts for one more delta. -/
theorem Accumulates.add
    {deltas : List CallDelta} {entries : List Json} {delta : CallDelta}
    {updated : Json} (accumulates : Accumulates deltas entries)
    (reads : Reads updated ((fieldsAt deltas delta.index).add delta)) :
    Accumulates (deltas ++ [delta])
      ((padCalls entries delta.index).set delta.index updated) where
  reach := by
    intro index
    have padded : index < max entries.length (delta.index + 1) ↔
        index < entries.length ∨ index ≤ delta.index := by omega
    rw [List.length_set, length_padCalls, padded, accumulates.reach index]
    simp [or_and_right, exists_or]
  reads := by
    intro index entry found
    rw [fieldsAt_append_singleton]
    by_cases same : delta.index = index
    · subst same
      rw [List.getElem?_set_self'] at found
      obtain ⟨earlier, -, rfl⟩ := Option.map_eq_some_iff.mp found
      rw [if_pos rfl]
      exact reads
    · rw [List.getElem?_set_ne same] at found
      rw [if_neg same]
      exact accumulates.reads_padCalls delta.index index entry found

/-! ## Packets -/

/-- The deltas of a sequence of packets. -/
def deltasOf (packets : List PacketDelta) : List CallDelta :=
  packets.flatMap PacketDelta.calls

/-- The text of a sequence of packets. -/
def textOf (packets : List PacketDelta) : String :=
  String.join (packets.filterMap PacketDelta.content)

/-- The parts of a turn after a sequence of packets. -/
structure Decoded (packets : List PacketDelta) (parts : TurnParts) :
    Prop where
  text : parts.text = textOf packets
  calls : Accumulates (deltasOf packets) parts.calls

/-- A packet without an error that carries one delta, or none. -/
inductive EncodesPacket : Json → PacketDelta → Prop where
  | delta {packet first : Json} {rest : List Json}
      {members : List (String × Json)} {carried : PacketDelta}
      (noError : packet.find? "error" = none)
      (choices : packet.find? "choices" = some (.array (first :: rest)))
      (delta : first.find? "delta" = some (.object members))
      (content : OrderedMap.find? "content" members =
          carried.content.map Json.string ∨
        carried.content = none ∧
          OrderedMap.find? "content" members = some .null)
      (calls : ∃ changes,
        ((Json.object members).find? "tool_calls").getD (.array []) =
          .array changes ∧
        List.Forall₂ EncodesCall changes carried.calls) :
      EncodesPacket packet carried
  | other {members : List (String × Json)}
      (noError : OrderedMap.find? "error" members = none)
      (noChoices : OrderedMap.find? "choices" members = none) :
      EncodesPacket (.object members) {}

theorem EncodesPacket.isObject
    {packet : Json} {carried : PacketDelta}
    (encodes : EncodesPacket packet carried) :
    ∃ members, packet = .object members := by
  cases encodes with
  | delta _ choices _ _ _ => exact exists_members choices
  | other _ _ => exact ⟨_, rfl⟩

theorem EncodesPacket.noError
    {packet : Json} {carried : PacketDelta}
    (encodes : EncodesPacket packet carried) :
    packet.contains "error" = false := by
  rw [Json.contains]
  cases encodes with
  | delta noError _ _ _ _ => rw [noError]; rfl
  | other noError _ => rw [Json.find?_object, noError]; rfl

theorem deltasOf_append (first second : List PacketDelta) :
    deltasOf (first ++ second) = deltasOf first ++ deltasOf second :=
  List.flatMap_append

theorem textOf_append (first second : List PacketDelta) :
    textOf (first ++ second) = textOf first ++ textOf second := by
  rw [textOf, List.filterMap_append, String.join_append]
  rfl

theorem textOf_singleton (packet : PacketDelta) :
    textOf [packet] = packet.content.getD "" := by
  rcases packet with ⟨content, calls⟩
  cases content <;> simp [textOf]

theorem decoded_nil : Decoded [] {} where
  text := rfl
  calls := accumulates_nil

section Walks

variable {signature : Signature} {State : Type}
  {world : World signature State} {allowed : State → signature.Op → Prop}
  {post : Except Exception Unit → TurnParts → State → Prop}
  {parts : TurnParts} {state : State}
  {onText : TextStreamCallback signature}

/-- The walk over the changes of one delta. -/
theorem holds_visitAll_applyChange
    {changes : List Json} {carried earlier : List CallDelta}
    (encodes : List.Forall₂ EncodesCall changes carried)
    (accumulates : Accumulates earlier parts.calls)
    (continues : ∀ entries, Accumulates (earlier ++ carried) entries →
      post (.ok ()) { parts with calls := entries } state) :
    Action.Holds world allowed post (visitAll applyChange changes) parts
      state := by
  induction encodes generalizing earlier parts with
  | nil =>
      rw [List.append_nil] at continues
      exact continues parts.calls accumulates
  | @cons change delta changes carried encodes _ induction =>
      obtain ⟨entry, found⟩ := exists_padCalls parts.calls delta.index
      refine Action.holds_bind.mpr (holds_applyChange encodes found
        (accumulates.reads_padCalls delta.index delta.index entry found) ?_)
      intro updated reads
      refine induction (accumulates.add reads) ?_
      intro entries accumulates
      rw [List.append_assoc] at accumulates
      exact continues entries accumulates

/-- The callback for text returns and is permitted. -/
def TextReturns (world : World signature State)
    (allowed : State → signature.Op → Prop)
    (onText : TextStreamCallback signature) : Prop :=
  ∀ text (parts : TurnParts) state
    (post : Except Exception Unit → TurnParts → State → Prop),
    (∀ after, post (.ok ()) parts after) →
      Action.Holds world allowed post (notify onText text) parts state

/-- The text of a delta is added to the turn and shown. -/
theorem holds_applyContent
    {members : List (String × Json)} {content : Option String}
    (returns : TextReturns world allowed onText)
    (carried : OrderedMap.find? "content" members =
        content.map Json.string ∨
      content = none ∧ OrderedMap.find? "content" members = some .null)
    (continues : ∀ after, post (.ok ())
      { parts with text := parts.text ++ content.getD "" } after) :
    Action.Holds world allowed post (applyContent onText (.object members))
      parts state := by
  unfold applyContent
  rw [Json.find?_object]
  rcases carried with carried | ⟨rfl, carried⟩
  · rw [carried]
    cases content with
    | none => simpa using continues state
    | some text => exact returns text _ state post continues
  · rw [carried]
    simpa using continues state

theorem valueOr_object
    (members : List (String × Json)) (key : String) (fallback : Json) :
    (Json.object members).valueOr Except.ok key fallback =
      .ok (((Json.object members).find? key).getD fallback) := by
  rw [Json.valueOr, Json.find?_object]
  cases OrderedMap.find? key members <;> rfl

/-- A packet contributes what it carries. -/
theorem holds_applyPacket
    {packet : Json} {carried : PacketDelta} {earlier : List PacketDelta}
    (returns : TextReturns world allowed onText)
    (encodes : EncodesPacket packet carried)
    (decoded : Decoded earlier parts)
    (continues : ∀ parts after, Decoded (earlier ++ [carried]) parts →
      post (.ok ()) parts after) :
    Action.Holds world allowed post (applyPacket onText packet) parts
      state := by
  unfold applyPacket
  cases encodes with
  | delta _ choices delta content calls =>
      obtain ⟨changes, listed, encoded⟩ := calls
      rw [delta?, choices]
      simp only [delta]
      refine Action.holds_bind.mpr (holds_applyContent returns content ?_)
      intro shown
      simp only
      rw [valueOr_object, listed]
      refine holds_visitAll_applyChange encoded decoded.calls ?_
      intro entries accumulates
      refine continues _ _ ⟨?_, ?_⟩
      · rw [textOf_append, ← decoded.text, textOf_singleton]
      · rw [deltasOf_append]
        simpa [deltasOf] using accumulates
  | other _ noChoices =>
      rw [delta?, Json.find?_object, noChoices]
      refine continues _ _ ⟨?_, ?_⟩
      · rw [textOf_append, ← decoded.text, textOf_singleton]
        exact (String.append_empty).symm
      · rw [deltasOf_append]
        simpa [deltasOf] using decoded.calls

/-- The walk over the packets of one event. -/
theorem holds_visitAll_packets
    {visit : Json → Walk signature} {items : List Json}
    {carried earlier : List PacketDelta}
    (returns : TextReturns world allowed onText)
    (visits : ∀ packet delta, EncodesPacket packet delta →
      visit packet = applyPacket onText packet)
    (encodes : List.Forall₂ EncodesPacket items carried)
    (decoded : Decoded earlier parts)
    (continues : ∀ parts after, Decoded (earlier ++ carried) parts →
      post (.ok ()) parts after) :
    Action.Holds world allowed post (visitAll visit items) parts state := by
  induction encodes generalizing earlier parts state with
  | nil =>
      rw [List.append_nil] at continues
      exact continues parts state decoded
  | @cons packet delta items carried encodes _ induction =>
      unfold visitAll
      rw [visits packet delta encodes]
      refine Action.holds_bind.mpr
        (holds_applyPacket returns encodes decoded ?_)
      intro parts after decoded
      refine induction decoded ?_
      intro parts after decoded
      rw [List.append_assoc] at decoded
      exact continues parts after decoded

end Walks

/-! ## Complete answers -/

/-- A call as it is encoded: its arguments are sent as JSON text. -/
structure EncodedCall where
  id : String
  name : String
  text : String
  arguments : Json

/-- The fields of an encoded call. -/
def EncodedCall.fields (call : EncodedCall) : CallFields where
  id := call.id
  name := call.name
  arguments := call.text

/--
The deltas of an index encode a call: some delta carries its id and some its
name, none carries another one, and the fragments make up the argument text.
-/
structure CallEncoded (deltas : List CallDelta) (index : Nat)
    (call : EncodedCall) : Prop where
  id : ∃ delta ∈ deltas, delta.index = index ∧ delta.id = some call.id
  name : ∃ delta ∈ deltas, delta.index = index ∧ delta.name = some call.name
  sameId : ∀ delta ∈ deltas, delta.index = index →
    ∀ id, delta.id = some id → id = call.id
  sameName : ∀ delta ∈ deltas, delta.index = index →
    ∀ name, delta.name = some name → name = call.name
  fragments : String.join
    ((deltas.filter fun delta => delta.index = index).filterMap
      CallDelta.arguments) = call.text

/-- The packets encode a text and a list of calls. -/
structure AnswerEncoded (packets : List PacketDelta) (text : String)
    (calls : List EncodedCall) : Prop where
  text : textOf packets = text
  addressed : ∀ delta ∈ deltasOf packets, delta.index < calls.length
  calls : ∀ index call, calls[index]? = some call →
    CallEncoded (deltasOf packets) index call

/-- The last of several equal values is that value. -/
theorem foldl_getD_eq
    {values : List (Option String)} {value initial : String}
    (same : ∀ carried ∈ values, ∀ other, carried = some other → other = value)
    (present : initial = value ∨ some value ∈ values) :
    values.foldl (fun current carried => carried.getD current) initial =
      value := by
  induction values generalizing initial with
  | nil => simpa using present
  | cons carried values induction =>
      obtain ⟨first, rest⟩ := List.forall_mem_cons.mp same
      refine induction rest ?_
      cases carried with
      | none => simpa using present
      | some other => exact Or.inl (first other rfl)

theorem foldl_append_eq
    (fragments : List (Option String)) (initial : String) :
    fragments.foldl (fun text fragment => text ++ fragment.getD "") initial =
      initial ++ String.join (fragments.filterMap id) := by
  induction fragments generalizing initial with
  | nil => simp
  | cons fragment fragments induction =>
      rw [List.foldl_cons, induction]
      cases fragment with
      | none => simp
      | some text => simp [String.append_assoc]

/-- Each field is accumulated on its own. -/
theorem foldl_add
    (deltas : List CallDelta) (fields : CallFields) :
    deltas.foldl CallFields.add fields =
      { id := (deltas.map CallDelta.id).foldl
          (fun current carried => carried.getD current) fields.id
        name := (deltas.map CallDelta.name).foldl
          (fun current carried => carried.getD current) fields.name
        arguments := (deltas.map CallDelta.arguments).foldl
          (fun text fragment => text ++ fragment.getD "")
          fields.arguments } := by
  induction deltas generalizing fields with
  | nil => rfl
  | cons delta deltas induction => exact induction (fields.add delta)

/-- The deltas of an encoded call add up to its fields. -/
theorem fieldsAt_of_callEncoded
    {deltas : List CallDelta} {index : Nat} {call : EncodedCall}
    (encoded : CallEncoded deltas index call) :
    fieldsAt deltas index = call.fields := by
  rw [fieldsAt, foldl_add, EncodedCall.fields]
  congr 1
  · apply foldl_getD_eq
    · intro carried member id isId
      obtain ⟨delta, kept, rfl⟩ := List.mem_map.mp member
      obtain ⟨present, same⟩ := List.mem_filter.mp kept
      exact encoded.sameId delta present (by simpa using same) id isId
    · obtain ⟨delta, present, same, isId⟩ := encoded.id
      right
      exact List.mem_map.mpr
        ⟨delta, List.mem_filter.mpr ⟨present, by simpa using same⟩, isId⟩
  · apply foldl_getD_eq
    · intro carried member name isName
      obtain ⟨delta, kept, rfl⟩ := List.mem_map.mp member
      obtain ⟨present, same⟩ := List.mem_filter.mp kept
      exact encoded.sameName delta present (by simpa using same) name isName
    · obtain ⟨delta, present, same, isName⟩ := encoded.name
      right
      exact List.mem_map.mpr
        ⟨delta, List.mem_filter.mpr ⟨present, by simpa using same⟩, isName⟩
  · rw [foldl_append_eq, List.filterMap_map, Function.id_comp,
      encoded.fragments]
    exact String.empty_append

/-- The accumulated array has one entry for every encoded call. -/
theorem Decoded.entries
    {packets : List PacketDelta} {parts : TurnParts} {text : String}
    {calls : List EncodedCall} (decoded : Decoded packets parts)
    (encoded : AnswerEncoded packets text calls) :
    List.Forall₂ (fun entry call => Reads entry call.fields) parts.calls
      calls := by
  have sameLength : parts.calls.length = calls.length := by
    apply Nat.le_antisymm
    · apply Nat.le_of_not_lt
      intro longer
      obtain ⟨delta, member, reached⟩ :=
        (decoded.calls.reach calls.length).mp longer
      exact absurd (encoded.addressed delta member) (Nat.not_lt.mpr reached)
    · apply Nat.le_of_not_lt
      intro shorter
      obtain ⟨delta, member, same, -⟩ :=
        (encoded.calls parts.calls.length _
          (List.getElem?_eq_getElem shorter)).id
      exact absurd
        ((decoded.calls.reach _).mpr ⟨delta, member, Nat.le_of_eq same.symm⟩)
        (Nat.lt_irrefl _)
  rw [List.forall₂_iff_get]
  refine ⟨sameLength, ?_⟩
  intro index inside _
  rw [List.get_eq_getElem, List.get_eq_getElem,
    ← fieldsAt_of_callEncoded (encoded.calls index _
      (List.getElem?_eq_getElem (sameLength ▸ inside)))]
  exact decoded.calls.reads index _ (List.getElem?_eq_getElem inside)

end ArnCore.Provider.CallDeltas
