import ArnCore.Provider.PerformedUpdates

/-!
# Entries that no delta addressed

A delta pads the array of tool calls up to its index.  The entries in between
stand for calls the model never made, unless other deltas of the stream address
them.
-/

namespace ArnCore.Provider.PaddedCalls

open ArnCore.Agent.Environment
open ArnCore.Interaction
open ArnCore.Provider.BuiltInTurn
open ArnCore.Provider.CallEntries
open ArnCore.Provider.ChatStream
open ArnCore.Provider.MalformedEvents
open ArnCore.Provider.PerformedUpdates
open ArnCore.Provider.StreamUpdates

/-! ## The deltas of a stream -/

/-- The tool-call deltas of a packet. -/
def packetChanges (packet : Json) : List Json :=
  match delta? packet with
  | none => []
  | some delta =>
      match delta.valueOr Except.ok "tool_calls" (.array []) with
      | .error _ => []
      | .ok changes => changes.elements

/-- The tool-call deltas of an event. -/
def eventChanges (provider : ChatProvider) (json : JsonText)
    (event : String) : List Json :=
  if event = "[DONE]" then
    []
  else
    match json.parse event with
    | .error _ => []
    | .ok parsed => (visitedPackets provider parsed).flatMap packetChanges

/-- The tool-call deltas of a stream. -/
def streamChanges (provider : ChatProvider) (json : JsonText)
    (heard : List (String × List AgentEvent)) : List Json :=
  heard.flatMap fun (event, _) => eventChanges provider json event

/-- `change.value("index", 0U)` -/
def changeIndex? (change : Json) : Option Nat :=
  (change.valueOr Json.getUnsigned "index" 0).toOption

/-- A delta of the stream has the index. -/
def Addressed (provider : ChatProvider) (json : JsonText)
    (heard : List (String × List AgentEvent)) (index : Nat) : Prop :=
  ∃ change ∈ streamChanges provider json heard, changeIndex? change = some index

/-- The parser came as far as a delta with the index. -/
def Reached (provider : ChatProvider) (json : JsonText)
    (heard : List (String × List AgentEvent)) (index : Nat) : Prop :=
  .pad index ∈ allPerformed provider json heard

section Padding

variable {index : Nat} {change packet : Json} {provider : ChatProvider}
  {json : JsonText} {event : String} {history : List AgentEvent}
  {heard : List (String × List AgentEvent)}

theorem pad_not_mem_present
    {value : Json} {key : String} {updates : Json → List Update}
    (none : ∀ found, .pad index ∉ updates found) :
    .pad index ∉ presentUpdates value key updates := by
  unfold presentUpdates
  cases value.find? key with
  | none => exact List.not_mem_nil
  | some found => exact none found

/-- A delta pads the array up to its own index. -/
theorem changeIndex_of_pad (member : .pad index ∈ changeUpdates change) :
    changeIndex? change = some index := by
  unfold changeUpdates at member
  unfold changeIndex?
  cases read : change.valueOr Json.getUnsigned "index" 0 with
  | error failure => simp [read] at member
  | ok reached =>
      simp only [read, List.mem_append] at member
      rcases member with own | changed | changed | changed
      · cases List.mem_singleton.mp own
        rfl
      · exact absurd changed (pad_not_mem_present fun id => by simp)
      · exact absurd changed (pad_not_mem_present fun type => by simp)
      · refine absurd changed (pad_not_mem_present fun function => ?_)
        rw [List.mem_append, not_or]
        constructor
        · exact pad_not_mem_present fun name => by simp
        · exact pad_not_mem_present fun text => by simp

theorem changes_of_pad_packet (member : .pad index ∈ packetUpdates packet) :
    ∃ change ∈ packetChanges packet, changeIndex? change = some index := by
  unfold packetUpdates at member
  unfold packetChanges
  cases found : delta? packet with
  | none => simp [found] at member
  | some delta =>
      simp only [found, List.mem_append] at member ⊢
      rcases member with content | changed
      · unfold contentUpdates at content
        split at content <;> simp at content
      · cases read : delta.valueOr Except.ok "tool_calls" (.array []) with
        | error failure => simp [read] at changed
        | ok changes =>
            simp only [read, List.mem_flatMap] at changed
            obtain ⟨change, inChanges, pads⟩ := changed
            exact ⟨change, inChanges, changeIndex_of_pad pads⟩

theorem changes_of_pad_event
    (member : .pad index ∈ eventUpdates provider json event) :
    ∃ change ∈ eventChanges provider json event,
      changeIndex? change = some index := by
  unfold eventUpdates at member
  unfold eventChanges
  split_ifs at member ⊢ with done
  · cases member
  · cases parsed : json.parse event with
    | error failure => simp [parsed] at member
    | ok value =>
        simp only [parsed, List.mem_flatMap] at member ⊢
        obtain ⟨packet, visited, pads⟩ := member
        obtain ⟨change, inChanges, isIndex⟩ := changes_of_pad_packet pads
        exact ⟨change, ⟨packet, visited, inChanges⟩, isIndex⟩

/-- What is performed is an update of the event. -/
theorem mem_of_mem_performed
    {update : Update} {updates : List Update}
    (member : update ∈ performed updates history) : update ∈ updates := by
  have before : update ∈ updatesBefore updates := by
    rw [← performed_append_skipped updates history]
    exact List.mem_append_left _ member
  exact List.takeWhile_subset _ before

/-- The index of a delta that was reached is an index of the stream. -/
theorem Reached.addressed (reached : Reached provider json heard index) :
    Addressed provider json heard index := by
  obtain ⟨⟨event, history⟩, isHeard, member⟩ := List.mem_flatMap.mp reached
  obtain ⟨change, inChanges, isIndex⟩ :=
    changes_of_pad_event (mem_of_mem_performed member)
  exact ⟨change, List.mem_flatMap.mpr ⟨(event, history), isHeard, inChanges⟩,
    isIndex⟩

end Padding

/-! ## Whole streams -/

section Streams

variable {provider : ChatProvider} {json : JsonText} {text : Bool}
  {start parts : TurnParts} {heard : List (String × List AgentEvent)}

/-- Every entry stands for a delta, and so does every call that is read. -/
structure NothingInvented (provider : ChatProvider) (json : JsonText)
    (heard : List (String × List AgentEvent)) (parts : TurnParts) : Prop where
  entries : ∀ index < parts.calls.length, Addressed provider json heard index
  count : parts.calls.length ≤ (streamChanges provider json heard).length
  calls : ∀ calls, BuiltIn.readCalls (.chat provider) json parts = .ok calls →
    calls.length ≤ (streamChanges provider json heard).length

theorem length_of_mapM
    {Value Result Failure : Type} {read : Value → Except Failure Result}
    {values : List Value} {results : List Result}
    (all : values.mapM read = .ok results) :
    results.length = values.length := by
  induction values generalizing results with
  | nil =>
      cases all
      rfl
  | cons value values induction =>
      rw [List.mapM_cons] at all
      cases first : read value with
      | error failure =>
          rw [first] at all
          cases all
      | ok result =>
          cases rest : values.mapM read with
          | error failure =>
              rw [first, rest] at all
              cases all
          | ok others =>
              rw [first, rest] at all
              cases all
              rw [List.length_cons, List.length_cons, induction rest]

/-- As many different indices need as many deltas. -/
theorem le_length_of_addressed
    {count : Nat}
    (addressed : ∀ index < count, Addressed provider json heard index) :
    count ≤ (streamChanges provider json heard).length := by
  have inside : List.range count ⊆
      (streamChanges provider json heard).filterMap changeIndex? := by
    intro index member
    exact List.mem_filterMap.mpr (addressed index (List.mem_range.mp member))
  calc
    count = (List.range count).length := List.length_range.symm
    _ ≤ ((streamChanges provider json heard).filterMap changeIndex?).length :=
      List.Nodup.length_le_of_subset List.nodup_range inside
    _ ≤ (streamChanges provider json heard).length :=
      List.length_filterMap_le ..

/-- The array ends behind the largest index that was reached. -/
theorem lt_length_calls_iff
    (empty : start.calls = [])
    (parses : Parses (.chat provider) json text start heard parts)
    {index : Nat} :
    index < parts.calls.length ↔
      ∃ reached, Reached provider json heard reached ∧ index ≤ reached := by
  have stands : Stands start [] := empty
  rw [eq_partsAfter_of_parses stands parses, partsAfter, updated,
    List.length_map, lt_length_foldl_iff]
  simp [Reached]

/--
No call is invented exactly when the deltas of the stream leave no gap below an
index the parser reached.
-/
theorem nothing_invented_iff
    (empty : start.calls = [])
    (parses : Parses (.chat provider) json text start heard parts) :
    NothingInvented provider json heard parts ↔
      ∀ reached, Reached provider json heard reached →
        ∀ index < reached, Addressed provider json heard index := by
  constructor
  · intro nothing reached isReached index below
    exact nothing.entries index
      ((lt_length_calls_iff empty parses).mpr ⟨reached, isReached, below.le⟩)
  · intro dense
    have addressed : ∀ index < parts.calls.length,
        Addressed provider json heard index := by
      intro index inside
      obtain ⟨reached, isReached, below⟩ :=
        (lt_length_calls_iff empty parses).mp inside
      rcases below.eq_or_lt with rfl | below
      · exact isReached.addressed
      · exact dense reached isReached index below
    have count := le_length_of_addressed addressed
    refine ⟨addressed, count, ?_⟩
    intro calls read
    rw [length_of_mapM read]
    exact count

end Streams

/-! ## A sparse index -/

/-- A delta whose index leaves a gap. -/
def sparseEvent : String :=
  "\x7b\"choices\":[\x7b\"delta\":\x7b\"tool_calls\":[\x7b\"index\":5\x7d]\x7d\x7d]\x7d"

/-- Two deltas without a gap. -/
def denseEvent : String :=
  "\x7b\"choices\":[\x7b\"delta\":\x7b\"tool_calls\":[\x7b\"index\":0\x7d,"
    ++ "\x7b\"index\":1\x7d]\x7d\x7d]\x7d"

/-- A text library that knows the two events. -/
def knownSparse : JsonText :=
  .knowing
    [⟨sparseEvent,
        .object
          [("choices", .array [.object
            [("delta", .object
              [("tool_calls", .array [.object [("index", .integer 5)]])])]])],
        by decide +kernel⟩,
      ⟨denseEvent,
        .object
          [("choices", .array [.object
            [("delta", .object
              [("tool_calls", .array
                [.object [("index", .integer 0)],
                  .object [("index", .integer 1)]])])]])],
        by decide +kernel⟩]

/-- The entries the event leaves behind. -/
def sixCalls : TurnParts :=
  { calls := List.replicate 6 emptyCall }

theorem finishes_sparseEvent :
    Action.Finishes
      (BuiltIn.parseStreamChunk (.chat .deepSeek) knownSparse
        (hostText false) sparseEvent)
      {} [] (.ok ()) sixCalls := by
  exact ⟨rfl, rfl⟩

theorem parses_sparseEvent :
    Parses (.chat .deepSeek) knownSparse false {} [(sparseEvent, [])]
      sixCalls :=
  .event .start finishes_sparseEvent

/-- Six calls from one delta. -/
theorem sparse_index_invents_calls :
    ¬ ∀ (provider : ChatProvider) (json : JsonText) (text : Bool)
        (start parts : TurnParts) (heard : List (String × List AgentEvent)),
      start.calls = [] →
      Parses (.chat provider) json text start heard parts →
      NothingInvented provider json heard parts := by
  intro holds
  have count := (holds _ _ _ _ _ _ rfl parses_sparseEvent).count
  exact absurd count (by decide +kernel)

def twoEmptyCalls : TurnParts :=
  { calls := List.replicate 2 emptyCall }

theorem parses_denseEvent :
    Parses (.chat .deepSeek) knownSparse false {} [(denseEvent, [])]
      twoEmptyCalls :=
  .event .start ⟨rfl, rfl⟩

/-- No index in front of the larger one is missing. -/
theorem addressed_denseEvent
    {reached index : Nat}
    (isReached : Reached .deepSeek knownSparse [(denseEvent, [])] reached)
    (below : index < reached) :
    Addressed .deepSeek knownSparse [(denseEvent, [])] index := by
  have bounded :
      (allPerformed .deepSeek knownSparse [(denseEvent, [])]).all
        (fun update => decide (padded update ≤ 2)) = true := by
    decide +kernel
  have small : reached + 1 ≤ 2 :=
    of_decide_eq_true (List.all_eq_true.mp bounded _ isReached)
  obtain rfl : index = 0 := by omega
  have first :
      (streamChanges .deepSeek knownSparse [(denseEvent, [])]).any
        (fun change => decide (changeIndex? change = some 0)) = true := by
    decide +kernel
  obtain ⟨change, member, same⟩ := List.any_eq_true.mp first
  exact ⟨change, member, of_decide_eq_true same⟩

/-- The indices below the sparse one are missing; the dense ones are not. -/
theorem nothing_invented_iff_sparse :
    (NothingInvented .deepSeek knownSparse [(sparseEvent, [])] sixCalls ↔
      ∀ reached, Reached .deepSeek knownSparse [(sparseEvent, [])] reached →
        ∀ index < reached,
          Addressed .deepSeek knownSparse [(sparseEvent, [])] index) ∧
      NothingInvented .deepSeek knownSparse [(denseEvent, [])]
        twoEmptyCalls :=
  ⟨nothing_invented_iff rfl parses_sparseEvent,
    (nothing_invented_iff rfl parses_denseEvent).mpr
      fun _ isReached _ below => addressed_denseEvent isReached below⟩

end ArnCore.Provider.PaddedCalls
