import ArnCore.Provider.MalformedEvents

/-!
# Which updates are performed

A walk over an event performs its updates up to the first malformed one, or up
to the text whose callback throws.  The answers of the callback, as they stand
in the history of the walk, decide which updates these are and which
well-formed ones are skipped behind them.
-/

namespace ArnCore.Provider.PerformedUpdates

open ArnCore.Agent.Environment
open ArnCore.Interaction
open ArnCore.Provider.BuiltInTurn
open ArnCore.Provider.CallEntries
open ArnCore.Provider.ChatStream
open ArnCore.Provider.MalformedEvents
open ArnCore.Provider.StreamUpdates

/-- The first event is a callback for text that threw. -/
def textThrew : List AgentEvent → Bool
  | ⟨.onText _, .error _⟩ :: _ => true
  | _ => false

/-- The updates that are performed before a walk ends. -/
def performed : List Update → List AgentEvent → List Update
  | [], _ => []
  | update :: updates, history =>
      if isMalformed update then
        []
      else if (contentText? update).isSome then
        update :: if textThrew history then [] else performed updates history.tail
      else
        update :: performed updates history

/-- The well-formed updates behind a text whose callback threw. -/
def skipped : List Update → List AgentEvent → List Update
  | [], _ => []
  | update :: updates, history =>
      if isMalformed update then
        []
      else if (contentText? update).isSome then
        if textThrew history then updatesBefore updates
        else skipped updates history.tail
      else
        skipped updates history

theorem updatesBefore_cons (update : Update) (updates : List Update) :
    updatesBefore (update :: updates) =
      if isMalformed update then [] else update :: updatesBefore updates := by
  cases broken : isMalformed update with
  | true => simp [updatesBefore, broken]
  | false => simp [updatesBefore, broken]

/-- Together they are the updates of a walk without a callback. -/
theorem performed_append_skipped
    (updates : List Update) (history : List AgentEvent) :
    performed updates history ++ skipped updates history =
      updatesBefore updates := by
  induction updates generalizing history with
  | nil => rfl
  | cons update updates induction =>
      rw [performed, skipped, updatesBefore_cons]
      split_ifs
      · rfl
      · rfl
      · rw [List.cons_append, induction]
      · rw [List.cons_append, induction]

theorem skipped_nil (updates : List Update) : skipped updates [] = [] := by
  induction updates with
  | nil => rfl
  | cons update updates induction =>
      rw [skipped, List.tail_nil, induction]
      simp [textThrew]

theorem performed_nil (updates : List Update) :
    performed updates [] = updatesBefore updates := by
  rw [← performed_append_skipped updates [], skipped_nil, List.append_nil]

/-! ## Walks -/

section Walks

variable {text : Bool} {parts after : TurnParts} {history : List AgentEvent}
  {outcome : Except Exception Unit} {entries : List CallEntry}
  {update : Update} {updates : List Update}

/-- A text is added, and its callback decides how the step ends. -/
theorem finishes_perform_of_content
    {chunk : String} (content : contentText? update = some chunk)
    (run : Action.Finishes (perform (hostText true) update) parts history
      outcome after) :
    history = [⟨.onText chunk, outcome⟩] := by
  obtain rfl := contentText?_eq_some content
  obtain ⟨⟨answer, later, rfl, rfl, rfl⟩, -⟩ := Action.finishes_ofHost.mp
    (Action.finishes_modify_bind.mp (Action.finishes_ofExcept_bind.mp run))
  rfl

/-- The parts of a turn after some updates. -/
def partsAfter (parts : TurnParts) (entries : List CallEntry)
    (updates : List Update) : TurnParts :=
  updated parts (some (addedText updates)) (updates.foldl entriesStep entries)

theorem partsAfter_nil (stands : Stands parts entries) :
    partsAfter parts entries [] = parts :=
  (updated_eq_iff stands).mpr ⟨rfl, rfl⟩

theorem partsAfter_cons :
    partsAfter parts entries (update :: updates) =
      partsAfter
        (updated parts (contentText? update) (entriesStep entries update))
        (entriesStep entries update) updates := by
  rw [partsAfter, partsAfter, updated_updated, addedText_cons, List.foldl_cons]

theorem partsAfter_append (first second : List Update) :
    partsAfter parts entries (first ++ second) =
      partsAfter (partsAfter parts entries first)
        (first.foldl entriesStep entries) second := by
  have added : addedText (first ++ second) =
      addedText first ++ addedText second := by
    rw [addedText, List.filterMap_append, String.join_append]
    rfl
  rw [partsAfter, partsAfter, partsAfter, updated_updated, added,
    List.foldl_append]
  rfl

/-- What a well-formed step says to the callback for text. -/
def AnsweredText (text : Bool) (update : Update) (history : List AgentEvent)
    (outcome : Except Exception Unit) : Prop :=
  if text && (contentText? update).isSome then
    ∃ chunk, history = [⟨.onText chunk, outcome⟩]
  else
    history = [] ∧ outcome = .ok ()

/-- A well-formed update is performed, and the next one after an answer. -/
theorem performed_cons_of_ok
    {first later : List AgentEvent} (fine : isMalformed update = false)
    (answered : AnsweredText text update first (.ok ()))
    (unheard : text = false → later = []) :
    performed (update :: updates) (first ++ later) =
      update :: performed updates later := by
  rw [performed, fine, if_neg (by simp)]
  rw [AnsweredText] at answered
  split_ifs at answered with shows
  · obtain ⟨chunk, rfl⟩ := answered
    rw [Bool.and_eq_true] at shows
    rw [if_pos shows.2]
    rfl
  · obtain ⟨rfl, -⟩ := answered
    rw [List.nil_append]
    by_cases shown : (contentText? update).isSome
    · have absent : text = false := by
        simpa [shown] using shows
      rw [if_pos shown, unheard absent]
      rfl
    · rw [if_neg shown]

/-- An update whose callback throws is the last one. -/
theorem performed_cons_of_error
    {failure : Exception} (fine : isMalformed update = false)
    (answered : AnsweredText text update history (.error failure)) :
    performed (update :: updates) history = [update] := by
  rw [performed, fine, if_neg (by simp)]
  rw [AnsweredText] at answered
  split_ifs at answered with shows
  · obtain ⟨chunk, rfl⟩ := answered
    rw [Bool.and_eq_true] at shows
    rw [if_pos shows.2]
    rfl
  · exact nomatch answered.2

/-- A step that is well formed, with what its callback answers. -/
theorem finishes_perform_answered
    (stands : Stands parts entries) (within : Within entries.length update)
    (fine : isMalformed update = false)
    (run : Action.Finishes (perform (hostText text) update) parts history
      outcome after) :
    after = updated parts (contentText? update) (entriesStep entries update) ∧
      AnsweredText text update history outcome := by
  obtain ⟨rfl, quiet⟩ := finishes_perform_of_fine stands within fine run
  refine ⟨rfl, ?_⟩
  rw [AnsweredText]
  split_ifs at quiet ⊢ with shows
  · rw [Bool.and_eq_true, Option.isSome_iff_exists] at shows
    obtain ⟨rfl, chunk, content⟩ := shows
    exact ⟨chunk, finishes_perform_of_content content run⟩
  · exact quiet

theorem AnsweredText.silent
    (answered : AnsweredText false update history outcome) : history = [] :=
  answered.1

/-- A walk leaves what its performed updates make of the parts. -/
theorem finishes_performAll
    (stands : Stands parts entries) (found : Padded entries.length updates)
    (run : Action.Finishes (performAll (hostText text) updates) parts history
      outcome after) :
    after = partsAfter parts entries (performed updates history) ∧
      (text = false → history = []) := by
  induction updates generalizing parts entries history with
  | nil =>
      obtain ⟨rfl, -, rfl⟩ := Action.finishes_pure.mp run
      exact ⟨(partsAfter_nil stands).symm, fun _ => rfl⟩
  | cons update updates induction =>
      cases broken : isMalformed update with
      | true =>
          rw [performed, broken, if_pos rfl, partsAfter_nil stands]
          obtain ⟨rfl, rfl⟩ := finishes_performAll_of_broken stands broken run
          exact ⟨rfl, fun _ => rfl⟩
      | false =>
          have rest := found.2
          rw [← length_entriesStep] at rest
          have next : Stands
              (updated parts (contentText? update) (entriesStep entries update))
              (entriesStep entries update) := rfl
          rcases Action.finishes_bind.mp run with
            ⟨failure, rfl, thrown⟩ |
            ⟨first, later, value, between, rfl, done, continued⟩
          · obtain ⟨rfl, answered⟩ :=
              finishes_perform_answered stands found.1 broken thrown
            rw [performed_cons_of_error broken answered, partsAfter_cons,
              partsAfter_nil next]
            refine ⟨rfl, ?_⟩
            rintro rfl
            exact answered.silent
          · obtain ⟨rfl, answered⟩ :=
              finishes_perform_answered stands found.1 broken done
            obtain ⟨ends, unheard⟩ := induction next rest continued
            rw [performed_cons_of_ok broken answered unheard, partsAfter_cons]
            refine ⟨ends, ?_⟩
            rintro rfl
            rw [answered.silent, unheard rfl]
            rfl

/-- The array reaches as far as it was padded. -/
theorem lt_length_foldl_iff
    {index : Nat} :
    index < (updates.foldl entriesStep entries).length ↔
      index < entries.length ∨ ∃ reached, .pad reached ∈ updates ∧
        index ≤ reached := by
  induction updates generalizing entries with
  | nil => simp
  | cons update updates induction =>
      have grows : index < max entries.length (padded update) ↔
          index < entries.length ∨ index < padded update := by omega
      have here : index < padded update ↔
          ∃ reached, .pad reached = update ∧ index ≤ reached := by
        cases update with
        | pad reached =>
            simp only [padded, Update.pad.injEq, exists_eq_left]
            exact Nat.lt_succ_iff
        | _ => simp [padded]
      rw [List.foldl_cons, induction, length_entriesStep, grows, or_assoc, here,
        ← exists_or]
      refine or_congr_right (exists_congr fun reached => ?_)
      rw [List.mem_cons, or_and_right]

end Walks

/-! ## Streams -/

/-- A sequence of events, each with what its callbacks answered. -/
inductive Parses (kind : BuiltIn) (json : JsonText) (text : Bool)
    (start : TurnParts) :
    List (String × List AgentEvent) → TurnParts → Prop where
  | start : Parses kind json text start [] start
  | event {heard : List (String × List AgentEvent)} {parts after : TurnParts}
      {event : String} {history : List AgentEvent}
      {outcome : Except Exception Unit}
      (parses : Parses kind json text start heard parts)
      (run : Action.Finishes (kind.parseStreamChunk json (hostText text) event)
        parts history outcome after) :
      Parses kind json text start (heard ++ [(event, history)]) after

section Streams

variable {provider : ChatProvider} {json : JsonText} {text : Bool}
  {start parts : TurnParts} {heard : List (String × List AgentEvent)}
  {entries : List CallEntry}

/-- The updates that a sequence of events performs. -/
def allPerformed (provider : ChatProvider) (json : JsonText)
    (heard : List (String × List AgentEvent)) : List Update :=
  heard.flatMap fun (event, history) =>
    performed (eventUpdates provider json event) history

theorem allPerformed_concat (event : String) (history : List AgentEvent) :
    allPerformed provider json (heard ++ [(event, history)]) =
      allPerformed provider json heard ++
        performed (eventUpdates provider json event) history := by
  rw [allPerformed, List.flatMap_append, List.flatMap_singleton]
  rfl

/-- A sequence of events leaves what its performed updates make of the parts. -/
theorem eq_partsAfter_of_parses
    (stands : Stands start entries)
    (parses : Parses (.chat provider) json text start heard parts) :
    parts = partsAfter start entries (allPerformed provider json heard) := by
  induction parses with
  | start => exact (partsAfter_nil stands).symm
  | @event heard parts after event history outcome parses run induction =>
      rw [BuiltIn.parseStreamChunk, parseStreamChunk_eq] at run
      obtain ⟨ended, walked⟩ := finishes_ignoreMalformed run
      have next : Stands parts
          ((allPerformed provider json heard).foldl entriesStep entries) := by
        rw [induction]
        rfl
      rw [(finishes_performAll next (padded_eventUpdates ..) walked).1,
        allPerformed_concat, partsAfter_append, ← induction]

end Streams

end ArnCore.Provider.PerformedUpdates
