import ArnCore.Provider.PerformedUpdates

/-!
# What a text callback changes

A stream-chunk parser catches an exception of its text callback together with
malformed data, and skips the rest of the event.  A turn is decoded as without
a callback exactly when nothing new stands in the rest that is skipped.
-/

namespace ArnCore.Provider.TextCallback

open ArnCore.Agent.Environment
open ArnCore.Interaction
open ArnCore.Provider.BuiltInTurn
open ArnCore.Provider.CallEntries
open ArnCore.Provider.ChatStream
open ArnCore.Provider.MalformedEvents
open ArnCore.Provider.PerformedUpdates
open ArnCore.Provider.StreamUpdates

/-! ## Updates that repeat earlier ones -/

/--
After the earlier updates, the later ones change nothing: they add no text, pad
nothing, append nothing, and assign the values that are there.
-/
structure Repeats (calls : List Json) (earlier later : List Update) :
    Prop where
  contents : ∀ chunk, .content (.string chunk) ∈ later → chunk = ""
  pads : ∀ index, .pad index ∈ later →
    index < calls.length ∨ ∃ reached, .pad reached ∈ earlier ∧ index ≤ reached
  fragments : ∀ index fragment, .fragment index (.string fragment) ∈ later →
    fragment = ""
  fields : ∀ index field value, lastAssigned? index field later = some value →
    (lastAssigned? index field earlier).getD
      (readField field (calls.getD index emptyCall)) = value

section Repeating

variable {parts : TurnParts} {entries : List CallEntry} {update : Update}
  {earlier later updates : List Update} {index : Nat}

/-- A member reads as it was assigned last; a new entry is an empty one. -/
theorem read_getD_entriesStep
    (within : Within entries.length update) (field : CallField) :
    ((entriesStep entries update).getD index {}).read field =
      (assigned? index field update).getD
        ((entries.getD index {}).read field) := by
  cases found : entries[index]? with
  | some entry =>
      rw [List.getD_eq_getElem?_getD, List.getD_eq_getElem?_getD,
        getElem?_entriesStep found, found]
      exact read_entryStep ..
  | none =>
      have outside := List.getElem?_eq_none_iff.mp found
      have same : (entriesStep entries update).getD index {} = {} ∧
          assigned? index field update = none := by
        cases update with
        | pad reached =>
            refine ⟨?_, rfl⟩
            rw [entriesStep, List.getD_eq_getElem?_getD,
              List.getElem?_append_right outside, List.getElem?_replicate]
            split_ifs <;> rfl
        | field other changed value =>
            have different : other ≠ index :=
              (Nat.lt_of_lt_of_le within outside).ne
            simp [entriesStep, assigned?, different, found]
        | fragment other text => cases text <;> simp [entriesStep, assigned?, found, List.getElem?_modify]
        | _ => simp [entriesStep, assigned?, found]
      rw [same.1, same.2, List.getD_eq_getElem?_getD, found]
      rfl

theorem read_getD_foldl
    (found : Padded entries.length updates) (field : CallField) :
    ((updates.foldl entriesStep entries).getD index {}).read field =
      (lastAssigned? index field updates).getD
        ((entries.getD index {}).read field) := by
  induction updates generalizing entries with
  | nil => rfl
  | cons update updates induction =>
      have rest := found.2
      rw [← length_entriesStep] at rest
      rw [List.foldl_cons, induction rest, read_getD_entriesStep found.1,
        lastAssigned?]
      cases lastAssigned? index field updates with
      | none => rfl
      | some value => rfl

/-- Later updates find their entries behind the earlier ones. -/
theorem padded_behind
    (found : Padded entries.length (earlier ++ later)) :
    Padded (earlier.foldl entriesStep entries).length later := by
  induction earlier generalizing entries with
  | nil => exact found
  | cons update earlier induction =>
      have rest := found.2
      rw [← length_entriesStep] at rest
      exact induction rest

theorem padded_front
    {length : Nat} (found : Padded length (earlier ++ later)) :
    Padded length earlier := by
  induction earlier generalizing length with
  | nil => trivial
  | cons update earlier induction => exact ⟨found.1, induction found.2⟩

theorem readField_getD
    (stands : Stands parts entries) (field : CallField) :
    readField field (parts.calls.getD index emptyCall) =
      (entries.getD index {}).read field := by
  rw [← readField_toJson, List.getD_eq_getElem?_getD, getElem?_calls stands,
    List.getD_eq_getElem?_getD]
  cases entries[index]? with
  | none => rfl
  | some entry => rfl

/-- Updates are idle behind earlier ones exactly when they repeat them. -/
theorem idle_iff_repeats
    (stands : Stands parts entries)
    (found : Padded entries.length (earlier ++ later)) :
    Idle false (partsAfter parts entries earlier).calls later ↔
      Repeats parts.calls earlier later := by
  have length : (partsAfter parts entries earlier).calls.length =
      (earlier.foldl entriesStep entries).length := List.length_map ..
  have next : Stands (partsAfter parts entries earlier)
      (earlier.foldl entriesStep entries) := rfl
  have inside : ∀ index,
      index < (partsAfter parts entries earlier).calls.length ↔
        index < parts.calls.length ∨
          ∃ reached, .pad reached ∈ earlier ∧ index ≤ reached := by
    intro index
    rw [length, lt_length_foldl_iff, stands, List.length_map]
  have reads : ∀ index field,
      readField field
          ((partsAfter parts entries earlier).calls.getD index emptyCall) =
        (lastAssigned? index field earlier).getD
          (readField field (parts.calls.getD index emptyCall)) := by
    intro index field
    rw [readField_getD next, read_getD_foldl (padded_front found),
      readField_getD stands]
  constructor
  · intro idle
    refine ⟨fun chunk member => (idle.contents chunk member).1,
      fun index member => (inside index).mp (idle.pads index member),
      idle.fragments, ?_⟩
    intro index field value last
    obtain ⟨call, isCall, isValue⟩ := idle.fields index field value last
    rw [← reads, List.getD_eq_getElem?_getD, isCall]
    exact isValue
  · intro repeated
    have pads : ∀ index, .pad index ∈ later →
        index < (partsAfter parts entries earlier).calls.length :=
      fun index member => (inside index).mpr (repeated.pads index member)
    refine ⟨fun chunk member => ⟨repeated.contents chunk member, rfl⟩, pads,
      repeated.fragments, ?_⟩
    intro index field value last
    rw [length] at pads
    have within := (padded_behind found).within (padded_le_iff.mpr pads) _
      (exists_field_of_lastAssigned last)
    have there : index < (partsAfter parts entries earlier).calls.length := by
      rw [length]
      exact within
    refine ⟨_, List.getElem?_eq_getElem there, ?_⟩
    rw [← repeated.fields index field value last, ← reads,
      List.getD_eq_getElem?_getD, List.getElem?_eq_getElem there]
    rfl

end Repeating

/-! ## One event of a chat completion -/

section ChatEvents

variable {parts shown silent : TurnParts} {entries : List CallEntry}
  {updates : List Update} {history : List AgentEvent}
  {outcome ended : Except Exception Unit}

/-- A walk decodes what it decodes without a callback. -/
theorem walks_agree_iff
    (stands : Stands parts entries) (found : Padded entries.length updates)
    (loud : Action.Finishes (performAll (hostText true) updates) parts history
      outcome shown)
    (quiet : Action.Finishes (performAll (hostText false) updates) parts []
      ended silent) :
    shown = silent ↔
      Repeats parts.calls (performed updates history)
        (skipped updates history) := by
  have before := padded_updatesBefore found
  rw [← performed_append_skipped updates history] at before
  have next : Stands (partsAfter parts entries (performed updates history))
      ((performed updates history).foldl entriesStep entries) := rfl
  rw [(finishes_performAll stands found loud).1,
    (finishes_performAll stands found quiet).1, performed_nil,
    ← performed_append_skipped updates history, partsAfter_append,
    ← idle_iff_repeats stands before,
    ← unchanged_iff_idle next (padded_behind before)]
  constructor
  · intro same
    refine ⟨?_, same.symm⟩
    rintro ⟨impossible, -⟩
    cases impossible
  · rintro ⟨-, same⟩
    exact same.symm

end ChatEvents

/-! ## One event of Gemini -/

section Parts

variable {part : Json} {items : List Json} {chunk : String}
  {parts shown silent after : TurnParts} {history : List AgentEvent}
  {outcome ended : Except Exception Unit} {text : Bool}

/--
Behind a text whose callback threw there is nothing: its part has no function
call, and no part follows.
-/
def NothingBehind : List Json → List AgentEvent → Prop
  | [], _ => True
  | part :: items, history =>
      match part.find? "text" with
      | none => NothingBehind items history
      | some (.string _) =>
          if textThrew history then
            part.find? "functionCall" = none ∧ items = []
          else
            NothingBehind items history.tail
      | some _ => True

/-- The part is recorded, and its text is added. -/
def recorded (part : Json) (chunk : String) (parts : TurnParts) : TurnParts :=
  { parts with
    text := parts.text ++ chunk
    responseParts := parts.responseParts ++ [part] }

/-- The function call of a part is added. -/
def called (part : Json) (parts : TurnParts) : TurnParts :=
  { parts with calls := parts.calls ++ (part.find? "functionCall").toList }

theorem whenPresent_of_none
    {value : Json} {key : String} {action : Json → Walk agents}
    (absent : value.find? key = none) :
    whenPresent value key action = pure () := by
  simp only [whenPresent, absent]

theorem whenPresent_of_some
    {value found : Json} {key : String} {action : Json → Walk agents}
    (present : value.find? key = some found) :
    whenPresent value key action = action found := by
  simp only [whenPresent, present]

theorem finishes_call
    (run : Action.Finishes
      (whenPresent part "functionCall" fun call =>
        modify fun parts => { parts with calls := parts.calls ++ [call] } :
        Walk agents)
      parts history outcome after) :
    history = [] ∧ outcome = .ok () ∧ after = called part parts := by
  cases found : part.find? "functionCall" with
  | none =>
      rw [whenPresent_of_none found] at run
      obtain ⟨rfl, rfl, rfl⟩ := Action.finishes_pure.mp run
      simp [called, found]
  | some call =>
      rw [whenPresent_of_some found] at run
      obtain ⟨rfl, rfl, rfl⟩ := Action.finishes_modify.mp run
      simp [called, found]

/-- A part without text. -/
theorem finishes_applyPart_of_none
    (plain : part.find? "text" = none)
    (run : Action.Finishes (applyPart (hostText text) part) parts history
      outcome after) :
    history = [] ∧ outcome = .ok () ∧
      after = called part (recorded part "" parts) := by
  have rest := Action.finishes_modify_bind.mp run
  rw [whenPresent_of_none plain, pure_bind] at rest
  obtain ⟨rfl, rfl, rfl⟩ := finishes_call rest
  simp [recorded]

/-- A part whose text is no string. -/
theorem finishes_applyPart_of_malformed
    {shownText : Json} (isText : part.find? "text" = some shownText)
    (malformed : ∀ chunk, shownText ≠ .string chunk)
    (run : Action.Finishes (applyPart (hostText text) part) parts history
      outcome after) :
    history = [] ∧ (∃ failure, outcome = .error failure) ∧
      after = recorded part "" parts := by
  have threw : ∃ failure, shownText.getString = .error failure := by
    cases shownText with
    | string chunk => exact absurd rfl (malformed chunk)
    | _ => exact ⟨_, rfl⟩
  obtain ⟨failure, failed⟩ := threw
  have rest := Action.finishes_modify_bind.mp run
  rw [whenPresent_of_some isText, addText, failed] at rest
  obtain ⟨rfl, rfl, rfl⟩ :=
    (Action.finishes_throw.mp rest :
      history = [] ∧ outcome = .error failure ∧ after = _)
  exact ⟨rfl, ⟨failure, rfl⟩, by simp [recorded]⟩

/-- A part with text, when there is no callback. -/
theorem finishes_applyPart_of_silent
    (isText : part.find? "text" = some (.string chunk))
    (run : Action.Finishes (applyPart (hostText false) part) parts history
      outcome after) :
    history = [] ∧ outcome = .ok () ∧
      after = called part (recorded part chunk parts) := by
  have rest := Action.finishes_modify_bind.mp run
  rw [whenPresent_of_some isText] at rest
  exact finishes_call rest

/-- A part with text, when there is a callback. -/
theorem finishes_applyPart_of_text
    (isText : part.find? "text" = some (.string chunk))
    (run : Action.Finishes (applyPart (hostText true) part) parts history
      outcome after) :
    history = [⟨.onText chunk, outcome⟩] ∧
      after =
        if textThrew history then
          recorded part chunk parts
        else
          called part (recorded part chunk parts) := by
  have rest := Action.finishes_modify_bind.mp run
  rw [whenPresent_of_some isText] at rest
  rcases Action.finishes_bind.mp rest with
    ⟨failure, rfl, thrown⟩ | ⟨first, later, value, between, rfl, added, rest⟩
  · obtain ⟨⟨answer, others, rfl, rfl, rfl⟩, rfl⟩ := Action.finishes_ofHost.mp
      (Action.finishes_modify_bind.mp (Action.finishes_ofExcept_bind.mp thrown))
    exact ⟨rfl, rfl⟩
  · obtain ⟨⟨answer, others, rfl, rfl, rfl⟩, rfl⟩ := Action.finishes_ofHost.mp
      (Action.finishes_modify_bind.mp (Action.finishes_ofExcept_bind.mp added))
    obtain ⟨rfl, rfl, rfl⟩ := finishes_call rest
    exact ⟨rfl, rfl⟩

/-- A visit whose first part is performed goes on behind it. -/
theorem finishes_visitAll_of_applied
    {next : TurnParts}
    (applies : ∀ {history outcome after},
      Action.Finishes (applyPart (hostText text) part) parts history outcome
        after → history = [] ∧ outcome = .ok () ∧ after = next)
    (run : Action.Finishes (visitAll (applyPart (hostText text)) (part :: items))
      parts history outcome after) :
    Action.Finishes (visitAll (applyPart (hostText text)) items) next history
      outcome after := by
  rcases Action.finishes_bind.mp run with
    ⟨failure, rfl, thrown⟩ | ⟨first, later, value, between, rfl, applied, rest⟩
  · exact nomatch (applies thrown).2.1
  · obtain ⟨rfl, -, rfl⟩ := applies applied
    exact rest

/-- A visit whose first part throws ends there. -/
theorem eq_of_visitAll_of_thrown
    {next : TurnParts}
    (throws : ∀ {history outcome after},
      Action.Finishes (applyPart (hostText text) part) parts history outcome
        after →
        history = [] ∧ (∃ failure, outcome = .error failure) ∧ after = next)
    (run : Action.Finishes (visitAll (applyPart (hostText text)) (part :: items))
      parts history outcome after) :
    after = next := by
  rcases Action.finishes_bind.mp run with
    ⟨failure, rfl, thrown⟩ | ⟨first, later, value, between, rfl, applied, rest⟩
  · exact (throws thrown).2.2
  · obtain ⟨-, ⟨failure, impossible⟩, -⟩ := throws applied
    cases impossible

/-- What a walk that goes on adds behind a text whose callback threw. -/
theorem recorded_eq_iff
    (quiet : Action.Finishes (visitAll (applyPart (hostText text)) items)
      (called part (recorded part chunk parts)) history outcome silent) :
    recorded part chunk parts = silent ↔
      part.find? "functionCall" = none ∧ items = [] := by
  constructor
  · rintro rfl
    obtain ⟨visited, same, grown⟩ := responseParts_of_visitAll quiet
    have nothing : visited = [] := by
      simpa [called] using grown
    rw [nothing] at same
    have empty : items = [] := by
      simpa using same.symm
    subst empty
    obtain ⟨-, -, unchanged⟩ := Action.finishes_pure.mp quiet
    have calls := congrArg TurnParts.calls unchanged
    simpa [called] using calls
  · rintro ⟨absent, rfl⟩
    obtain ⟨-, -, rfl⟩ := Action.finishes_pure.mp quiet
    simp [called, absent]

/-- Visiting parts decodes what it decodes without a callback. -/
theorem visits_agree_iff
    (loud : Action.Finishes (visitAll (applyPart (hostText true)) items) parts
      history outcome shown)
    (quiet : Action.Finishes (visitAll (applyPart (hostText false)) items) parts
      [] ended silent) :
    shown = silent ↔ NothingBehind items history := by
  induction items generalizing parts history with
  | nil =>
      obtain ⟨-, -, rfl⟩ := Action.finishes_pure.mp loud
      obtain ⟨-, -, rfl⟩ := Action.finishes_pure.mp quiet
      simp [NothingBehind]
  | cons part items induction =>
      cases isText : part.find? "text" with
      | none =>
          simp only [NothingBehind, isText]
          exact induction
            (finishes_visitAll_of_applied (finishes_applyPart_of_none isText)
              loud)
            (finishes_visitAll_of_applied (finishes_applyPart_of_none isText)
              quiet)
      | some shownText =>
          by_cases malformed : ∀ chunk, shownText ≠ .string chunk
          · have trivially : NothingBehind (part :: items) history := by
              cases shownText with
              | string chunk => exact absurd rfl (malformed chunk)
              | _ => simp [NothingBehind, isText]
            rw [eq_of_visitAll_of_thrown
                (finishes_applyPart_of_malformed isText malformed) loud,
              eq_of_visitAll_of_thrown
                (finishes_applyPart_of_malformed isText malformed) quiet]
            exact iff_of_true rfl trivially
          · obtain ⟨chunk, rfl⟩ : ∃ chunk, shownText = .string chunk := by
              simpa using malformed
            have goesOn := finishes_visitAll_of_applied
              (finishes_applyPart_of_silent isText) quiet
            simp only [NothingBehind, isText]
            rcases Action.finishes_bind.mp loud with
              ⟨failure, rfl, thrown⟩ |
              ⟨first, later, value, between, rfl, applied, rest⟩
            · obtain ⟨rfl, rfl⟩ := finishes_applyPart_of_text isText thrown
              exact recorded_eq_iff goesOn
            · obtain ⟨rfl, rfl⟩ := finishes_applyPart_of_text isText applied
              exact induction rest goesOn

end Parts

/-! ## Whole streams -/

/--
An event that is decoded twice: what its callbacks answered, the parts before
and after it, and the parts after it without a callback.
-/
structure Decoding where
  event : String
  history : List AgentEvent
  before : TurnParts
  after : TurnParts
  silent : TurnParts

/--
A stream decoded with a callback and without one, by parser calls that return
normally.
-/
inductive DecodedTwice (kind : BuiltIn) (json : JsonText) :
    List Decoding → TurnParts → TurnParts → Prop where
  | start : DecodedTwice kind json [] {} {}
  | event {steps : List Decoding} {step : Decoding} {quiet : TurnParts}
      (decoded : DecodedTwice kind json steps step.before quiet)
      (heard : Action.Finishes
        (kind.parseStreamChunk json (hostText true) step.event)
        step.before step.history (.ok ()) step.after)
      (unheard : Action.Finishes
        (kind.parseStreamChunk json (hostText false) step.event)
        quiet [] (.ok ()) step.silent) :
      DecodedTwice kind json (steps ++ [step]) step.after step.silent

/-- Where a callback threw, nothing new stands behind its text in the event. -/
def NothingLost (kind : BuiltIn) (json : JsonText) (step : Decoding) : Prop :=
  match kind with
  | .chat provider =>
      Repeats step.before.calls
        (performed (eventUpdates provider json step.event) step.history)
        (skipped (eventUpdates provider json step.event) step.history)
  | .gemini =>
      ∀ parsed, json.parse step.event = .ok parsed →
        NothingBehind (eventParts parsed) step.history

section Streams

variable {kind : BuiltIn} {json : JsonText} {steps : List Decoding}
  {step : Decoding} {shown silent : TurnParts}
  {outcome ended : Except Exception Unit}

theorem DecodedTwice.built
    (decoded : DecodedTwice kind json steps shown silent) :
    Built kind json true shown := by
  induction decoded with
  | start => exact .start
  | event decoded heard unheard induction => exact .event induction heard

/-- The walk of an event that is JSON visits its parts. -/
theorem finishes_visits_of_gemini
    {text : Bool} {event : String} {parsed : Json} {parts after : TurnParts}
    {history : List AgentEvent} (isParsed : json.parse event = .ok parsed)
    (run : Action.Finishes (parseGeminiStreamChunk json (hostText text) event)
      parts history outcome after) :
    ∃ ended, Action.Finishes
      (visitAll (applyPart (hostText text)) (eventParts parsed)) parts history
      ended after := by
  obtain ⟨ended, walked⟩ := finishes_ignoreMalformed run
  rw [isParsed] at walked
  have visits := Action.finishes_ofExcept_bind.mp walked
  rw [← visitAll_flatMap] at visits
  exact ⟨ended, visits⟩

/-- An event that is no JSON changes nothing. -/
theorem eq_of_gemini_of_error
    {text : Bool} {event : String} {failure : Exception}
    {parts after : TurnParts} {history : List AgentEvent}
    (failed : json.parse event = .error failure)
    (run : Action.Finishes (parseGeminiStreamChunk json (hostText text) event)
      parts history outcome after) :
    after = parts := by
  obtain ⟨ended, walked⟩ := finishes_ignoreMalformed run
  rw [failed] at walked
  obtain ⟨-, -, rfl⟩ :=
    (Action.finishes_throw.mp walked :
      history = [] ∧ ended = .error failure ∧ after = parts)
  rfl

/-- From the same parts, one event is decoded as without a callback. -/
theorem event_agrees_iff
    (built : Built kind json true step.before)
    (heard : Action.Finishes
      (kind.parseStreamChunk json (hostText true) step.event)
      step.before step.history outcome step.after)
    (unheard : Action.Finishes
      (kind.parseStreamChunk json (hostText false) step.event)
      step.before [] ended step.silent) :
    step.after = step.silent ↔ NothingLost kind json step := by
  cases kind with
  | chat provider =>
      obtain ⟨entries, stands⟩ := exists_entries_of_built built
      rw [BuiltIn.parseStreamChunk, parseStreamChunk_eq] at heard unheard
      obtain ⟨_, loud⟩ := finishes_ignoreMalformed heard
      obtain ⟨_, quiet⟩ := finishes_ignoreMalformed unheard
      exact walks_agree_iff stands (padded_eventUpdates ..) loud quiet
  | gemini =>
      cases isParsed : json.parse step.event with
      | error failure =>
          rw [eq_of_gemini_of_error isParsed heard,
            eq_of_gemini_of_error isParsed unheard]
          simp [NothingLost, isParsed]
      | ok parsed =>
          obtain ⟨_, loud⟩ := finishes_visits_of_gemini isParsed heard
          obtain ⟨_, quiet⟩ := finishes_visits_of_gemini isParsed unheard
          rw [visits_agree_iff loud quiet]
          simp [NothingLost, isParsed]

theorem DecodedTwice.agrees
    (decoded : DecodedTwice kind json steps shown silent)
    (agree : ∀ step ∈ steps, step.after = step.silent) : shown = silent := by
  cases decoded with
  | start => rfl
  | event decoded heard unheard => exact agree _ (by simp)

/--
A stream is decoded as without a callback, after every event, exactly when no
exception of the callback loses anything.
-/
theorem callback_unseen_iff
    (decoded : DecodedTwice kind json steps shown silent) :
    (∀ step ∈ steps, step.after = step.silent) ↔
      ∀ step ∈ steps, NothingLost kind json step := by
  induction decoded with
  | start => simp
  | @event steps step quiet decoded heard unheard induction =>
      rw [List.forall_mem_append, List.forall_mem_append, ← induction,
        List.forall_mem_singleton, List.forall_mem_singleton]
      refine and_congr_right fun agree => ?_
      obtain rfl := decoded.agrees agree
      exact event_agrees_iff decoded.built heard unheard

end Streams

/-! ## A lost tool call -/

/-- A text, and a tool call behind it. -/
def answerEvent : String :=
  "\x7b\"choices\":[\x7b\"delta\":\x7b\"content\":\"Hi\","
    ++ "\"tool_calls\":[\x7b\"index\":0\x7d]\x7d\x7d]\x7d"

def answerDelta : Json :=
  .object
    [("content", .string "Hi"),
      ("tool_calls", .array [.object [("index", .integer 0)]])]

/-- The text alone. -/
def textEvent : String :=
  "\x7b\"choices\":[\x7b\"delta\":\x7b\"content\":\"Hi\"\x7d\x7d]\x7d"

/-- A text library that knows the two events. -/
def knownAnswer : JsonText :=
  .knowing
    [⟨answerEvent,
        .object [("choices", .array [.object [("delta", answerDelta)]])],
        by decide +kernel⟩,
      ⟨textEvent,
        .object
          [("choices", .array
            [.object [("delta", .object [("content", .string "Hi")])]])],
        by decide +kernel⟩]

/-- The callback throws, and the call behind its text is lost. -/
def lostCall : Decoding where
  event := answerEvent
  history := [⟨.onText "Hi", .error (.standard "display closed")⟩]
  before := {}
  after := { text := "Hi" }
  silent := { text := "Hi", calls := [emptyCall] }

theorem decoded_lostCall :
    DecodedTwice (.chat .deepSeek) knownAnswer [lostCall] lostCall.after
      lostCall.silent := by
  refine @DecodedTwice.event _ _ [] lostCall {} .start ?_ ?_
  · exact ⟨.error (.standard "display closed"), [], rfl, rfl, rfl⟩
  · exact ⟨rfl, rfl⟩

/-- A callback's exception removes a tool call from the turn. -/
theorem callback_exception_loses_call :
    ¬ ∀ (kind : BuiltIn) (json : JsonText) (steps : List Decoding)
        (shown silent : TurnParts),
      DecodedTwice kind json steps shown silent → shown = silent := by
  intro holds
  have same := congrArg TurnParts.calls (holds _ _ _ _ _ decoded_lostCall)
  exact absurd same (List.cons_ne_nil _ _).symm

/-- The callback throws, and there is nothing behind its text. -/
def lastText : Decoding where
  event := textEvent
  history := [⟨.onText "Hi", .error (.standard "display closed")⟩]
  before := {}
  after := { text := "Hi" }
  silent := { text := "Hi" }

theorem decoded_lastText :
    DecodedTwice (.chat .deepSeek) knownAnswer [lastText] lastText.after
      lastText.silent := by
  refine @DecodedTwice.event _ _ [] lastText {} .start ?_ ?_
  · exact ⟨.error (.standard "display closed"), [], rfl, rfl, rfl⟩
  · exact ⟨rfl, rfl⟩

/-- The call behind the text is new; behind the text alone nothing is lost. -/
theorem callback_unseen_iff_lostCall :
    ((∀ step ∈ [lostCall], step.after = step.silent) ↔
      ∀ step ∈ [lostCall], NothingLost (.chat .deepSeek) knownAnswer step) ∧
      ∀ step ∈ [lastText], NothingLost (.chat .deepSeek) knownAnswer step := by
  refine ⟨callback_unseen_iff decoded_lostCall, ?_⟩
  refine (callback_unseen_iff decoded_lastText).mp ?_
  simp [lastText]

end ArnCore.Provider.TextCallback
