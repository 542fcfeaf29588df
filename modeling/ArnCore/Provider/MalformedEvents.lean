import ArnCore.Provider.CallEntries

/-!
# Malformed events

One handler covers the whole walk of a stream-chunk parser.  What was done
before the malformed member stays: Gemini has recorded the part that contains
it, and a chat completion has performed every update in front of it.  Only
where those updates change nothing is the event ignored as a whole.
-/

namespace ArnCore.Provider.MalformedEvents

open ArnCore.Agent.Environment
open ArnCore.Collections
open ArnCore.Interaction
open ArnCore.Provider.BuiltInTurn
open ArnCore.Provider.CallEntries
open ArnCore.Provider.ChatStream
open ArnCore.Provider.StreamUpdates

/-- A step that throws because of the type of a JSON value. -/
def isMalformed : Update → Bool
  | .content (.string _) => false
  | .content _ => true
  | .fragment _ (.string _) => false
  | .fragment _ _ => true
  | .fails _ => true
  | _ => false

/-- The text a step shows. -/
def contentText? : Update → Option String
  | .content (.string chunk) => some chunk
  | _ => none

section Steps

variable {text : Bool} {parts after : TurnParts} {history : List AgentEvent}
  {outcome : Except Exception Unit} {entries : List CallEntry}
  {update : Update} {updates : List Update}

/-- The accumulated calls are entries. -/
def Stands (parts : TurnParts) (entries : List CallEntry) : Prop :=
  parts.calls = entries.map CallEntry.toJson

/-- The parts of a turn after an update of its entries. -/
def updated (parts : TurnParts) (shown : Option String)
    (entries : List CallEntry) : TurnParts :=
  { parts with
    text := parts.text ++ shown.getD ""
    calls := entries.map CallEntry.toJson }

/-- An update of an entry that is there. -/
theorem finishes_updateCall_of_within
    {index : Nat} {change : Json → Except Exception Json}
    {changed : CallEntry → CallEntry}
    (stands : Stands parts entries) (inside : index < entries.length)
    (changes : ∀ entry : CallEntry,
      change entry.toJson = .ok (changed entry).toJson)
    (run : Action.Finishes (updateCall index change) parts history outcome
      after) :
    history = [] ∧ outcome = .ok () ∧
      after = updated parts none (entries.modify index changed) := by
  have found : parts.calls[index]? = some (entries[index].toJson) := by
    rw [stands, List.getElem?_map, List.getElem?_eq_getElem inside]
    rfl
  have read := Action.finishes_get_bind.mp run
  simp only [found, changes] at read
  obtain ⟨rfl, rfl, rfl⟩ :=
    Action.finishes_modify.mp (Action.finishes_ofExcept_bind.mp read)
  refine ⟨rfl, rfl, ?_⟩
  have same : (entries.map CallEntry.toJson).set index
      (changed entries[index]).toJson =
        (entries.modify index changed).map CallEntry.toJson := by
    rw [List.modify_eq_set_getElem?, List.getElem?_eq_getElem inside]
    exact List.map_set.symm
  rw [updated, ← same, ← stands, Option.getD_none, String.append_empty]

/-- An update whose entry is missing, or whose value has the wrong type. -/
theorem finishes_updateCall_of_error
    {index : Nat} {change : Json → Except Exception Json}
    (fails : ∀ call, parts.calls[index]? = some call →
      ∃ failure, change call = .error failure)
    (run : Action.Finishes (updateCall index change) parts history outcome
      after) :
    history = [] ∧ (∃ failure, outcome = .error failure) ∧ after = parts := by
  have read := Action.finishes_get_bind.mp run
  cases found : parts.calls[index]? with
  | none =>
      simp only [found] at read
      obtain ⟨rfl, rfl, rfl⟩ := Action.finishes_throw.mp read
      exact ⟨rfl, ⟨_, rfl⟩, rfl⟩
  | some call =>
      obtain ⟨failure, failed⟩ := fails call found
      simp only [found, failed] at read
      obtain ⟨rfl, rfl, rfl⟩ :=
        (Action.finishes_throw.mp read :
          history = [] ∧ outcome = .error failure ∧ after = parts)
      exact ⟨rfl, ⟨failure, rfl⟩, rfl⟩

theorem appendArguments_error
    {fragment : Json} (malformed : ∀ value, fragment ≠ .string value)
    (call : Json) : ∃ failure, appendArguments fragment call = .error failure := by
  rw [appendArguments]
  cases (member (member call "function") "arguments").getString with
  | error failure => exact ⟨failure, rfl⟩
  | ok earlier =>
      cases fragment with
      | string value => exact absurd rfl (malformed value)
      | _ => exact ⟨_, rfl⟩

/-- A step that is well formed and finds its entry is performed. -/
theorem finishes_perform_of_fine
    (stands : Stands parts entries) (within : Within entries.length update)
    (fine : isMalformed update = false)
    (run : Action.Finishes (perform (hostText text) update) parts history
      outcome after) :
    after = updated parts (contentText? update) (entriesStep entries update) ∧
      if text && (contentText? update).isSome then
        history ≠ []
      else
        history = [] ∧ outcome = .ok () := by
  cases update with
  | content shown =>
      cases shown with
      | string chunk =>
          have notified := Action.finishes_modify_bind.mp
            (Action.finishes_ofExcept_bind.mp run)
          have same : updated parts (some chunk) entries =
              { parts with text := parts.text ++ chunk } := by
            rw [updated, ← stands]
            rfl
          cases text with
          | false =>
              obtain ⟨rfl, rfl, rfl⟩ := Action.finishes_pure.mp notified
              exact ⟨same.symm, rfl, rfl⟩
          | true =>
              obtain ⟨⟨answer, rest, rfl, rfl, rfl⟩, rfl⟩ :=
                Action.finishes_ofHost.mp notified
              exact ⟨same.symm, List.cons_ne_nil _ _⟩
      | _ => cases fine
  | pad index =>
      obtain ⟨rfl, rfl, rfl⟩ := Action.finishes_modify.mp run
      refine ⟨?_, by simp [contentText?]⟩
      have padded : padCalls parts.calls index =
          (entriesStep entries (.pad index)).map CallEntry.toJson := by
        rw [stands, padCalls, entriesStep, List.map_append, List.map_replicate,
          CallEntry.toJson_empty, List.length_map]
      simp [updated, contentText?, padded]
  | field index field value =>
      obtain ⟨rfl, rfl, rfl⟩ := finishes_updateCall_of_within stands within
        (fun entry => entry.assignField_toJson field value) run
      exact ⟨rfl, by simp [contentText?]⟩
  | fragment index appended =>
      cases appended with
      | string fragment =>
          obtain ⟨rfl, rfl, rfl⟩ := finishes_updateCall_of_within stands within
            (fun entry => entry.appendArguments_toJson fragment) run
          exact ⟨rfl, by simp [contentText?]⟩
      | _ => cases fine
  | fails failure => cases fine

/-- Any other step throws and changes nothing. -/
theorem finishes_perform_of_not_fine
    (stands : Stands parts entries)
    (broken : ¬ Within entries.length update ∨ isMalformed update = true)
    (run : Action.Finishes (perform (hostText text) update) parts history
      outcome after) :
    history = [] ∧ (∃ failure, outcome = .error failure) ∧ after = parts := by
  have missing : ∀ {index : Nat} {change : Json → Except Exception Json},
      ¬ index < entries.length → ∀ call, parts.calls[index]? = some call →
        ∃ failure, change call = .error failure := by
    intro index change outside call found
    rw [stands, List.getElem?_map, Option.map_eq_some_iff] at found
    obtain ⟨entry, found, -⟩ := found
    exact absurd (List.getElem?_eq_some_iff.mp found).1 outside
  cases update with
  | content shown =>
      have threw : ∃ failure, shown.getString = .error failure := by
        rcases broken with impossible | malformed
        · exact absurd trivial impossible
        · cases shown with
          | string chunk => cases malformed
          | _ => exact ⟨_, rfl⟩
      obtain ⟨failure, failed⟩ := threw
      rw [perform, addText, failed] at run
      obtain ⟨rfl, rfl, rfl⟩ :=
        (Action.finishes_throw.mp run :
          history = [] ∧ outcome = .error failure ∧ after = parts)
      exact ⟨rfl, ⟨failure, rfl⟩, rfl⟩
  | pad index =>
      rcases broken with impossible | malformed
      · exact absurd trivial impossible
      · cases malformed
  | field index field value =>
      rcases broken with outside | malformed
      · exact finishes_updateCall_of_error (missing outside) run
      · cases malformed
  | fragment index appended =>
      rcases broken with outside | malformed
      · exact finishes_updateCall_of_error (missing outside) run
      · refine finishes_updateCall_of_error (fun call _ => ?_) run
        refine appendArguments_error ?_ call
        rintro value rfl
        cases malformed
  | fails failure =>
      obtain ⟨rfl, rfl, rfl⟩ := Action.finishes_throw.mp run
      exact ⟨rfl, ⟨failure, rfl⟩, rfl⟩

/-- A step leaves entries behind, however it ends. -/
theorem exists_entries_of_perform
    (stands : Stands parts entries)
    (run : Action.Finishes (perform (hostText text) update) parts history
      outcome after) :
    ∃ others, Stands after others := by
  by_cases broken :
      ¬ Within entries.length update ∨ isMalformed update = true
  · obtain ⟨-, -, rfl⟩ := finishes_perform_of_not_fine stands broken run
    exact ⟨entries, stands⟩
  · rw [not_or, not_not, Bool.not_eq_true] at broken
    obtain ⟨rfl, -⟩ :=
      finishes_perform_of_fine stands broken.1 broken.2 run
    exact ⟨entriesStep entries update, rfl⟩

theorem exists_entries_of_performAll
    (stands : Stands parts entries)
    (run : Action.Finishes (performAll (hostText text) updates) parts history
      outcome after) :
    ∃ others, Stands after others := by
  induction updates generalizing parts entries history with
  | nil =>
      obtain ⟨-, -, rfl⟩ := Action.finishes_pure.mp run
      exact ⟨entries, stands⟩
  | cons update updates induction =>
      rcases Action.finishes_bind.mp run with
        ⟨failure, -, thrown⟩ |
        ⟨first, later, value, between, rfl, performed, continued⟩
      · exact exists_entries_of_perform stands thrown
      · obtain ⟨others, kept⟩ := exists_entries_of_perform stands performed
        exact induction kept continued

/-! ## Walks that meet a malformed member -/

/-- The updates in front of the first malformed one. -/
def updatesBefore (updates : List Update) : List Update :=
  updates.takeWhile fun update => !isMalformed update

/-- Some of the updates show text to a callback that is there. -/
def Shows (text : Bool) (updates : List Update) : Prop :=
  text = true ∧ ∃ update ∈ updates, (contentText? update).isSome = true

/-- The text the updates add. -/
def addedText (updates : List Update) : String :=
  String.join (updates.filterMap contentText?)

theorem shows_cons
    (silent : (text && (contentText? update).isSome) = false) :
    Shows text (update :: updates) ↔ Shows text updates := by
  constructor
  · rintro ⟨rfl, shown, member, isShown⟩
    rcases List.mem_cons.mp member with rfl | later
    · rw [isShown] at silent
      cases silent
    · exact ⟨rfl, shown, later, isShown⟩
  · rintro ⟨attached, shown, member, isShown⟩
    exact ⟨attached, shown, List.mem_cons_of_mem _ member, isShown⟩

theorem addedText_cons :
    addedText (update :: updates) =
      (contentText? update).getD "" ++ addedText updates := by
  cases shown : contentText? update with
  | none => simp [addedText, shown]
  | some chunk => simp [addedText, shown]

/-- Two updates of the parts, one after the other. -/
theorem updated_updated
    {shown : Option String} {added : String} {others : List CallEntry} :
    updated (updated parts shown entries) (some added) others =
      updated parts (some (shown.getD "" ++ added)) others := by
  simp [updated, String.append_assoc]

/-- A walk ends at a malformed member, which changes nothing. -/
theorem finishes_performAll_of_broken
    {update : Update} (stands : Stands parts entries)
    (broken : isMalformed update = true)
    (run : Action.Finishes (performAll (hostText text) (update :: updates))
      parts history outcome after) :
    history = [] ∧ after = parts := by
  rcases Action.finishes_bind.mp run with
    ⟨failure, -, thrown⟩ |
    ⟨first, later, value, between, rfl, performed, -⟩
  · obtain ⟨rfl, -, rfl⟩ :=
      finishes_perform_of_not_fine stands (Or.inr broken) thrown
    exact ⟨rfl, rfl⟩
  · obtain ⟨-, ⟨failure, impossible⟩, -⟩ :=
      finishes_perform_of_not_fine stands (Or.inr broken) performed
    cases impossible

/--
A walk that meets a malformed member performs the updates in front of it, unless
the callback for text was called on the way.
-/
theorem finishes_performAll_of_malformed
    (stands : Stands parts entries) (found : Padded entries.length updates)
    (malformed : ∃ update ∈ updates, isMalformed update = true)
    (run : Action.Finishes (performAll (hostText text) updates) parts history
      outcome after) :
    (Shows text (updatesBefore updates) → history ≠ []) ∧
      (¬ Shows text (updatesBefore updates) →
        history = [] ∧
          after = updated parts (some (addedText (updatesBefore updates)))
            ((updatesBefore updates).foldl entriesStep entries)) := by
  induction updates generalizing parts entries history with
  | nil =>
      obtain ⟨update, member, -⟩ := malformed
      cases member
  | cons update updates induction =>
      cases broken : isMalformed update with
      | true =>
          have nothing : updatesBefore (update :: updates) = [] := by
            simp [updatesBefore, broken]
          obtain ⟨rfl, rfl⟩ := finishes_performAll_of_broken stands broken run
          rw [nothing]
          refine ⟨?_, fun _ => ⟨rfl, ?_⟩⟩
          · rintro ⟨-, shown, member, -⟩
            cases member
          · rw [updated, List.foldl_nil, ← stands]
            simp [addedText]
      | false =>
          have split : updatesBefore (update :: updates) =
              update :: updatesBefore updates := by
            simp [updatesBefore, broken]
          have others : ∃ update ∈ updates, isMalformed update = true := by
            obtain ⟨other, member, isBroken⟩ := malformed
            rcases List.mem_cons.mp member with rfl | later
            · rw [broken] at isBroken
              cases isBroken
            · exact ⟨other, later, isBroken⟩
          rw [split]
          cases shows : text && (contentText? update).isSome with
          | true =>
              -- The callback is called by the first step already.
              have called : history ≠ [] := by
                rcases Action.finishes_bind.mp run with
                  ⟨failure, -, thrown⟩ |
                  ⟨first, later, value, between, rfl, performed, -⟩
                · have shown := (finishes_perform_of_fine stands found.1 broken
                    thrown).2
                  rwa [if_pos shows] at shown
                · have shown := (finishes_perform_of_fine stands found.1 broken
                    performed).2
                  rw [if_pos shows] at shown
                  simp [shown]
              rw [Bool.and_eq_true] at shows
              refine ⟨fun _ => called, fun silent => absurd ?_ silent⟩
              exact ⟨shows.1, update, List.mem_cons_self, shows.2⟩
          | false =>
              rcases Action.finishes_bind.mp run with
                ⟨failure, -, thrown⟩ |
                ⟨first, later, value, between, rfl, performed, continued⟩
              · have quiet := (finishes_perform_of_fine stands found.1 broken
                  thrown).2
                rw [if_neg (by simp [shows])] at quiet
                cases quiet.2
              obtain ⟨rfl, quiet⟩ :=
                finishes_perform_of_fine stands found.1 broken performed
              rw [if_neg (by simp [shows])] at quiet
              obtain ⟨rfl, -⟩ := quiet
              have rest := found.2
              rw [← length_entriesStep] at rest
              have stands : Stands
                  (updated parts (contentText? update)
                    (entriesStep entries update))
                  (entriesStep entries update) := rfl
              obtain ⟨shown, silent⟩ :=
                induction stands rest others continued
              rw [shows_cons shows, addedText_cons, List.foldl_cons,
                ← updated_updated]
              exact ⟨shown, silent⟩

end Steps

/-! ## Updates that change nothing -/

/-- The value of a member of an accumulated call. -/
def readField (field : CallField) (call : Json) : Json :=
  match field with
  | .id => member call "id"
  | .type => member call "type"
  | .name => member (member call "function") "name"

theorem readField_toJson (field : CallField) (entry : CallEntry) :
    readField field entry.toJson = entry.read field := by
  cases field <;> simp [readField, member, CallEntry.toJson, CallEntry.read]

/--
Updates that leave the parts of a turn as they are: they show no text, add none,
pad nothing, append nothing, and the last value they assign to a member is the
one it has.
-/
structure Idle (text : Bool) (calls : List Json) (updates : List Update) :
    Prop where
  contents : ∀ chunk, .content (.string chunk) ∈ updates →
    chunk = "" ∧ text = false
  pads : ∀ index, .pad index ∈ updates → index < calls.length
  fragments : ∀ index fragment, .fragment index (.string fragment) ∈ updates →
    fragment = ""
  fields : ∀ index field value,
    lastAssigned? index field updates = some value →
      ∃ call, calls[index]? = some call ∧ readField field call = value

section Idling

variable {text : Bool} {parts : TurnParts} {entries : List CallEntry}
  {updates : List Update}

theorem exists_field_of_lastAssigned
    {index : Nat} {field : CallField} {value : Json}
    (last : lastAssigned? index field updates = some value) :
    .field index field value ∈ updates := by
  induction updates with
  | nil => cases last
  | cons update updates induction =>
      rw [lastAssigned?, Option.or_eq_some_iff] at last
      rcases last with later | ⟨-, here⟩
      · exact List.mem_cons_of_mem _ (induction later)
      · cases update with
        | field other changed assigned =>
            simp only [assigned?] at here
            split_ifs at here with same
            obtain ⟨rfl, rfl⟩ := same
            cases here
            exact List.mem_cons_self
        | _ => cases here

theorem contentText?_eq_some
    {update : Update} {chunk : String}
    (shown : contentText? update = some chunk) :
    update = .content (.string chunk) := by
  unfold contentText? at shown
  split at shown
  · cases shown
    rfl
  · cases shown

/-- Nothing is shown or added exactly when every content is idle. -/
theorem silent_iff :
    ¬ Shows text updates ∧ addedText updates = "" ↔
      ∀ chunk, .content (.string chunk) ∈ updates →
        chunk = "" ∧ text = false := by
  constructor
  · rintro ⟨silent, nothing⟩ chunk member
    constructor
    · exact join_eq_empty_iff.mp nothing chunk
        (List.mem_filterMap.mpr ⟨_, member, rfl⟩)
    · rw [← Bool.not_eq_true]
      intro attached
      exact silent ⟨attached, _, member, rfl⟩
  · intro contents
    constructor
    · rintro ⟨rfl, update, member, isShown⟩
      obtain ⟨chunk, shown⟩ := Option.isSome_iff_exists.mp isShown
      obtain rfl := contentText?_eq_some shown
      cases (contents chunk member).2
    · apply join_eq_empty_iff.mpr
      intro chunk member
      obtain ⟨update, inUpdates, shown⟩ := List.mem_filterMap.mp member
      obtain rfl := contentText?_eq_some shown
      exact (contents chunk inUpdates).1

theorem padded_le_iff {length : Nat} :
    (∀ update ∈ updates, padded update ≤ length) ↔
      ∀ index, .pad index ∈ updates → index < length := by
  constructor
  · exact fun inside index member => inside _ member
  · intro inside update member
    cases update with
    | pad index => exact inside index member
    | _ => exact Nat.zero_le _

theorem fragment?_eq_some_iff
    {index : Nat} {update : Update} {fragment : String} :
    fragment? index update = some fragment ↔
      update = .fragment index (.string fragment) := by
  constructor
  · intro found
    unfold fragment? at found
    split at found
    · split_ifs at found with same
      subst same
      cases found
      rfl
    · cases found
  · rintro rfl
    simp [fragment?]

theorem getElem?_calls
    (stands : Stands parts entries) (index : Nat) :
    parts.calls[index]? = (entries[index]?).map CallEntry.toJson := by
  rw [stands, List.getElem?_map]

/-- Adding nothing, and updating nothing, is all that keeps the parts. -/
theorem updated_eq_iff
    (stands : Stands parts entries) {added : String}
    {others : List CallEntry} :
    updated parts (some added) others = parts ↔
      added = "" ∧ others = entries := by
  constructor
  · intro same
    constructor
    · have sameText := congrArg TurnParts.text same
      exact String.append_eq_left_iff.mp sameText
    · have sameCalls := congrArg TurnParts.calls same
      rw [stands] at sameCalls
      exact List.map_injective_iff.mpr CallEntry.toJson_injective sameCalls
  · rintro ⟨rfl, rfl⟩
    rw [updated, ← stands, Option.getD_some, String.append_empty]

/-- Updates that find their entries keep them exactly when they are idle. -/
theorem entries_kept_iff
    (stands : Stands parts entries) (found : Padded entries.length updates) :
    updates.foldl entriesStep entries = entries ↔
      (∀ index, .pad index ∈ updates → index < parts.calls.length) ∧
        (∀ index fragment, .fragment index (.string fragment) ∈ updates →
          fragment = "") ∧
        ∀ index field value,
          lastAssigned? index field updates = some value →
            ∃ call, parts.calls[index]? = some call ∧
              readField field call = value := by
  have length : parts.calls.length = entries.length := by
    rw [stands, List.length_map]
  rw [foldl_entriesStep_eq_iff, padded_le_iff, length]
  constructor
  · rintro ⟨inside, kept⟩
    have within := found.within (padded_le_iff.mpr inside)
    have there : ∀ index, index < entries.length →
        ∃ entry, entries[index]? = some entry :=
      fun index below => ⟨_, List.getElem?_eq_getElem below⟩
    refine ⟨inside, ?_, ?_⟩
    · intro index fragment member
      obtain ⟨entry, isEntry⟩ := there index (within _ member)
      exact (foldl_entryStep_eq_iff.mp (kept index entry isEntry)).2 _ member
        fragment (fragment?_eq_some_iff.mpr rfl)
    · intro index field value last
      obtain ⟨entry, isEntry⟩ :=
        there index (within _ (exists_field_of_lastAssigned last))
      refine ⟨entry.toJson, by rw [getElem?_calls stands, isEntry]; rfl, ?_⟩
      rw [readField_toJson]
      exact (foldl_entryStep_eq_iff.mp (kept index entry isEntry)).1 field value
        last
  · rintro ⟨inside, fragments, fields⟩
    refine ⟨inside, fun index entry isEntry =>
      foldl_entryStep_eq_iff.mpr ⟨?_, ?_⟩⟩
    · intro field value last
      obtain ⟨call, isCall, reads⟩ := fields index field value last
      rw [getElem?_calls stands, isEntry] at isCall
      cases isCall
      rwa [readField_toJson] at reads
    · intro update member fragment appends
      obtain rfl := fragment?_eq_some_iff.mp appends
      exact fragments index fragment member

/-- The parts of a turn are as before exactly when the updates are idle. -/
theorem unchanged_iff_idle
    (stands : Stands parts entries) (found : Padded entries.length updates) :
    ¬ Shows text updates ∧
        updated parts (some (addedText updates))
          (updates.foldl entriesStep entries) = parts ↔
      Idle text parts.calls updates := by
  rw [updated_eq_iff stands, ← and_assoc, silent_iff,
    entries_kept_iff stands found]
  constructor
  · rintro ⟨contents, pads, fragments, fields⟩
    exact ⟨contents, pads, fragments, fields⟩
  · intro idle
    exact ⟨idle.contents, idle.pads, idle.fragments, idle.fields⟩

theorem padded_updatesBefore
    {length : Nat} (found : Padded length updates) :
    Padded length (updatesBefore updates) := by
  induction updates generalizing length with
  | nil => exact found
  | cons update updates induction =>
      cases broken : isMalformed update with
      | true =>
          have nothing : updatesBefore (update :: updates) = [] := by
            simp [updatesBefore, broken]
          rw [nothing]
          trivial
      | false =>
          have split : updatesBefore (update :: updates) =
              update :: updatesBefore updates := by
            simp [updatesBefore, broken]
          rw [split]
          exact ⟨found.1, induction found.2⟩

end Idling

/-! ## Parts of a Gemini response -/

section Parts

variable {onText : TextStreamCallback agents} {parts after : TurnParts}
  {history : List AgentEvent} {outcome : Except Exception Unit}

/-- The parts of an event, in order. -/
def eventParts (parsed : Json) : List Json :=
  (packets parsed).flatMap candidateParts

/-- A part whose text is no string. -/
def IsMalformedPart (part : Json) : Prop :=
  ∃ text, part.find? "text" = some text ∧ ∀ chunk, text ≠ .string chunk

theorem responseParts_of_addText
    {text : Json}
    (run : Action.Finishes (addText onText text) parts history outcome after) :
    after.responseParts = parts.responseParts := by
  cases text with
  | string chunk =>
      have notified := Action.finishes_modify_bind.mp
        (Action.finishes_ofExcept_bind.mp run)
      cases onText with
      | none =>
          obtain ⟨-, -, rfl⟩ := Action.finishes_pure.mp notified
          rfl
      | some callback =>
          obtain ⟨-, rfl⟩ := Action.finishes_ofHost.mp notified
          rfl
  | _ =>
      obtain ⟨-, -, rfl⟩ :=
        (Action.finishes_throw.mp run : history = [] ∧ _ ∧ after = parts)
      rfl

/-- A visited part is recorded, however the visit ends. -/
theorem responseParts_of_applyPart
    {part : Json}
    (run : Action.Finishes (applyPart onText part) parts history outcome
      after) :
    after.responseParts = parts.responseParts ++ [part] := by
  have shown : ∀ {parts after history outcome},
      Action.Finishes (whenPresent part "text" (addText onText)) parts history
        outcome after → after.responseParts = parts.responseParts := by
    intro parts after history outcome run
    rw [whenPresent] at run
    cases found : part.find? "text" with
    | none =>
        simp only [found] at run
        obtain ⟨-, -, rfl⟩ := Action.finishes_pure.mp run
        rfl
    | some text =>
        simp only [found] at run
        exact responseParts_of_addText run
  rcases Action.finishes_bind.mp (Action.finishes_modify_bind.mp run) with
    ⟨failure, -, thrown⟩ | ⟨first, later, value, between, rfl, added, called⟩
  · exact shown thrown
  · refine Eq.trans ?_ (shown added)
    rw [whenPresent] at called
    cases found : part.find? "functionCall" with
    | none =>
        simp only [found] at called
        obtain ⟨-, -, rfl⟩ := Action.finishes_pure.mp called
        rfl
    | some call =>
        simp only [found] at called
        obtain ⟨-, -, rfl⟩ := Action.finishes_modify.mp called
        rfl

/-- A visit of parts records the first of them, and may record more. -/
theorem responseParts_of_visitAll
    {items : List Json}
    (run : Action.Finishes (visitAll (applyPart onText) items) parts history
      outcome after) :
    ∃ visited, visited.take 1 = items.take 1 ∧
      after.responseParts = parts.responseParts ++ visited := by
  induction items generalizing parts history with
  | nil =>
      obtain ⟨-, -, rfl⟩ := Action.finishes_pure.mp run
      exact ⟨[], rfl, by simp⟩
  | cons part items induction =>
      rcases Action.finishes_bind.mp run with
        ⟨failure, -, thrown⟩ |
        ⟨first, later, value, between, rfl, applied, continued⟩
      · exact ⟨[part], rfl, responseParts_of_applyPart thrown⟩
      · obtain ⟨visited, -, recorded⟩ := induction continued
        refine ⟨part :: visited, rfl, ?_⟩
        rw [recorded, responseParts_of_applyPart applied]
        simp

theorem visitAll_append
    {visit : Json → Walk agents} (first second : List Json) :
    visitAll visit (first ++ second) =
      (do
        visitAll visit first
        visitAll visit second) := by
  induction first with
  | nil => simp [visitAll]
  | cons item first induction =>
      rw [List.cons_append, visitAll, visitAll, induction]
      simp

theorem visitAll_flatMap
    {visit : Json → Walk agents} (inner : Json → List Json)
    (items : List Json) :
    visitAll visit (items.flatMap inner) =
      visitAll (fun item => visitAll visit (inner item)) items := by
  induction items with
  | nil => rfl
  | cons item items induction =>
      rw [List.flatMap_cons, visitAll_append, induction, visitAll]

/-- An event with a part leaves a trace. -/
theorem changed_of_eventParts
    {json : JsonText} {event : String} {parsed : Json}
    (isParsed : json.parse event = .ok parsed) (some : eventParts parsed ≠ [])
    (run : Action.Finishes (parseGeminiStreamChunk json onText event) parts
      history outcome after) :
    after ≠ parts := by
  obtain ⟨ended, walked⟩ := finishes_ignoreMalformed run
  rw [isParsed] at walked
  have visits := Action.finishes_ofExcept_bind.mp walked
  rw [← visitAll_flatMap] at visits
  obtain ⟨visited, same, recorded⟩ := responseParts_of_visitAll visits
  rintro rfl
  have nothing : visited = [] := by
    simpa using recorded
  rw [nothing] at same
  cases items : eventParts parsed with
  | nil => exact some items
  | cons part items' =>
      rw [eventParts] at items
      rw [items] at same
      cases same

end Parts

/-! ## Malformed events -/

section Events

variable {kind : BuiltIn} {json : JsonText} {text : Bool} {event : String}
  {prior after : TurnParts} {history : List AgentEvent}
  {outcome : Except Exception Unit}

/-- What a parser may have accumulated. -/
inductive Built (kind : BuiltIn) (json : JsonText) (text : Bool) :
    TurnParts → Prop where
  | start : Built kind json text {}
  | event {parts after : TurnParts} {event : String}
      {history : List AgentEvent} {outcome : Except Exception Unit}
      (built : Built kind json text parts)
      (run : Action.Finishes (kind.parseStreamChunk json (hostText text) event)
        parts history outcome after) :
      Built kind json text after

/-- The event is no JSON, or a member of it has the wrong type. -/
def Malformed (kind : BuiltIn) (json : JsonText) (event : String) : Prop :=
  match kind with
  | .chat provider =>
      ∃ update ∈ eventUpdates provider json event, isMalformed update = true
  | .gemini =>
      (∃ failure, json.parse event = .error failure) ∨
        ∃ parsed, json.parse event = .ok parsed ∧
          ∃ part ∈ eventParts parsed, IsMalformedPart part

/--
Nothing in front of the malformed member leaves a trace: in a chat completion
it is idle, and for Gemini there is nothing in front because the event is no
JSON.
-/
def LeavesNoTrace (kind : BuiltIn) (json : JsonText) (text : Bool)
    (calls : List Json) (event : String) : Prop :=
  match kind with
  | .chat provider =>
      Idle text calls (updatesBefore (eventUpdates provider json event))
  | .gemini => ∃ failure, json.parse event = .error failure

theorem exists_entries_of_built
    {provider : ChatProvider}
    (built : Built (.chat provider) json text prior) :
    ∃ entries, Stands prior entries := by
  induction built with
  | start => exact ⟨[], rfl⟩
  | event built run induction =>
      obtain ⟨entries, stands⟩ := induction
      rw [BuiltIn.parseStreamChunk, parseStreamChunk_eq] at run
      obtain ⟨ended, walked⟩ := finishes_ignoreMalformed run
      exact exists_entries_of_performAll stands walked

/--
An event with malformed data is ignored as a whole exactly when nothing in front
of the malformed member leaves a trace.
-/
theorem malformed_event_ignored_iff
    (built : Built kind json text prior) (malformed : Malformed kind json event)
    (run : Action.Finishes (kind.parseStreamChunk json (hostText text) event)
      prior history outcome after) :
    after = prior ∧ history = [] ↔
      LeavesNoTrace kind json text prior.calls event := by
  cases kind with
  | chat provider =>
      obtain ⟨entries, stands⟩ := exists_entries_of_built built
      rw [BuiltIn.parseStreamChunk, parseStreamChunk_eq] at run
      obtain ⟨ended, walked⟩ := finishes_ignoreMalformed run
      have found := padded_eventUpdates provider json event entries.length
      obtain ⟨shown, silent⟩ :=
        finishes_performAll_of_malformed stands found malformed walked
      refine Iff.trans ?_
        (unchanged_iff_idle stands (padded_updatesBefore found))
      constructor
      · rintro ⟨rfl, rfl⟩
        have quiet : ¬ Shows text
            (updatesBefore (eventUpdates provider json event)) :=
          fun shows => shown shows rfl
        exact ⟨quiet, (silent quiet).2.symm⟩
      · rintro ⟨quiet, same⟩
        obtain ⟨nothing, ends⟩ := silent quiet
        exact ⟨ends.trans same, nothing⟩
  | gemini =>
      constructor
      · rintro ⟨same, -⟩
        rcases malformed with failed | ⟨parsed, isParsed, part, isPart, -⟩
        · exact failed
        · exact absurd same (changed_of_eventParts isParsed
            (List.ne_nil_of_mem isPart) run)
      · rintro ⟨failure, failed⟩
        obtain ⟨ended, walked⟩ := finishes_ignoreMalformed run
        rw [failed] at walked
        obtain ⟨rfl, -, rfl⟩ :=
          (Action.finishes_throw.mp walked :
            history = [] ∧ ended = .error failure ∧ after = prior)
        exact ⟨rfl, rfl⟩

end Events

/-! ## An event that is half applied -/

/-- A text, and behind it a change whose index is no number. -/
def greetingEvent : String :=
  "\x7b\"choices\":[\x7b\"delta\":\x7b\"content\":\"Hi\","
    ++ "\"tool_calls\":[\x7b\"index\":\"0\"\x7d]\x7d\x7d]\x7d"

def greetingDelta : Json :=
  .object
    [("content", .string "Hi"),
      ("tool_calls", .array [.object [("index", .string "0")]])]

/-- The change without the text. -/
def bareEvent : String :=
  "\x7b\"choices\":[\x7b\"delta\":\x7b"
    ++ "\"tool_calls\":[\x7b\"index\":\"0\"\x7d]\x7d\x7d]\x7d"

def bareDelta : Json :=
  .object [("tool_calls", .array [.object [("index", .string "0")]])]

/-- A text library that knows the two events. -/
def knownGreeting : JsonText :=
  .knowing
    [⟨greetingEvent,
        .object [("choices", .array [.object [("delta", greetingDelta)]])],
        by decide +kernel⟩,
      ⟨bareEvent,
        .object [("choices", .array [.object [("delta", bareDelta)]])],
        by decide +kernel⟩]

theorem finishes_greetingEvent :
    Action.Finishes
      (BuiltIn.parseStreamChunk (.chat .deepSeek) knownGreeting
        (hostText false) greetingEvent)
      {} [] (.ok ()) { text := "Hi" } := by
  exact ⟨rfl, rfl⟩

theorem malformed_greetingEvent :
    Malformed (.chat .deepSeek) knownGreeting greetingEvent := by
  have found :
      (eventUpdates .deepSeek knownGreeting greetingEvent).any isMalformed =
        true := by decide +kernel
  exact List.any_eq_true.mp found

theorem malformed_bareEvent :
    Malformed (.chat .deepSeek) knownGreeting bareEvent := by
  have found :
      (eventUpdates .deepSeek knownGreeting bareEvent).any isMalformed =
        true := by decide +kernel
  exact List.any_eq_true.mp found

theorem leavesNoTrace_bareEvent :
    LeavesNoTrace (.chat .deepSeek) knownGreeting false [] bareEvent := by
  have nothing :
      updatesBefore (eventUpdates .deepSeek knownGreeting bareEvent) = [] :=
    List.isEmpty_iff.mp (by decide +kernel)
  rw [LeavesNoTrace, nothing]
  exact ⟨nofun, nofun, nofun, nofun⟩

/-- The greeting was added to the turn. -/
theorem malformed_event_half_applied :
    ¬ ∀ (kind : BuiltIn) (json : JsonText) (text : Bool) (event : String)
        (prior after : TurnParts) (history : List AgentEvent)
        (outcome : Except Exception Unit),
      Built kind json text prior → Malformed kind json event →
      Action.Finishes (kind.parseStreamChunk json (hostText text) event)
        prior history outcome after →
      after = prior ∧ history = [] := by
  intro ignored
  obtain ⟨same, -⟩ := ignored _ _ _ _ _ _ _ _ .start malformed_greetingEvent
    finishes_greetingEvent
  exact absurd (congrArg TurnParts.text same) (by decide)

/-- The greeting in front of the change is not idle; alone it is ignored. -/
theorem malformed_event_ignored_iff_greeting :
    (({ text := "Hi" } : TurnParts) = {} ∧ ([] : List AgentEvent) = [] ↔
      LeavesNoTrace (.chat .deepSeek) knownGreeting false [] greetingEvent) ∧
      ∀ history outcome after,
        Action.Finishes
          (BuiltIn.parseStreamChunk (.chat .deepSeek) knownGreeting
            (hostText false) bareEvent)
          {} history outcome after →
        after = {} ∧ history = [] :=
  ⟨malformed_event_ignored_iff .start malformed_greetingEvent
    finishes_greetingEvent,
    fun _ _ _ run =>
      (malformed_event_ignored_iff .start malformed_bareEvent run).mpr
        leavesNoTrace_bareEvent⟩

end ArnCore.Provider.MalformedEvents
