import ArnCore.Provider.BuiltInTurn

/-!
# The updates of an event

The parsers of chat completions walk through nested arrays.  What they do on
the way depends on the event alone: it is a list of updates, performed one
after the other until one of them throws.
-/

namespace ArnCore.Provider.StreamUpdates

open ArnCore.Agent.Environment
open ArnCore.Interaction
open ArnCore.Provider.ChatStream

/-- The members of an accumulated call that a delta replaces. -/
inductive CallField where
  | id
  | type
  | name
deriving DecidableEq, Repr

/-- One step of a walk. -/
inductive Update where
  | content (text : Json)
  | pad (index : Nat)
  | field (index : Nat) (field : CallField) (value : Json)
  | fragment (index : Nat) (text : Json)
  | fails (failure : Exception)

variable {signature : Signature}

/-- `call[field] = value` -/
def assignField (field : CallField) (value call : Json) :
    Except Exception Json :=
  match field with
  | .id => call.assign "id" value
  | .type => call.assign "type" value
  | .name => assignFunction "name" value call

/-- What a step of a walk does. -/
def perform (onText : TextStreamCallback signature) :
    Update → Walk signature
  | .content text => addText onText text
  | .pad index =>
      modify fun parts => { parts with calls := padCalls parts.calls index }
  | .field index field value => updateCall index (assignField field value)
  | .fragment index text => updateCall index (appendArguments text)
  | .fails failure => throw failure

/-! ## The updates of an event -/

/-- What is done when a member is present. -/
def presentUpdates (value : Json) (key : String)
    (updates : Json → List Update) : List Update :=
  match value.find? key with
  | none => []
  | some found => updates found

/-- The updates of an element of `tool_calls`. -/
def changeUpdates (change : Json) : List Update :=
  match change.valueOr Json.getUnsigned "index" 0 with
  | .error failure => [.fails failure]
  | .ok index =>
      [.pad index] ++
        (presentUpdates change "id" (fun id => [.field index .id id]) ++
        (presentUpdates change "type" (fun type => [.field index .type type]) ++
        presentUpdates change "function" fun function =>
          presentUpdates function "name"
              (fun name => [.field index .name name]) ++
            presentUpdates function "arguments"
              fun text => [.fragment index text]))

/-- The updates of the content of a delta. -/
def contentUpdates (delta : Json) : List Update :=
  match delta.find? "content" with
  | none => []
  | some .null => []
  | some content => [.content content]

/-- The updates of a packet. -/
def packetUpdates (packet : Json) : List Update :=
  match delta? packet with
  | none => []
  | some delta =>
      contentUpdates delta ++
        match delta.valueOr Except.ok "tool_calls" (.array []) with
        | .error failure => [.fails failure]
        | .ok changes => changes.elements.flatMap changeUpdates

/-- The packets of a parsed event that a provider looks at. -/
def visitedPackets (chat : ChatProvider) (parsed : Json) : List Json :=
  match chat with
  | .deepSeek => packets parsed
  | .openRouter _ =>
      (packets parsed).filter fun packet => !packet.contains "error"

/-- The updates of an event; the end marker has none. -/
def eventUpdates (chat : ChatProvider) (json : JsonText) (event : String) :
    List Update :=
  if event = "[DONE]" then
    []
  else
    match json.parse event with
    | .error failure => [.fails failure]
    | .ok parsed => (visitedPackets chat parsed).flatMap packetUpdates

/-! ## A walk performs its updates -/

section Walks

variable {onText : TextStreamCallback signature}

/-- The steps of a walk, one after the other. -/
def performAll (onText : TextStreamCallback signature) :
    List Update → Walk signature
  | [] => pure ()
  | update :: updates => do
      perform onText update
      performAll onText updates

theorem performAll_append (first second : List Update) :
    performAll onText (first ++ second) =
      (do
        performAll onText first
        performAll onText second) := by
  induction first with
  | nil => simp [performAll]
  | cons update first induction =>
      rw [List.cons_append, performAll, performAll, induction]
      simp

theorem performAll_singleton (update : Update) :
    performAll onText [update] = perform onText update := by
  simp [performAll]

/-- An evaluation that throws ends a walk with that exception. -/
theorem ofExcept_bind
    {Value : Type} (outcome : Except Exception Value)
    {continuation : Value → Walk signature} :
    Action.ofExcept outcome >>= continuation =
      match outcome with
      | .ok value => continuation value
      | .error failure => throw failure := by
  cases outcome with
  | ok value => rfl
  | error failure => rfl

/-- Visiting the values of a loop performs the updates of each. -/
theorem performAll_flatMap
    {visit : Json → Walk signature} {updates : Json → List Update}
    (visits : ∀ item, performAll onText (updates item) = visit item)
    (items : List Json) :
    performAll onText (items.flatMap updates) = visitAll visit items := by
  induction items with
  | nil => rfl
  | cons item items induction =>
      rw [List.flatMap_cons, performAll_append, visits, induction, visitAll]

theorem performAll_present
    {value : Json} {key : String} {updates : Json → List Update}
    {action : Json → Walk signature}
    (performs : ∀ found, performAll onText (updates found) = action found) :
    performAll onText (presentUpdates value key updates) =
      whenPresent value key action := by
  unfold presentUpdates whenPresent
  cases value.find? key with
  | none => rfl
  | some found => exact performs found

theorem performAll_changeUpdates (change : Json) :
    performAll onText (changeUpdates change) = applyChange change := by
  unfold changeUpdates applyChange
  cases change.valueOr Json.getUnsigned "index" 0 with
  | error failure => exact performAll_singleton _
  | ok index =>
      have single : ∀ update,
          performAll onText [update] = perform onText update :=
        performAll_singleton
      refine (performAll_append _ _).trans ?_
      rw [performAll_append, performAll_append, single]
      rw [performAll_present fun id => single (.field index .id id),
        performAll_present fun type => single (.field index .type type),
        performAll_present fun function =>
          (performAll_append _ _).trans
            (congrArg₂ (fun first second => first >>= fun _ => second)
              (performAll_present fun name => single (.field index .name name))
              (performAll_present fun text => single (.fragment index text)))]
      rfl

theorem performAll_contentUpdates (delta : Json) :
    performAll onText (contentUpdates delta) = applyContent onText delta := by
  unfold contentUpdates applyContent
  cases delta.find? "content" with
  | none => rfl
  | some content =>
      cases content with
      | null => rfl
      | _ => exact performAll_singleton _

theorem performAll_packetUpdates (packet : Json) :
    performAll onText (packetUpdates packet) = applyPacket onText packet := by
  unfold packetUpdates applyPacket
  cases delta? packet with
  | none => rfl
  | some delta =>
      refine (performAll_append _ _).trans ?_
      rw [performAll_contentUpdates]
      refine congrArg _ (funext fun _ => ?_)
      rw [ofExcept_bind]
      cases delta.valueOr Except.ok "tool_calls" (.array []) with
      | error failure => exact performAll_singleton _
      | ok changes => exact performAll_flatMap performAll_changeUpdates _

/-- Packets that are skipped have no updates. -/
theorem visitAll_filter
    {visit : Json → Walk signature} (skipped : Json → Bool)
    (items : List Json) :
    visitAll visit (items.filter fun item => !skipped item) =
      visitAll (fun item => if skipped item then pure () else visit item)
        items := by
  induction items with
  | nil => rfl
  | cons item items induction =>
      cases skip : skipped item with
      | true =>
          rw [List.filter_cons_of_neg (by simp [skip]), induction]
          simp [visitAll, skip]
      | false =>
          rw [List.filter_cons_of_pos (by simp [skip])]
          simp [visitAll, skip, induction]

/-- A parser of chat completions performs the updates of its event. -/
theorem parseStreamChunk_eq
    (chat : ChatProvider) (json : JsonText) (event : String) :
    chat.parseStreamChunk json onText event =
      ignoreMalformed (performAll onText (eventUpdates chat json event)) := by
  by_cases done : event = "[DONE]"
  · subst done
    rw [parseStreamChunk_done]
    rfl
  · have walks : ∀ parsed,
        performAll onText ((visitedPackets chat parsed).flatMap packetUpdates) =
          visitAll (applyPacket onText) (visitedPackets chat parsed) :=
      fun parsed => performAll_flatMap performAll_packetUpdates _
    cases chat with
    | deepSeek =>
        rw [ChatProvider.parseStreamChunk, parseDeepseekStreamChunk,
          eventUpdates, if_neg done, if_neg done]
        congr 1
        rw [ofExcept_bind]
        cases json.parse event with
        | error failure => exact (performAll_singleton (.fails failure)).symm
        | ok parsed => exact (walks parsed).symm
    | openRouter config =>
        rw [ChatProvider.parseStreamChunk, parseOpenrouterStreamChunk,
          eventUpdates, if_neg done, if_neg done]
        congr 1
        rw [ofExcept_bind]
        cases json.parse event with
        | error failure => exact (performAll_singleton (.fails failure)).symm
        | ok parsed =>
            exact ((walks parsed).trans
              (visitAll_filter (fun packet => packet.contains "error")
                (packets parsed))).symm

/-- Ignoring what is malformed changes how a walk ends and nothing else. -/
theorem finishes_ignoreMalformed
    {walk : Walk signature} {parts after : TurnParts}
    {history : List (Event signature)} {outcome : Except Exception Unit}
    (run : Action.Finishes (ignoreMalformed walk) parts history outcome after) :
    ∃ ended, Action.Finishes walk parts history ended after := by
  rcases Action.finishes_tryCatch.mp run with
    ⟨value, -, body⟩ | ⟨first, later, failure, between, rfl, body, handled⟩
  · exact ⟨_, body⟩
  · cases failure with
    | standard what =>
        obtain ⟨rfl, -, rfl⟩ := Action.finishes_pure.mp handled
        rw [List.append_nil]
        exact ⟨_, body⟩
    | foreign =>
        obtain ⟨rfl, -, rfl⟩ := Action.finishes_throw.mp handled
        rw [List.append_nil]
        exact ⟨_, body⟩

end Walks

end ArnCore.Provider.StreamUpdates
