import ArnCore.Provider.CompleteResponse

/-!
# Answers that are cut short

A server may close the connection behind any event of its answer, and a turn
does not look for the end marker.  It reads the calls from the argument texts
that have arrived; a text that is no JSON becomes an empty object.  The events
of a response are followed one by one, together with the answers the callback
for text gave to them, since an exception of the callback ends an event early.
-/

namespace ArnCore.Provider.TruncatedStream

open ArnCore.Agent.Environment
open ArnCore.Collections
open ArnCore.Interaction
open ArnCore.Net
open ArnCore.Net.EventStream
open ArnCore.Provider.BuiltInTurn
open ArnCore.Provider.CallDeltas
open ArnCore.Provider.ChatStream
open ArnCore.Provider.CompleteResponse
open ArnCore.Provider.LastRequest
open ArnCore.Provider.SingleAttempt
open ArnCore.Provider.StreamUpdates
open ArnCore.Provider.StreamedCalls
open ArnCore.Tool

/-- What the callback for text made of each delta it was shown. -/
def textAnswers (history : List AgentEvent) : List (Except Exception Unit) :=
  history.filterMap fun event =>
    match event with
    | ⟨.onText _, answer⟩ => some answer
    | _ => none

theorem textAnswers_append (first second : List AgentEvent) :
    textAnswers (first ++ second) = textAnswers first ++ textAnswers second :=
  List.filterMap_append

theorem textAnswers_checkEvents (watch stop : Bool) :
    textAnswers (checkEvents watch stop) = [] := by
  cases watch with
  | false => rfl
  | true => rfl

/-! ## Delivered events -/

/--
The events of a response were handed to the parser one after the other, and the
parser returned from each.
-/
inductive Delivered (onEvent : String → Walk agents) :
    List String → TurnParts → List (Except Exception Unit) → TurnParts →
      Prop where
  | nil (parts : TurnParts) : Delivered onEvent [] parts [] parts
  | cons {event : String} {events : List String}
      {before between after : TurnParts} {history : List AgentEvent}
      {answers : List (Except Exception Unit)}
      (parses : Action.Finishes (onEvent event) before history (.ok ()) between)
      (rest : Delivered onEvent events between answers after) :
      Delivered onEvent (event :: events) before
        (textAnswers history ++ answers) after

section Delivering

variable {onEvent : String → Walk agents} {watch : Bool}
  {first second : List String} {before between after : TurnParts}
  {answers later : List (Except Exception Unit)}

theorem Delivered.append
    (start : Delivered onEvent first before answers between)
    (rest : Delivered onEvent second between later after) :
    Delivered onEvent (first ++ second) before (answers ++ later) after := by
  induction start with
  | nil parts => exact rest
  | cons parses _ induction =>
      rw [List.append_assoc]
      exact .cons parses (induction rest)

theorem delivered_of_deliver
    {events : List (List Char)} {start left : Streaming TurnParts}
    {history : List AgentEvent}
    (run : Action.Finishes (deliver onEvent events) start history (.ok ())
      left) :
    Delivered onEvent (events.map String.ofList) start.parts
      (textAnswers history) left.parts := by
  induction events generalizing start history with
  | nil =>
      obtain ⟨rfl, -, rfl⟩ := Action.finishes_pure.mp run
      exact .nil _
  | cons event events induction =>
      have handed := Action.finishes_modify_bind.mp run
      obtain ⟨parsed, rest, value, reached, rfl, parses, delivers⟩ :=
        Action.finishes_bind_ok.mp handed
      obtain ⟨parts, started, rfl⟩ := finishes_onParts.mp parses
      rw [textAnswers_append]
      exact .cons started (induction delivers)

/-- The events of the pieces of a 2xx response that was received to its end. -/
theorem delivered_of_receive
    {status : Int} {steps : List TransferStep} {pending : List Char}
    {start left : Streaming TurnParts} {history : List AgentEvent}
    {remaining : List Char}
    (success : isSuccess status = true)
    (run : Action.Finishes
      (receive onEvent (callerFlag watch) status steps pending) start history
      (.ok (some remaining)) left) :
    remaining = (SseDecoder.pushAll pending (chunksOf steps)).2 ∧
      Delivered onEvent
        ((SseDecoder.pushAll pending (chunksOf steps)).1.map String.ofList)
        start.parts (textAnswers history) left.parts := by
  induction steps generalizing start history pending with
  | nil =>
      obtain ⟨rfl, same, rfl⟩ := Action.finishes_pure.mp run
      cases same
      exact ⟨rfl, .nil _⟩
  | cons step steps induction =>
      cases step with
      | progress =>
          obtain ⟨check, rest, stop, reached, rfl, checks, continued⟩ :=
            Action.finishes_bind_ok.mp run
          obtain ⟨rfl, stop, same, rfl, -⟩ := finishes_checkEvents checks
          cases same
          rw [textAnswers_append, textAnswers_checkEvents, List.nil_append]
          cases stop with
          | true =>
              obtain ⟨-, impossible, -⟩ := Action.finishes_pure.mp continued
              cases impossible
          | false => exact induction continued
      | chunk data =>
          obtain ⟨check, rest, stop, reached, rfl, checks, continued⟩ :=
            Action.finishes_bind_ok.mp run
          obtain ⟨rfl, stop, same, rfl, -⟩ := finishes_checkEvents checks
          cases same
          rw [textAnswers_append, textAnswers_checkEvents, List.nil_append]
          cases stop with
          | true =>
              obtain ⟨-, impossible, -⟩ := Action.finishes_pure.mp continued
              cases impossible
          | false =>
              simp only [success, Bool.false_eq_true, if_false, if_true]
                at continued
              obtain
                  ⟨delivered, more, value, reached, rfl, delivers, receives⟩ :=
                Action.finishes_bind_ok.mp continued
              obtain ⟨same, others⟩ := induction receives
              have split : chunksOf (.chunk data :: steps) =
                  data :: chunksOf steps := rfl
              rw [split, SseDecoder.pushAll, textAnswers_append, List.map_append]
              exact ⟨same, (delivered_of_deliver delivers).append others⟩

/-- The events of a complete 2xx response, whatever its pieces are. -/
theorem delivered_of_absorb
    {response answered : HttpResponse} {steps : List TransferStep}
    {start left : Streaming TurnParts} {history : List AgentEvent}
    {events : List String}
    (success : isSuccess response.status = true)
    (lines : ∀ event ∈ events, SingleLine event)
    (sent : SseDecoder.ReturnsInserted (sentStream events)
      (chunksOf steps).flatten)
    (run : Action.Finishes
      (absorb onEvent (callerFlag watch) (.complete response steps)) start
      history (.ok (.ok answered)) left) :
    Delivered onEvent events start.parts (textAnswers history) left.parts := by
  have pushed : SseDecoder.pushAll [] (chunksOf steps) =
      (events.map String.toList, []) := by
    rw [SseDecoder.pushAll_eq_push_flatten
        SseDecoder.Reachable.constructed.settled,
      SseDecoder.push_returnsInserted sent, push_sentStream lines]
  obtain ⟨received, rest, pending, reached, rfl, receives, finishes⟩ :=
    Action.finishes_bind_ok.mp run
  cases pending with
  | none =>
      obtain ⟨-, impossible, -⟩ := Action.finishes_pure.mp finishes
      cases impossible
  | some pending =>
      obtain ⟨rfl, delivered⟩ := delivered_of_receive success receives
      rw [pushed] at finishes delivered
      simp only [success, if_true] at finishes
      obtain ⟨rfl, -, rfl⟩ := Action.finishes_pure.mp finishes
      rw [List.append_nil]
      simpa [List.map_map, Function.comp_def] using delivered

end Delivering

/-! ## What is applied of an event -/

/--
The packets of one event that are applied, and the answers of the callback that
are left over.  The text of a packet is added before the callback sees it; an
exception of the callback leaves out the calls of that packet and the packets
behind it.
-/
def applyPackets (shows : Bool) :
    List PacketDelta → List (Except Exception Unit) →
      List PacketDelta × List (Except Exception Unit)
  | [], answers => ([], answers)
  | packet :: packets, answers =>
      if shows && packet.content.isSome then
        match answers with
        | [] => ([], [])
        | .error _ :: later => ([{ content := packet.content }], later)
        | .ok _ :: later =>
            let rest := applyPackets shows packets later
            (packet :: rest.1, rest.2)
      else
        let rest := applyPackets shows packets answers
        (packet :: rest.1, rest.2)

/-- The packets of a stream of events that are applied. -/
def appliedPackets (shows : Bool) :
    List (List PacketDelta) → List (Except Exception Unit) → List PacketDelta
  | [], _ => []
  | carried :: events, answers =>
      let first := applyPackets shows carried answers
      first.1 ++ appliedPackets shows events first.2

/-- Packets that are not applied in full keep a part of what they carry. -/
theorem deltas_of_applyPackets
    {shows : Bool} {packets : List PacketDelta}
    {answers : List (Except Exception Unit)} :
    ∀ delta ∈ deltasOf (applyPackets shows packets answers).1,
      delta ∈ deltasOf packets := by
  fun_induction applyPackets shows packets answers with
  | case1 => simp
  | case2 => simp [deltasOf]
  | case3 => simp [deltasOf]
  | case4 packet packets shown answer later rest induction =>
      simp only [deltasOf, List.flatMap_cons, List.mem_append]
      exact fun delta => Or.imp_right (induction delta)
  | case5 packet packets answers silent rest induction =>
      simp only [deltasOf, List.flatMap_cons, List.mem_append]
      exact fun delta => Or.imp_right (induction delta)

section Walks

variable {text : Bool} {parts after : TurnParts} {history : List AgentEvent}
  {outcome : Except Exception Unit} {earlier : List PacketDelta}

/-- Changes are applied without showing anything. -/
theorem finishes_visitAll_applyChange
    {changes : List Json} {carried deltas : List CallDelta}
    (encodes : List.Forall₂ EncodesCall changes carried)
    (accumulates : Accumulates deltas parts.calls)
    (run : Action.Finishes (visitAll applyChange changes) parts history outcome
      after) :
    history = [] ∧ outcome = .ok () ∧ ∃ entries,
      after = { parts with calls := entries } ∧
        Accumulates (deltas ++ carried) entries := by
  have holds : Action.Holds (permitting fun _ => True) (fun _ _ => False)
      (fun outcome left _ => outcome = .ok () ∧ ∃ entries,
        left = { parts with calls := entries } ∧
          Accumulates (deltas ++ carried) entries)
      (visitAll applyChange changes : Walk agents) parts () :=
    holds_visitAll_applyChange encodes accumulates fun entries accumulated =>
      ⟨rfl, entries, rfl, accumulated⟩
  obtain ⟨silent, returns, applied⟩ :=
    Action.Holds.finishes holds run (by simp)
  exact ⟨List.eq_nil_iff_forall_not_mem.mpr silent, returns, applied⟩

/-- The text of a delta is added; the callback decides how the step ends. -/
theorem finishes_applyContent
    {members : List (String × Json)} {content : Option String}
    (carried : OrderedMap.find? "content" members =
        content.map Json.string ∨
      content = none ∧ OrderedMap.find? "content" members = some .null)
    (run : Action.Finishes (applyContent (hostText text) (.object members))
      parts history outcome after) :
    after = { parts with text := parts.text ++ content.getD "" } ∧
      if text && content.isSome then
        textAnswers history = [outcome]
      else
        textAnswers history = [] ∧ outcome = .ok () := by
  unfold applyContent at run
  rw [Json.find?_object] at run
  rcases carried with carried | ⟨rfl, carried⟩
  · rw [carried] at run
    cases content with
    | none =>
        obtain ⟨rfl, rfl, rfl⟩ := Action.finishes_pure.mp run
        simp [textAnswers]
    | some delta =>
        have shown := Action.finishes_modify_bind.mp
          (Action.finishes_ofExcept_bind.mp run)
        cases text with
        | false =>
            obtain ⟨rfl, rfl, rfl⟩ := Action.finishes_pure.mp shown
            simp [textAnswers]
        | true =>
            obtain ⟨⟨answer, rest, rfl, rfl, rfl⟩, rfl⟩ :=
              Action.finishes_ofHost.mp shown
            exact ⟨rfl, rfl⟩
  · rw [carried] at run
    obtain ⟨rfl, rfl, rfl⟩ := Action.finishes_pure.mp run
    simp [textAnswers]

theorem decoded_snoc
    {packet : PacketDelta} {entries : List Json}
    (decoded : Decoded earlier parts)
    (accumulates : Accumulates (deltasOf earlier ++ packet.calls) entries) :
    Decoded (earlier ++ [packet])
      { parts with
        text := parts.text ++ packet.content.getD ""
        calls := entries } where
  text := by
    rw [textOf_append, ← decoded.text, textOf_singleton]
  calls := by
    rw [deltasOf_append]
    simpa [deltasOf] using accumulates

/-- A packet is applied, or an exception of the callback leaves out its calls. -/
theorem finishes_applyPacket
    {packet : Json} {delta : PacketDelta}
    (encodes : EncodesPacket packet delta) (decoded : Decoded earlier parts)
    (run : Action.Finishes (applyPacket (hostText text) packet) parts history
      outcome after) :
    (outcome = .ok () ∧ Decoded (earlier ++ [delta]) after ∧
        textAnswers history =
          if text && delta.content.isSome then [.ok ()] else []) ∨
      ∃ failure, outcome = .error failure ∧
        Decoded (earlier ++ [{ content := delta.content }]) after ∧
        (text && delta.content.isSome) = true ∧
        textAnswers history = [.error failure] := by
  unfold applyPacket at run
  cases encodes with
  | delta _ choices found content calls =>
      obtain ⟨changes, listed, encoded⟩ := calls
      rw [delta?, choices] at run
      simp only [found] at run
      rcases Action.finishes_bind.mp run with
        ⟨failure, rfl, thrown⟩ |
        ⟨first, later, value, between, rfl, shown, continued⟩
      · obtain ⟨rfl, answered⟩ := finishes_applyContent content thrown
        by_cases shows : (text && delta.content.isSome) = true
        · rw [if_pos shows] at answered
          refine Or.inr ⟨failure, rfl, ?_, shows, answered⟩
          apply decoded_snoc decoded
          simpa using decoded.calls
        · rw [if_neg shows] at answered
          cases answered.2
      · obtain ⟨rfl, answered⟩ := finishes_applyContent content shown
        rw [valueOr_object, listed] at continued
        have walked : Action.Finishes (visitAll applyChange changes)
            { parts with text := parts.text ++ delta.content.getD "" } later
            outcome after := Action.finishes_ofExcept_bind.mp continued
        have calls : Accumulates (deltasOf earlier)
            ({ parts with text := parts.text ++ delta.content.getD "" } :
              TurnParts).calls := decoded.calls
        obtain ⟨rfl, rfl, entries, rfl, accumulates⟩ :=
          finishes_visitAll_applyChange encoded calls walked
        refine Or.inl ⟨rfl, decoded_snoc decoded accumulates, ?_⟩
        rw [List.append_nil]
        by_cases shows : (text && delta.content.isSome) = true
        · rw [if_pos shows] at answered
          rw [if_pos shows, answered]
        · rw [if_neg shows] at answered
          rw [if_neg shows, answered.1]
  | other _ noChoices =>
      rw [delta?, Json.find?_object, noChoices] at run
      obtain ⟨rfl, rfl, rfl⟩ := Action.finishes_pure.mp run
      refine Or.inl ⟨rfl, ?_, ?_⟩
      · have nothing : Accumulates
            (deltasOf earlier ++ ({} : PacketDelta).calls) after.calls := by
          simpa using decoded.calls
        simpa using decoded_snoc decoded nothing
      · simp [textAnswers]

/--
The walk over the packets of one event: a prefix of what they carry is applied,
as the answers of the callback say, and the other answers are left over.
-/
theorem finishes_visitAll_packets
    {visit : Json → Walk agents} {items : List Json}
    {carried : List PacketDelta}
    (visits : ∀ packet delta, EncodesPacket packet delta →
      visit packet = applyPacket (hostText text) packet)
    (encodes : List.Forall₂ EncodesPacket items carried)
    (decoded : Decoded earlier parts)
    (run : Action.Finishes (visitAll visit items) parts history outcome after) :
    ∃ applied, Decoded (earlier ++ applied) after ∧
      ∀ more, applyPackets text carried (textAnswers history ++ more) =
        (applied, more) := by
  induction encodes generalizing earlier parts history with
  | nil =>
      obtain ⟨rfl, -, rfl⟩ := Action.finishes_pure.mp run
      exact ⟨[], by simpa using decoded, fun more => rfl⟩
  | @cons packet delta items carried encodes _ induction =>
      rw [visitAll, visits packet delta encodes] at run
      rcases Action.finishes_bind.mp run with
        ⟨failure, rfl, thrown⟩ |
        ⟨first, later, value, between, rfl, walked, continued⟩
      · rcases finishes_applyPacket encodes decoded thrown with
          ⟨impossible, -⟩ | ⟨failure, -, added, shows, answered⟩
        · cases impossible
        · refine ⟨_, added, fun more => ?_⟩
          simp [answered, applyPackets, shows]
      · rcases finishes_applyPacket encodes decoded walked with
          ⟨-, added, answered⟩ | ⟨failure, impossible, -⟩
        · obtain ⟨applied, others, rest⟩ := induction added continued
          rw [List.append_assoc] at others
          refine ⟨delta :: applied, others, fun more => ?_⟩
          rw [textAnswers_append, answered]
          cases shows : text && delta.content.isSome with
          | false => simp [applyPackets, shows, rest more]
          | true => simp [applyPackets, shows, rest more]
        · cases impossible

variable {chat : ChatProvider} {json : JsonText} {event : String}
  {carried : List PacketDelta}

/-- What a parser applies of an event. -/
theorem finishes_parseStreamChunk
    (rejects : RejectsMarkers json) (carries : EventCarries json event carried)
    (decoded : Decoded earlier parts)
    (run : Action.Finishes (chat.parseStreamChunk json (hostText text) event)
      parts history outcome after) :
    ∃ applied, Decoded (earlier ++ applied) after ∧
      ∀ more, applyPackets text carried (textAnswers history ++ more) =
        (applied, more) := by
  cases carries with
  | done =>
      rw [parseStreamChunk_done] at run
      obtain ⟨rfl, -, rfl⟩ := Action.finishes_pure.mp run
      exact ⟨[], by simpa using decoded, fun more => rfl⟩
  | encoded encodes =>
      obtain ⟨value, parsed, encoded⟩ := encodes.packets
      have notDone := encodes.ne_done rejects
      cases chat with
      | deepSeek =>
          rw [ChatProvider.parseStreamChunk, parseDeepseekStreamChunk,
            if_neg notDone, parsed] at run
          obtain ⟨ended, walked⟩ := finishes_ignoreMalformed run
          exact finishes_visitAll_packets (fun _ _ _ => rfl) encoded decoded
            walked
      | openRouter config =>
          rw [ChatProvider.parseStreamChunk, parseOpenrouterStreamChunk,
            if_neg notDone, parsed] at run
          obtain ⟨ended, walked⟩ := finishes_ignoreMalformed run
          refine finishes_visitAll_packets (fun packet delta encodes => ?_)
            encoded decoded walked
          rw [encodes.noError]
          rfl

/-- What a response leaves in the variables of its turn. -/
theorem decoded_of_delivered
    {events : List String} {carried : List (List PacketDelta)}
    {answers : List (Except Exception Unit)}
    (rejects : RejectsMarkers json)
    (carries : List.Forall₂ (EventCarries json) events carried)
    (decoded : Decoded earlier parts)
    (delivered : Delivered (chat.parseStreamChunk json (hostText text)) events
      parts answers after) :
    Decoded (earlier ++ appliedPackets text carried answers) after := by
  induction carries generalizing earlier parts answers with
  | nil =>
      cases delivered with
      | nil => simpa [appliedPackets] using decoded
  | cons first _ induction =>
      cases delivered with
      | cons parses rest =>
          obtain ⟨applied, added, consumed⟩ :=
            finishes_parseStreamChunk rejects first decoded parses
          rw [appliedPackets, consumed, ← List.append_assoc]
          exact induction added rest

end Walks

/-! ## Reading what arrived -/

section Reading

variable {json : JsonText}

/-- How an argument text is read; a text that is no JSON is an empty object. -/
def readText (json : JsonText) (text : String) : Json :=
  match json.parse text with
  | .ok value => value
  | .error _ => .object []

/-- The call that is read from accumulated fields. -/
def readFields (json : JsonText) (fields : CallFields) : ToolCall where
  id := fields.id
  name := fields.name
  arguments := readText json fields.arguments

theorem readCall_of_fields
    {entry : Json} {fields : CallFields} (standard : StandardErrors json)
    (reads : Reads entry fields) :
    readCall json entry = .ok (readFields json fields) := by
  apply readCall_of_arguments reads
  unfold readText
  cases parsed : json.parse fields.arguments with
  | ok value => exact Or.inl rfl
  | error failure =>
      cases failure with
      | foreign => exact absurd parsed (standard _)
      | standard what => exact Or.inr ⟨what, rfl, rfl⟩

/-- Every accumulated entry is read, and its arguments are those that arrived. -/
theorem readCalls_of_accumulates
    {deltas : List CallDelta} {entries : List Json}
    (standard : StandardErrors json) (accumulates : Accumulates deltas entries) :
    entries.mapM (readCall json) = .ok
      ((List.range entries.length).map fun index =>
        readFields json (fieldsAt deltas index)) := by
  have read : ∀ (rest : List Json) (offset : Nat),
      (∀ index entry, rest[index]? = some entry →
        Reads entry (fieldsAt deltas (offset + index))) →
        rest.mapM (readCall json) = .ok
          ((List.range' offset rest.length).map fun index =>
            readFields json (fieldsAt deltas index)) := by
    intro rest
    induction rest with
    | nil => exact fun _ _ => rfl
    | cons entry rest induction =>
        intro offset reads
        have first := reads 0 entry rfl
        have others := induction (offset + 1) fun index other found => by
          have here := reads (index + 1) other found
          rwa [show offset + (index + 1) = offset + 1 + index by omega] at here
        rw [List.mapM_cons, readCall_of_fields standard first, others]
        rfl
  have all := read entries 0 fun index entry found => by
    rw [Nat.zero_add]
    exact accumulates.reads index entry found
  rwa [← List.range_eq_range'] at all

end Reading

/-! ## The turn -/

/--
The chunks of a transfer carry a prefix of an encoded answer: the connection is
closed behind the first events of its sequence.
-/
structure TruncatedAnswer (json : JsonText) (steps : List TransferStep)
    (length : Nat) (answer : String) (calls : List EncodedCall)
    (events : List String) (carried : List (List PacketDelta)) : Prop where
  delivered : List.Forall₂ (EventCarries json) events carried
  encoded : AnswerEncoded carried.flatten answer calls
  parses : ∀ call ∈ calls, json.parse call.text = .ok call.arguments
  sent : SseDecoder.ReturnsInserted (sentStream (events.take length))
    (chunksOf steps).flatten

/-- Every call of a turn that is ok has the arguments sent at its index. -/
def ArgumentsSent (calls : List EncodedCall)
    (outcome : Except Exception ModelTurn) : Prop :=
  ∀ turn, outcome = .ok turn → turn.ok = true →
    ∀ (index : Nat) (call : ToolCall), turn.toolCalls[index]? = some call →
      ∃ sent, calls[index]? = some sent ∧ call.arguments = sent.arguments

/--
At every index up to the largest one addressed, the argument text that arrived
reads as the arguments that were sent there.
-/
def ReadsAsSent (json : JsonText) (calls : List EncodedCall)
    (deltas : List CallDelta) : Prop :=
  ∀ (index : Nat) (sent : EncodedCall), calls[index]? = some sent →
    (∃ delta ∈ deltas, index ≤ delta.index) →
      readText json (fieldsAt deltas index).arguments = sent.arguments

section Turns

variable {chat : ChatProvider} {json : JsonText}
  {errorText : HttpError → String} {apiKey model : String}
  {tools : ToolRegistry agents Conversation} {text progress watch : Bool}
  {response : HttpResponse} {steps : List TransferStep} {length : Nat}
  {answer : String} {calls : List EncodedCall} {events : List String}
  {carried : List (List PacketDelta)} {locals after : Conversation}
  {history later : List AgentEvent} {outcome : Except Exception ModelTurn}

theorem deltas_of_appliedPackets
    {shows : Bool} {answers : List (Except Exception Unit)} :
    ∀ delta ∈ deltasOf (appliedPackets shows carried answers),
      delta ∈ deltasOf carried.flatten := by
  induction carried generalizing answers with
  | nil => simp [appliedPackets]
  | cons first carried induction =>
      intro delta member
      rw [appliedPackets, deltasOf_append, List.mem_append] at member
      rw [List.flatten_cons, deltasOf_append, List.mem_append]
      exact member.imp (deltas_of_applyPackets delta) (induction delta)

theorem textAnswers_of_polls
    {polls : List AgentEvent} (polled : ∀ event ∈ polls, IsPoll event) :
    textAnswers polls = [] := by
  apply List.filterMap_eq_nil_iff.mpr
  rintro ⟨op, answer⟩ member
  cases polled _ member
  rfl

/-- A prefix of an answer that is read gives the calls that arrived. -/
theorem readsAsSent_iff
    {deltas : List CallDelta} {entries : List Json} {shown : String}
    (addressed : ∀ delta ∈ deltas, delta.index < calls.length)
    (accumulates : Accumulates deltas entries) :
    ArgumentsSent calls
        (.ok
          { ok := true
            text := shown
            toolCalls := (List.range entries.length).map fun index =>
              readFields json (fieldsAt deltas index) }) ↔
      ReadsAsSent json calls deltas := by
  constructor
  · intro arguments index sent isSent reached
    have inside := (accumulates.reach index).mpr reached
    obtain ⟨other, same, read⟩ := arguments _ rfl rfl index
      (readFields json (fieldsAt deltas index)) (by simp [inside])
    rw [isSent] at same
    cases same
    exact read
  · rintro reads turn ⟨⟩ - index call found
    rw [List.getElem?_map, Option.map_eq_some_iff] at found
    obtain ⟨position, ranged, rfl⟩ := found
    obtain ⟨inside, same⟩ := List.getElem?_eq_some_iff.mp ranged
    rw [List.getElem_range] at same
    subst same
    rw [List.length_range] at inside
    obtain ⟨delta, member, reached⟩ := (accumulates.reach _).mp inside
    have below := Nat.lt_of_le_of_lt reached (addressed delta member)
    exact ⟨_, List.getElem?_eq_getElem below,
      reads _ _ (List.getElem?_eq_getElem below) ⟨delta, member, reached⟩⟩

/--
When an answer that is cut short is read as it was sent.

Take a turn of DeepSeek or OpenRouter whose last request was answered by a 2xx
response that counts as complete and carries the first events of an encoded
answer.  If the turn is ok then its calls have the arguments that were sent,
exactly when the turn was disturbed behind that request, or at every index up to
the largest one addressed the argument text that arrived reads as the arguments
that were sent.
-/
theorem truncated_arguments_iff
    (standard : StandardErrors json) (rejects : RejectsMarkers json)
    (run : ((chat.executeTurnRequest (networked json errorText) apiKey model
      tools (hostCallbacks text progress) (callerFlag watch)).run.run
        locals).Runs history (.done (outcome, after)))
    (last : LastAnswer history (.complete response steps) later)
    (success : isSuccess response.status = true)
    (truncated : TruncatedAnswer json steps length answer calls events
      carried) :
    ArgumentsSent calls outcome ↔
      Disturbed steps.length later ∨
        ReadsAsSent json calls
          (deltasOf (appliedPackets text (carried.take length)
            (textAnswers later))) := by
  obtain ⟨provider, path, headers, payload, same⟩ :=
    executeTurnRequest_eq chat (networked json errorText) apiKey model tools
      (hostCallbacks text progress) (callerFlag watch)
  rw [same] at run
  have shows : ShowsOnly (chat.parseStreamChunk json (hostText text)) :=
    @showsOnly_parseStreamChunk (.chat chat) json text
  have silently : ReadsSilently (readChatTurn (networked json errorText)) :=
    @readsSilently_readTurn (.chat chat) _
  rcases finishes_executeTurn_complete shows silently
      (reports_parseStreamChunk standard chat text) success
      (Program.runs_done_iff.mp run) last with
    ⟨undisturbed, received, polls, streaming, behind⟩ |
    ⟨disturbed, unanswered⟩
  · have carries := List.forall₂_take length truncated.delivered
    have lines := singleLine_of_carries rejects carries
    have delivered :=
      delivered_of_absorb success lines truncated.sent behind.absorbs
    have decoded := decoded_of_delivered rejects carries decoded_nil delivered
    have same : textAnswers received = textAnswers later := by
      rw [behind.split, textAnswers_append, textAnswers_of_polls behind.polls,
        List.append_nil]
    rw [same, List.nil_append] at decoded
    have addressed : ∀ delta ∈ deltasOf (appliedPackets text
        (carried.take length) (textAnswers later)),
        delta.index < calls.length := by
      intro delta member
      have sent := deltas_of_appliedPackets delta member
      obtain ⟨packet, inPrefix, inPacket⟩ := List.mem_flatMap.mp sent
      obtain ⟨event, taken, inEvent⟩ := List.mem_flatten.mp inPrefix
      exact truncated.encoded.addressed delta (List.mem_flatMap.mpr
        ⟨packet, List.mem_flatten.mpr
          ⟨event, List.mem_of_mem_take taken, inEvent⟩, inPacket⟩)
    obtain ⟨-, returns, -⟩ := BuiltIn.finishes_recorded behind.reads
    have read : streaming.parts.calls.mapM
        (readCall (networked json errorText).json) = _ :=
      readCalls_of_accumulates standard decoded.calls
    rw [read] at returns
    rw [returns, BuiltIn.recordedOutcome,
      readsAsSent_iff addressed decoded.calls]
    exact (or_iff_right undisturbed).symm
  · constructor
    · exact fun _ => Or.inl disturbed
    · intro _ turn returned ok
      rw [unanswered.failed turn returned] at ok
      cases ok

end Turns

/-! ## A call that is cut in two -/

/-- A packet with one change. -/
def changePacket (change : Json) : Json :=
  .object
    [("choices",
      .array
        [.object [("delta", .object [("tool_calls", .array [change])])]])]

/-- The change that carries the beginning of the arguments. -/
def beginningChange : Json :=
  .object
    [("function",
        .object
          [("arguments", .string "\x7b\"all\":"), ("name", .string "delete")]),
      ("id", .string "a"), ("index", .integer 0)]

/-- The change that carries the rest of the arguments. -/
def restChange : Json :=
  .object
    [("function", .object [("arguments", .string "false\x7d")]),
      ("index", .integer 0)]

def beginningEvent : String :=
  "\x7b\"choices\":[\x7b\"delta\":\x7b\"tool_calls\":[\x7b\"function\":\x7b"
    ++ "\"arguments\":\"\x7b\\\"all\\\":\",\"name\":\"delete\"\x7d,"
    ++ "\"id\":\"a\",\"index\":0\x7d]\x7d\x7d]\x7d"

def restEvent : String :=
  "\x7b\"choices\":[\x7b\"delta\":\x7b\"tool_calls\":[\x7b\"function\":\x7b"
    ++ "\"arguments\":\"false\x7d\"\x7d,\"index\":0\x7d]\x7d\x7d]\x7d"

/-- The arguments as they are sent. -/
def sentText : String := "\x7b\"all\":false\x7d"

/-- A text library that knows the two events and the arguments. -/
def knownFragments : JsonText :=
  .knowing
    [⟨beginningEvent, changePacket beginningChange, by decide +kernel⟩,
      ⟨restEvent, changePacket restChange, by decide +kernel⟩,
      ⟨sentText, .object [("all", .bool false)], by decide +kernel⟩]

/-- The connection is closed behind some of the events. -/
def fragmentChunks (length : Nat) : List TransferStep :=
  [.chunk (sentStream ([beginningEvent, restEvent].take length))]

/-- A provider that closes the connection behind some of the events. -/
def closesAfter (length : Nat) :
    List AgentEvent → (op : AgentOp) → agents.Answer op
  | _, .send _ =>
      Transfer.complete { status := 200 } (fragmentChunks length)
  | _, op => quiet op

/-- A turn of DeepSeek, run against `closesAfter`. -/
def closedRun (length : Nat) :
    List AgentEvent × (Except Exception ModelTurn × Conversation) :=
  Program.scripted (closesAfter length)
    ((ChatProvider.deepSeek.executeTurnRequest
      (networked knownFragments fun _ => "error") "key" "model" {}
      (hostCallbacks false false) (callerFlag false)).run.run {})
    []

/-- The call of the answer. -/
def deleteCall : EncodedCall where
  id := "a"
  name := "delete"
  text := sentText
  arguments := .object [("all", .bool false)]

def beginningDelta : CallDelta where
  index := 0
  id := some "a"
  name := some "delete"
  arguments := some "\x7b\"all\":"

def restDelta : CallDelta where
  index := 0
  arguments := some "false\x7d"

theorem lastAnswer_closedRun_one :
    LastAnswer (closedRun 1).1
      (.complete { status := 200 } (fragmentChunks 1)) [] :=
  .of_only (by decide +kernel)

theorem lastAnswer_closedRun_two :
    LastAnswer (closedRun 2).1
      (.complete { status := 200 } (fragmentChunks 2)) [] :=
  .of_only (by decide +kernel)

theorem parse_fragments :
    knownFragments.parse beginningEvent = .ok (changePacket beginningChange) ∧
      knownFragments.parse restEvent = .ok (changePacket restChange) ∧
      knownFragments.parse sentText = .ok (.object [("all", .bool false)]) := by
  have distinct : [beginningEvent, restEvent, sentText].Nodup := by
    decide +kernel
  refine ⟨?_, ?_, ?_⟩
  all_goals exact JsonText.parse_knowing distinct (by simp)

theorem encodesPacket_changePacket
    {change : Json} {delta : CallDelta} (encodes : EncodesCall change delta) :
    EncodesPacket (changePacket change) { calls := [delta] } :=
  .delta rfl rfl rfl (Or.inl rfl) ⟨[change], rfl, .cons encodes .nil⟩

theorem truncatedAnswer_fragments
    (length : Nat) :
    TruncatedAnswer knownFragments (fragmentChunks length) length ""
      [deleteCall] [beginningEvent, restEvent]
      [[{ calls := [beginningDelta] }], [{ calls := [restDelta] }]] where
  delivered := by
    obtain ⟨beginning, rest, -⟩ := parse_fragments
    have beginningEncodes : EncodesCall beginningChange beginningDelta :=
      ⟨rfl, rfl, rfl, rfl⟩
    have restEncodes : EncodesCall restChange restDelta := ⟨rfl, rfl, rfl, rfl⟩
    refine .cons (.encoded ⟨?_, ?_, _, beginning, Or.inl
      ⟨_, encodesPacket_changePacket beginningEncodes, rfl⟩⟩)
      (.cons (.encoded ⟨?_, ?_, _, rest, Or.inl
        ⟨_, encodesPacket_changePacket restEncodes, rfl⟩⟩) .nil)
    · decide +kernel
    · decide +kernel
    · decide +kernel
    · decide +kernel
  encoded :=
    { text := by decide
      addressed := by simp [deltasOf, beginningDelta, restDelta]
      calls := by
        rintro (_ | index) call found
        · cases found
          constructor <;>
            simp [deltasOf, beginningDelta, restDelta, deleteCall, sentText]
        · cases found }
  parses := by
    intro call member
    cases List.mem_singleton.mp member
    exact parse_fragments.2.2
  sent := by
    have same : (chunksOf (fragmentChunks length)).flatten =
        sentStream ([beginningEvent, restEvent].take length) := by
      simp [chunksOf, fragmentChunks]
    rw [same]
    exact .refl _

/-- Whether a turn is ok and calls a tool once, with an empty object. -/
def callsWithNothing : Except Exception ModelTurn → Bool
  | .ok { ok := true, toolCalls := [{ arguments := .object [], .. }], .. } =>
      true
  | _ => false

/-- The turn of the run is ok, and its call has other arguments. -/
theorem truncated_arguments_lost :
    LastAnswer (closedRun 1).1
        (.complete { status := 200 } (fragmentChunks 1)) [] ∧
      TruncatedAnswer knownFragments (fragmentChunks 1) 1 "" [deleteCall]
        [beginningEvent, restEvent]
        [[{ calls := [beginningDelta] }], [{ calls := [restDelta] }]] ∧
      ¬ ArgumentsSent [deleteCall] (closedRun 1).2.1 := by
  refine ⟨lastAnswer_closedRun_one, truncatedAnswer_fragments 1, ?_⟩
  have called : callsWithNothing (closedRun 1).2.1 = true := by decide +kernel
  intro arguments
  unfold callsWithNothing at called
  split at called
  · next same =>
      obtain ⟨sent, isSent, kept⟩ := arguments _ same rfl 0 _ rfl
      cases isSent
      cases kept
  · cases called

theorem readsAsSent_fragments :
    ReadsAsSent knownFragments [deleteCall] [beginningDelta, restDelta] := by
  rintro (_ | index) sent found -
  · cases found
    have whole : (fieldsAt [beginningDelta, restDelta] 0).arguments =
        sentText := by decide +kernel
    rw [whole, readText, parse_fragments.2.2]
    rfl
  · cases found

/--
Closed behind the first event, the stream brings what does not read as the
arguments that were sent; closed behind the second one, the arguments are those.
-/
theorem truncated_arguments_iff_closedRun :
    (ArgumentsSent [deleteCall] (closedRun 1).2.1 ↔
      Disturbed 1 [] ∨
        ReadsAsSent knownFragments [deleteCall] [beginningDelta]) ∧
      ArgumentsSent [deleteCall] (closedRun 2).2.1 := by
  have standard : StandardErrors knownFragments :=
    JsonText.parse_knowing_not_foreign
  have rejects : RejectsMarkers knownFragments :=
    ⟨JsonText.parse_unknown (by decide +kernel),
      JsonText.parse_unknown (by decide +kernel)⟩
  constructor
  · exact truncated_arguments_iff standard rejects
      (Program.runs_scripted_pair (closesAfter 1) _) lastAnswer_closedRun_one
      rfl (truncatedAnswer_fragments 1)
  · have delivered := truncated_arguments_iff standard rejects
      (Program.runs_scripted_pair (closesAfter 2) _) lastAnswer_closedRun_two
      rfl (truncatedAnswer_fragments 2)
    exact delivered.mpr (Or.inr readsAsSent_fragments)

end ArnCore.Provider.TruncatedStream
