import ArnCore.Provider.GeminiStream
import ArnCore.Provider.ModelCatalog
import ArnCore.Provider.PerformedUpdates
import ArnCore.Provider.StreamedParts
import ArnCore.Provider.SystemInstruction

/-!
# Calls and answers in the requests

A turn that calls tools is recorded before its calls are answered, and a prompt
may be left in between.  The next prompt is then recorded behind calls that
nothing answers.  As long as every prompt finds the calls of the last recorded
turn answered, every request carries each call with its answer.
-/

namespace ArnCore.Provider.PairedRequests

open ArnCore.Agent
open ArnCore.Agent.Environment
open ArnCore.Agent.PromptCourse
open ArnCore.Collections
open ArnCore.Interaction
open ArnCore.Interaction.Action
open ArnCore.Net
open ArnCore.Net.EventStream
open ArnCore.Provider.BuiltInTurn
open ArnCore.Provider.CallEntries
open ArnCore.Provider.FailedStart
open ArnCore.Provider.HistoryTrim
open ArnCore.Provider.LastRequest
open ArnCore.Provider.MalformedEvents
open ArnCore.Provider.PerformedUpdates
open ArnCore.Provider.ProviderSession
open ArnCore.Provider.StreamedCalls
open ArnCore.Provider.StreamedParts
open ArnCore.Provider.StreamUpdates
open ArnCore.Provider.SystemInstruction
open ArnCore.Tool

/-! ## Well-formed replies -/

/-- The parts of a Gemini reply. -/
def repliedParts (json : JsonText) (transfer : Transfer) : List Json :=
  (deliveredOf transfer).flatMap fun event =>
    match json.parse (String.ofList event) with
    | .ok parsed => (packets parsed).flatMap candidateParts
    | .error _ => []

/-- The calls of a reply, as its deltas or parts spell them. -/
def repliedCalls (kind : BuiltIn) (json : JsonText) (transfer : Transfer) :
    List Json :=
  match kind with
  | .chat chat =>
      let updates := (deliveredOf transfer).flatMap fun event =>
        eventUpdates chat json (String.ofList event)
      (updates.foldl entriesStep []).map CallEntry.toJson
  | .gemini => (repliedParts json transfer).filterMap (·.find? "functionCall")

/-- The name of a call. -/
def nameOfCall (kind : BuiltIn) (call : Json) : Json :=
  match kind with
  | .chat _ => member (member call "function") "name"
  | .gemini => member call "name"

/--
A reply whose calls have distinct ids and names that are not empty.  Gemini may
leave out the ids, and each of its parts is a text or a call of the model.
-/
structure WellFormed (kind : BuiltIn) (json : JsonText) (transfer : Transfer) :
    Prop where
  ids : ∀ call ∈ repliedCalls kind json transfer,
    ∀ id, call.find? "id" = some id → ∃ text, id = .string text ∧ text ≠ ""
  distinct :
    ((repliedCalls kind json transfer).filterMap (·.find? "id")).Nodup
  names : ∀ call ∈ repliedCalls kind json transfer,
    ∃ name, nameOfCall kind call = .string name ∧ name ≠ ""
  parts : kind = .gemini → ∀ part ∈ repliedParts json transfer,
    part.find? "functionResponse" = none ∧
      (part.find? "functionCall" = none ∨ part.find? "text" = none)

/-- The replies of a run are well formed. -/
def Replies (setup : SessionSetup) (event : AgentEvent) : Prop :=
  ∀ request transfer, event = ⟨AgentOp.send request, transfer⟩ →
    WellFormed setup.kind setup.json transfer

/-! ## What the parts record -/

/-- The calls are those of the recorded parts, which answer nothing. -/
structure Recorded (parts : TurnParts) : Prop where
  calls : parts.calls =
    parts.responseParts.filterMap (·.find? "functionCall")
  silent : ∀ part ∈ parts.responseParts, part.find? "functionResponse" = none

/-- What the accumulated parts of a turn satisfy. -/
def Formed (kind : BuiltIn) (parts : TurnParts) : Prop :=
  match kind with
  | .chat _ => ∃ entries, Stands parts entries
  | .gemini => Recorded parts

section Parts

variable {permits : AgentEvent → Prop} {onText : TextStreamCallback agents}

theorem stays_ignoreMalformed
    {kept : TurnParts → Prop} {walk : Walk agents}
    (walks : Stays permits kept walk) :
    Stays permits kept (ignoreMalformed walk) := by
  refine .tryCatch walks fun failure => ?_
  cases failure with
  | standard what => exact .pure ()
  | foreign => exact .throw _

theorem stays_visitAll
    {kept : TurnParts → Prop} {visit : Json → Walk agents} {items : List Json}
    (visits : ∀ item ∈ items, Stays permits kept (visit item)) :
    Stays permits kept (visitAll visit items) := by
  induction items with
  | nil => exact .pure ()
  | cons item items induction =>
      obtain ⟨first, rest⟩ := List.forall_mem_cons.mp visits
      exact .bind first fun _ => induction rest

/-- A part is a text, or its call is recorded with it. -/
theorem stays_applyPart
    {part : Json} (silent : part.find? "functionResponse" = none)
    (single : part.find? "functionCall" = none ∨ part.find? "text" = none) :
    Stays permits Recorded (applyPart onText part) := by
  unfold applyPart whenPresent
  have others : ∀ {parts : TurnParts}, Recorded parts →
      ∀ other ∈ parts.responseParts ++ [part],
        other.find? "functionResponse" = none :=
    fun recorded => List.forall_mem_append.mpr
      ⟨recorded.silent, List.forall_mem_singleton.mpr silent⟩
  cases called : part.find? "functionCall" with
  | none =>
      refine .bind (.modify fun parts recorded => ⟨?_, others recorded⟩)
        fun _ => .bind ?_ fun _ => .pure ()
      · rw [List.filterMap_append, ← recorded.calls]
        simp [called]
      · cases part.find? "text" with
        | none => exact .pure ()
        | some text =>
            exact .bind (.ofExcept _) fun chunk =>
              .bind (.modify fun _ recorded =>
                ⟨recorded.calls, recorded.silent⟩) fun _ => stays_notify _ _
  | some call =>
      rw [single.resolve_left (by simp [called])]
      intro parts recorded history outcome after run permitted
      obtain ⟨rfl, rfl, rfl⟩ := finishes_modify.mp
        (finishes_modify_bind.mp run)
      refine ⟨by simp, ?_, others recorded⟩
      rw [List.filterMap_append, ← recorded.calls]
      simp [called]

/-- The events of a well-formed reply keep the parts formed. -/
theorem delivers_formed
    {setup : SessionSetup} {text : Bool} :
    Delivers (Replies setup) (Formed setup.kind)
      (setup.kind.parseStreamChunk setup.json (hostText text)) := by
  intro request transfer permitted event delivered
  have formed := permitted request transfer rfl
  cases kind : setup.kind with
  | chat chat =>
      rintro parts ⟨entries, stands⟩ history outcome after run -
      rw [BuiltIn.parseStreamChunk, parseStreamChunk_eq] at run
      obtain ⟨ended, walked⟩ := finishes_ignoreMalformed run
      obtain ⟨rfl, -⟩ :=
        finishes_performAll stands (padded_eventUpdates ..) walked
      exact ⟨fun _ _ => trivial, _, rfl⟩
  | gemini =>
      have parts := formed.parts kind
      refine stays_ignoreMalformed (.ofExcept_bind fun parsed read => ?_)
      refine stays_visitAll fun packet visited => ?_
      refine stays_visitAll fun part inside => ?_
      have replied : part ∈ repliedParts setup.json transfer := by
        refine List.mem_flatMap.mpr ⟨event, delivered, ?_⟩
        rw [read]
        exact List.mem_flatMap.mpr ⟨packet, visited, inside⟩
      exact stays_applyPart (parts part replied).1 (parts part replied).2

theorem formed_of_accumulates
    {setup : SessionSetup} {text progress watch : Bool} {parts : TurnParts}
    (accumulates :
      Accumulates (Replies setup) setup text progress watch parts) :
    Formed setup.kind parts := by
  refine kept_of_accumulates delivers_formed ?_ accumulates
  cases setup.kind with
  | chat chat => exact ⟨[], rfl⟩
  | gemini => exact ⟨rfl, by simp⟩

end Parts

/-! ## Groups of calls and answers -/

/-- All calls of an entry are answered; Gemini's answers come from the user. -/
def GroupAnswered (kind : BuiltIn) (entry : Json) (answers : List Json) :
    Prop :=
  match kind with
  | .chat _ => ChatAnswered entry answers
  | .gemini => GeminiAnswered entry answers ∧
      ∀ answer ∈ answers, answer.find? "role" = some (.string "user")

/-- Every call is followed by its answer, and nothing else is an answer. -/
def WellPaired (kind : BuiltIn) (entries : List Json) : Prop :=
  Grouped (IsAnswer kind) (GroupAnswered kind) entries

/-- Some calls of the last turn that was recorded are not answered. -/
def LeftUnanswered (kind : BuiltIn) (entries : List Json) : Prop :=
  EndsOpen (IsAnswer kind) (GroupAnswered kind) entries

/-- A history that is well paired up to its last turn. -/
def PairedButLast (kind : BuiltIn) (entries : List Json) : Prop :=
  GroupedButLast (IsAnswer kind) (GroupAnswered kind) entries

/-- The entry of a turn records its calls. -/
def RecordsCalls (kind : BuiltIn) (entry : Json) (calls : List ToolCall) :
    Prop :=
  match kind with
  | .chat _ =>
      List.Forall₂
        (fun recorded call => recorded.find? "id" = some (.string call.id))
        (toolCallsOf entry) calls
  | .gemini =>
      List.Forall₂
        (fun recorded call => recorded.find? "name" = some (.string call.name))
        (functionCallsOf entry) calls

/-- A well-paired history, and behind it the entry of a turn with its calls. -/
def Asks (kind : BuiltIn) (calls : List ToolCall) (entries : List Json) :
    Prop :=
  ∃ front entry, entries = front ++ [entry] ∧ WellPaired kind front ∧
    ¬ IsAnswer kind entry ∧ RecordsCalls kind entry calls

/-! ## What is recorded -/

section Entries

variable {kind : BuiltIn} {setup : SessionSetup}

theorem toolCallsOf_chatMessage (role content : String) :
    toolCallsOf (chatMessage role content) = [] := by
  rw [toolCallsOf, role_chatMessage]
  simp [chatMessage, Json.find?_ofMembers]

theorem role_assistantMessage (parts : TurnParts) :
    (assistantMessage parts).find? "role" = some (.string "assistant") := by
  rw [assistantMessage, Json.find?_ofMembers]
  by_cases empty : parts.calls = []
  · simp [empty]
  · simp [empty]

theorem toolCallsOf_assistantMessage (parts : TurnParts) :
    toolCallsOf (assistantMessage parts) = parts.calls := by
  rw [toolCallsOf, role_assistantMessage, assistantMessage,
    Json.find?_ofMembers]
  by_cases empty : parts.calls = []
  · simp [empty]
  · simp [empty]

theorem not_isToolMessage_assistantMessage (parts : TurnParts) :
    ¬ IsToolMessage (assistantMessage parts) := by
  rw [IsToolMessage, role_assistantMessage]
  simp

theorem partMembers_contentEntry
    (key role : String) (parts : List Json) :
    partMembers key (GeminiProvider.contentEntry role (.array parts)) =
      parts.filterMap (·.find? key) := by
  unfold partMembers
  rw [GeminiProvider.contentEntry, Json.find?_ofMembers]
  simp

/-- The text of a prompt calls and answers nothing. -/
theorem partMembers_textPart
    {key : String} (other : key ≠ "text") (role text : String) :
    partMembers key (GeminiProvider.contentEntry role (textPart text)) = [] := by
  rw [textPart, partMembers_contentEntry]
  simp [Json.find?_ofMembers, other.symm]

/-- The entries of a prompt stand alone. -/
theorem wellPaired_promptEntries
    (conversation : Conversation) (model instruction input : String) :
    WellPaired kind
      (kind.promptEntries conversation model instruction input) := by
  cases kind with
  | gemini =>
      refine .of_alone ?_ ?_
      · refine List.forall_mem_singleton.mpr fun responds => responds ?_
        exact partMembers_textPart (by decide) _ _
      · refine List.forall_mem_singleton.mpr ⟨Or.inl ⟨?_, rfl⟩, by simp⟩
        rw [functionCallsOf, role_contentEntry]
        simp
  | chat chat =>
      have alone : ∀ role content, role ≠ "tool" →
          WellPaired (.chat chat) [chatMessage role content] := by
        intro role content other
        refine .of_alone ?_ ?_
        · exact List.forall_mem_singleton.mpr
            (not_isToolMessage_chatMessage other)
        · refine List.forall_mem_singleton.mpr ?_
          rw [GroupAnswered, ChatAnswered, toolCallsOf_chatMessage]
          exact .nil
      refine Grouped.append ?_ (alone _ _ (by decide))
      unfold BuiltIn.systemEntries
      split_ifs
      · exact alone _ _ (by decide)
      · exact .nil

/-- What an answer records calls its tools and answers nothing. -/
theorem not_isAnswer_of_answerRecord
    {parts : TurnParts} {entry : Json} (formed : Formed kind parts)
    (records : kind.answerRecord? parts = some entry) :
    ¬ IsAnswer kind entry := by
  cases kind with
  | chat chat =>
      cases records
      exact not_isToolMessage_assistantMessage parts
  | gemini =>
      simp only [BuiltIn.answerRecord?] at records
      split_ifs at records
      cases records
      intro responds
      refine responds ?_
      rw [functionResponsesOf, partMembers_contentEntry]
      exact List.filterMap_eq_nil_iff.mpr formed.silent

/-- The id of an accumulated call is the one that is read. -/
theorem id_of_readCall
    {json : JsonText} {entry : CallEntry} {call : ToolCall}
    (read : readCall json entry.toJson = .ok call) :
    entry.toJson.find? "id" = some (.string call.id) := by
  obtain ⟨arguments, -, read⟩ := bind_eq_ok.mp read
  obtain ⟨id, isId, read⟩ := bind_eq_ok.mp read
  obtain ⟨function, -, read⟩ := bind_eq_ok.mp read
  obtain ⟨name, -, read⟩ := bind_eq_ok.mp read
  obtain ⟨text, -, read⟩ := bind_eq_ok.mp read
  cases read
  have isString : entry.id = .string id := Json.eq_of_getString isId
  rw [← isString]
  rfl

theorem name_of_readFunctionCall
    {recorded : Json} {call : ToolCall}
    (read : GeminiProvider.readFunctionCall recorded = .ok call) :
    recorded.find? "name" = some (.string call.name) := by
  obtain ⟨id, -, read⟩ := bind_eq_ok.mp read
  obtain ⟨found, isMember, read⟩ := bind_eq_ok.mp read
  obtain ⟨name, isName, read⟩ := bind_eq_ok.mp read
  obtain ⟨arguments, -, read⟩ := bind_eq_ok.mp read
  cases read
  rw [← Json.eq_of_getString isName]
  exact Json.find?_of_atKey isMember

/-- The calls of a turn are those its entry records. -/
theorem recordsCalls_of_readCalls
    {json : JsonText} {parts : TurnParts} {entry : Json}
    {calls : List ToolCall} (formed : Formed kind parts)
    (records : kind.answerRecord? parts = some entry)
    (read : kind.readCalls json parts = .ok calls) :
    RecordsCalls kind entry calls := by
  cases kind with
  | chat chat =>
      obtain ⟨entries, stands⟩ := formed
      cases records
      have each := forall₂_of_mapM read
      rw [Stands] at stands
      rw [RecordsCalls, toolCallsOf_assistantMessage]
      rw [stands, List.forall₂_map_left_iff] at each ⊢
      exact each.imp fun entry call => id_of_readCall
  | gemini =>
      simp only [BuiltIn.answerRecord?] at records
      split_ifs at records
      cases records
      have each := forall₂_of_mapM read
      rw [RecordsCalls, functionCallsOf, role_contentEntry]
      simp only [partMembers_contentEntry, ← formed.calls]
      exact each.imp fun recorded call => name_of_readFunctionCall

end Entries

/-! ## Answers -/

section Answering

variable {setup : SessionSetup} {calls : List ToolCall}
  {responses : List ToolResponse} {entries answers : List Json}

theorem isToolMessage_of_answeredBy
    {json : JsonText}
    (each : List.Forall₂ (AnsweredBy json) responses answers) :
    ∀ answer ∈ answers, IsToolMessage answer := by
  induction each with
  | nil => simp
  | cons answered _ induction =>
      obtain ⟨content, -, rfl⟩ := answered
      exact List.forall_mem_cons.mpr
        ⟨isToolMessage_toolMessage _ _, induction⟩

theorem id_toolMessage (callId content : String) :
    (toolMessage callId content).find? "tool_call_id" =
      some (.string callId) := by
  rw [toolMessage, Json.find?_ofMembers]
  simp

/-- Tool messages answer the calls by their ids. -/
theorem answersCall_of_answeredBy
    {json : JsonText} {recorded : List Json}
    (records : List.Forall₂
      (fun recorded call => recorded.find? "id" = some (.string call.id))
      recorded calls)
    (responds : List.Forall₂ Responds calls responses)
    (each : List.Forall₂ (AnsweredBy json) responses answers) :
    List.Forall₂ AnswersCall recorded answers := by
  induction records generalizing responses answers with
  | nil =>
      cases responds
      cases each
      exact .nil
  | cons first _ induction =>
      cases responds with
      | cons same rest =>
          cases each with
          | cons answered others =>
              obtain ⟨content, -, rfl⟩ := answered
              refine .cons ?_ (induction rest others)
              rw [AnswersCall, id_toolMessage, first, same.1]

/-- The parts of Gemini respond to the calls by their names. -/
theorem respondsTo_of_responds
    {recorded : List Json}
    (records : List.Forall₂
      (fun recorded call => recorded.find? "name" = some (.string call.name))
      recorded calls)
    (responds : List.Forall₂ Responds calls responses) :
    List.Forall₂ RespondsTo recorded
      ((responses.map GeminiProvider.responsePart).filterMap
        (·.find? "functionResponse")) := by
  induction records generalizing responses with
  | nil =>
      cases responds
      exact .nil
  | cons first _ induction =>
      cases responds with
      | cons same rest =>
          rw [List.map_cons, List.filterMap_cons]
          refine .cons ?_ (induction rest)
          rw [RespondsTo, first, ← same.2]
          exact Json.find?_ofMembers

/-- What `continue_turn` records completes the group of the calls. -/
theorem wellPaired_of_answers
    (asks : Asks setup.kind calls entries) (pending : calls ≠ [])
    (responds : List.Forall₂ Responds calls responses)
    (answered : Answers setup responses answers) :
    WellPaired setup.kind (entries ++ answers) := by
  obtain ⟨front, entry, rfl, paired, starts, records⟩ := asks
  have group : GroupAnswered setup.kind entry answers ∧
      ∀ answer ∈ answers, IsAnswer setup.kind answer := by
    unfold Answers at answered
    revert answered records
    cases setup.kind with
    | chat chat =>
        intro each records
        exact ⟨answersCall_of_answeredBy records responds each,
          isToolMessage_of_answeredBy each⟩
    | gemini =>
        rintro rfl records
        have each := respondsTo_of_responds records responds
        rw [← partMembers_contentEntry "functionResponse" "user"] at each
        have calling : functionCallsOf entry ≠ [] := by
          intro none
          rw [RecordsCalls, none] at records
          cases records
          exact pending rfl
        refine ⟨⟨Or.inr ⟨calling, _, rfl, each⟩, ?_⟩, ?_⟩
        · simpa using role_contentEntry "user" _
        · refine List.forall_mem_singleton.mpr fun none => calling ?_
          rw [functionResponsesOf] at none
          rw [none] at each
          exact List.forall₂_nil_right_iff.mp each
  have last := Grouped.group starts group.1 group.2 .nil
  rw [List.append_nil] at last
  rw [List.append_assoc]
  exact paired.append last

end Answering

/-! ## Payloads -/

/-- The member of a payload that carries the history. -/
def historyKey : BuiltIn → String
  | .chat _ => "messages"
  | .gemini => "contents"

/-- A payload that carries a well-paired history. -/
def PairedPayload (kind : BuiltIn) (payload : Json) : Prop :=
  ∃ entries, payload.find? (historyKey kind) = some (.array entries) ∧
    WellPaired kind entries

theorem pairedPayload_iff
    {setup : SessionSetup} {instruction : String}
    {conversation : Conversation} :
    PairedPayload setup.kind (setup.payload instruction conversation) ↔
      WellPaired setup.kind conversation.entries := by
  have carried :
      (setup.payload instruction conversation).find? (historyKey setup.kind) =
        some (.array conversation.entries) := by
    cases kind : setup.kind with
    | chat chat => exact find_messages kind
    | gemini =>
        rw [historyKey, SessionSetup.payload, kind, BuiltIn.payload,
          buildGeminiPayload, Json.find?_ofMembers]
        split_ifs
        all_goals rfl
  rw [PairedPayload, carried]
  simp

/-! ## One prompt -/

/-- An event that sends no request, or one with a well-paired history. -/
def CarriesPairs (kind : BuiltIn) (event : AgentEvent) : Prop :=
  ∀ sent, event.op = .send sent → PairedPayload kind sent.payload

section Prompts

variable {setup : SessionSetup} {instruction input : String}
  {text progress watch : Bool} {locals after : Conversation}
  {history : List AgentEvent} {outcome : Except Exception ApiResult}

theorem carriesPairs_of_not_isSend
    (event : AgentEvent) (other : ¬ IsSend event) :
    CarriesPairs setup.kind event :=
  fun sent same => absurd ⟨sent, same⟩ other

theorem carriesPairs_send
    (paired : WellPaired setup.kind locals.entries)
    (sent : HttpRequest) (transfer : Transfer)
    (carries : sent.payload = setup.payload instruction locals) :
    CarriesPairs setup.kind ⟨AgentOp.send sent, transfer⟩ := by
  rintro _ ⟨⟩
  rw [carries]
  exact pairedPayload_iff.mpr paired

/-- Trimming removes nothing from a history that fits. -/
theorem trimmed_of_fits
    (fits : locals.entries.length ≤ setup.maxHistoryEntries) :
    setup.trimmed locals = locals := by
  rw [SessionSetup.trimmed, HistoryTrim.trimmed, Nat.sub_eq_zero_of_le fits,
    Nat.add_zero, List.take_append_drop]

/-- A turn that is recorded asks for its calls. -/
theorem asks_of_requested
    {turned : Except Exception ModelTurn}
    (paired : WellPaired setup.kind locals.entries)
    (requested : Requested (Replies setup) setup text progress watch locals
      turned after) :
    PairedButLast setup.kind after.entries ∧
      ∀ turn, turned = .ok turn → turn.ok = true →
        Asks setup.kind turn.toolCalls after.entries := by
  cases requested with
  | unanswered failed =>
      refine ⟨Or.inl paired, fun turn same ok => ?_⟩
      rw [failed turn same] at ok
      cases ok
  | @recorded parts entry accumulates records =>
      have formed := formed_of_accumulates accumulates
      have starts := not_isAnswer_of_answerRecord formed records
      refine ⟨Or.inr ⟨_, entry, [], rfl, paired, starts, by simp⟩, ?_⟩
      intro turn same ok
      cases read : setup.kind.readCalls setup.json parts with
      | ok calls =>
          rw [read] at same
          cases same
          exact ⟨_, entry, rfl, paired, starts,
            recordsCalls_of_readCalls formed records read⟩
      | error failure =>
          rw [read] at same
          cases failure with
          | standard what =>
              cases same
              cases ok
          | foreign => cases same

/-- Answers behind the entry of a turn, as many as there are. -/
theorem pairedButLast_of_answers
    {calls : List ToolCall} {entries answers : List Json}
    (asks : Asks setup.kind calls entries)
    (answering : ∀ answer ∈ answers, IsAnswer setup.kind answer) :
    PairedButLast setup.kind (entries ++ answers) := by
  obtain ⟨front, entry, rfl, paired, starts, -⟩ := asks
  exact Or.inr ⟨front, entry, answers, List.append_assoc .., paired, starts,
    answering⟩

/-- Behind a well-paired history all requests of a prompt carry pairs. -/
theorem paired_of_prompt
    (roles : HaveRoles locals.entries)
    (fits : locals.entries.length ≤ setup.maxHistoryEntries)
    (paired : WellPaired setup.kind locals.entries)
    (run : Finishes
      ((setup.session instruction).prompt (hostCallbacks text progress)
        (callerFlag watch) input) locals history outcome after)
    (formed : ∀ event ∈ history, Replies setup event) :
    (∀ event ∈ history, CarriesPairs setup.kind event) ∧
      PairedButLast setup.kind after.entries := by
  have trims := trimmed_of_fits fits
  have prompted : WellPaired setup.kind
      (setup.prompted instruction input locals).entries :=
    paired.append (wellPaired_promptEntries ..)
  have others := @carriesPairs_of_not_isSend setup
  have ensures : Ensures (Replies setup) (CarriesPairs setup.kind)
      (fun _ after => PairedButLast setup.kind after.entries)
      ((setup.session instruction).prompt (hostCallbacks text progress)
        (callerFlag watch) input) locals := by
    refine @ProviderSession.ensures_prompt _ _ setup instruction input text progress watch
      locals
      (fun turn after => PairedButLast setup.kind after.entries ∧
        (turn.ok = true → Asks setup.kind turn.toolCalls after.entries))
      (fun _ after => PairedButLast setup.kind after.entries)
      others roles (fun _ => Or.inl paired) (fun _ => ?_) ?_ ?_
      fun _ _ _ turned _ => turned.1
    · rw [trims]
      exact Or.inl paired
    · rw [trims]
      refine (ensures_startTurn others (carriesPairs_send prompted)).imp ?_
      rintro outcome after (⟨rfl, rfl⟩ | requested)
      · exact ⟨Or.inl paired, nofun⟩
      · obtain ⟨left, asks⟩ := asks_of_requested prompted requested
        cases outcome with
        | error failure => exact left
        | ok turn => exact ⟨left, asks turn rfl⟩
    · intro turn locals responses turned ok pending responds
      have asks := turned.2 ok
      refine (ensures_continueTurn others fun answers answered =>
        carriesPairs_send
          (wellPaired_of_answers asks pending responds answered)).imp ?_
      rintro outcome after continued
      cases continued with
      | stopped => exact ⟨turned.1, nofun⟩
      | undumped isChat begins each =>
          refine pairedButLast_of_answers asks ?_
          rw [isChat]
          exact isToolMessage_of_answeredBy each
      | requested answered requests =>
          obtain ⟨left, asks⟩ := asks_of_requested
            (wellPaired_of_answers asks pending responds answered) requests
          cases outcome with
          | error failure => exact left
          | ok turn => exact ⟨left, asks turn rfl⟩
  exact ensures run formed

/-- What the recorded entries maintain holds of all requests of a prompt. -/
theorem grows_of_prompt
    {kept : List Json → Prop}
    (adds : ∀ entries added, kept entries → (∀ entry ∈ added, Spoken entry) →
      kept (entries ++ added))
    (roles : HaveRoles locals.entries)
    (fits : locals.entries.length ≤ setup.maxHistoryEntries)
    (begins : kept (setup.prompted instruction input locals).entries)
    (run : Finishes
      ((setup.session instruction).prompt (hostCallbacks text progress)
        (callerFlag watch) input) locals history outcome after) :
    (∀ event ∈ history, ∀ sent, event.op = .send sent →
        ∃ conversation, kept conversation.entries ∧
          sent.payload = setup.payload instruction conversation) ∧
      (after = locals ∨ kept after.entries) := by
  have trims := trimmed_of_fits fits
  let shown : AgentEvent → Prop := fun event =>
    ∀ sent, event.op = .send sent →
      ∃ conversation, kept conversation.entries ∧
        sent.payload = setup.payload instruction conversation
  have others : ∀ event, ¬ IsSend event → shown event :=
    fun event other sent same => absurd ⟨sent, same⟩ other
  have sends : ∀ conversation, kept conversation.entries →
      ∀ sent transfer, sent.payload = setup.payload instruction conversation →
        shown ⟨AgentOp.send sent, transfer⟩ := by
    rintro conversation holds sent transfer carries _ ⟨⟩
    exact ⟨conversation, holds, carries⟩
  have requested : ∀ {permits : AgentEvent → Prop}
      {conversation after : Conversation} {turned},
      kept conversation.entries →
      Requested permits setup text progress watch conversation turned after →
        kept after.entries := by
    intro permits conversation after turned holds requested
    cases requested with
    | unanswered failed => exact holds
    | recorded accumulates records =>
        exact adds _ _ holds (by simpa using spoken_of_answerRecord records)
  have ensures : Ensures (fun _ => True) shown
      (fun _ after => after = locals ∨ kept after.entries)
      ((setup.session instruction).prompt (hostCallbacks text progress)
        (callerFlag watch) input) locals := by
    refine @ProviderSession.ensures_prompt _ _ setup instruction input text
      progress watch locals
      (fun turn after => (turn.ok = true → kept after.entries) ∧
        (after = locals ∨ kept after.entries))
      (fun _ after => after = locals ∨ kept after.entries)
      others roles (fun _ => Or.inl rfl) (fun _ => Or.inl trims) ?_ ?_
      fun _ _ _ turned _ => turned.2
    · rw [trims]
      refine (ensures_startTurn others (sends _ begins)).imp ?_
      rintro outcome after (⟨rfl, rfl⟩ | request)
      · exact ⟨nofun, Or.inl rfl⟩
      · have left := requested begins request
        cases outcome with
        | error failure => exact Or.inr left
        | ok turn => exact ⟨fun _ => left, Or.inr left⟩
    · intro turn locals responses turned ok pending responds
      have holds := turned.1 ok
      refine (ensures_continueTurn others fun answers answered =>
        sends _ (adds _ _ holds (spoken_of_answers answered))).imp ?_
      rintro outcome after continued
      cases continued with
      | stopped => exact ⟨fun _ => holds, Or.inr holds⟩
      | undumped isChat begins each =>
          exact Or.inr (adds _ _ holds (spoken_of_answeredBy each))
      | requested answered request =>
          have left := requested
            (adds _ _ holds (spoken_of_answers answered)) request
          cases outcome with
          | error failure => exact Or.inr left
          | ok turn => exact ⟨fun _ => left, Or.inr left⟩
  exact ensures run fun _ _ => trivial

theorem haveRoles_of_prompt
    (roles : HaveRoles locals.entries)
    (fits : locals.entries.length ≤ setup.maxHistoryEntries)
    (run : Finishes
      ((setup.session instruction).prompt (hostCallbacks text progress)
        (callerFlag watch) input) locals history outcome after) :
    HaveRoles after.entries := by
  obtain ⟨-, rfl | grown⟩ := @grows_of_prompt setup instruction input text
    progress watch locals after history outcome HaveRoles
    (fun _ _ => haveRoles_append) roles fits
    (List.forall_mem_append.mpr ⟨roles, haveRoles_promptEntries⟩) run
  · exact roles
  · exact grown

/-- The first entry of a prompt answers nothing. -/
theorem exists_promptEntries
    (kind : BuiltIn) (conversation : Conversation)
    (model instruction input : String) :
    ∃ next rest,
      kind.promptEntries conversation model instruction input =
        next :: rest ∧ ¬ IsAnswer kind next := by
  have paired := @wellPaired_promptEntries kind conversation model instruction
    input
  have filled : kind.promptEntries conversation model instruction input ≠ [] := by
    cases kind with
    | gemini => simp [BuiltIn.promptEntries]
    | chat chat => simp [BuiltIn.promptEntries]
  obtain ⟨next, rest, same⟩ := List.exists_cons_of_ne_nil filled
  rw [same] at paired
  exact ⟨next, rest, same, paired.starts next rfl⟩

/-- Behind an unanswered call no request of a prompt carries pairs. -/
theorem unpaired_of_prompt
    (roles : HaveRoles locals.entries)
    (fits : locals.entries.length ≤ setup.maxHistoryEntries)
    (unanswered : LeftUnanswered setup.kind locals.entries)
    (run : Finishes
      ((setup.session instruction).prompt (hostCallbacks text progress)
        (callerFlag watch) input) locals history outcome after) :
    ∀ event ∈ history, ∀ sent, event.op = .send sent →
      ¬ PairedPayload setup.kind sent.payload := by
  obtain ⟨next, rest, begins, other⟩ := exists_promptEntries setup.kind locals
    setup.activeModel instruction input
  obtain ⟨sends, -⟩ := @grows_of_prompt setup instruction input text progress
    watch locals after history outcome
    (fun entries => ∃ rest, entries = locals.entries ++ next :: rest)
    (by
      rintro _ added ⟨rest, rfl⟩ -
      exact ⟨rest ++ added, by simp⟩)
    roles fits ⟨rest, congrArg _ begins⟩ run
  intro event member sent same paired
  obtain ⟨conversation, ⟨rest, grown⟩, carries⟩ := sends event member sent same
  rw [carries, pairedPayload_iff, WellPaired, grown] at paired
  exact unanswered.not_grouped other paired

end Prompts

/-! ## Every sequence of calls -/

section Courses

variable {setup : SessionSetup} {instruction : String}
  {initial conversation : Conversation} {records : List PromptRecord}

/-- The history of a session never exceeds its limit. -/
def Fits (setup : SessionSetup) (record : PromptRecord) : Prop :=
  record.before.entries.length ≤ setup.maxHistoryEntries

theorem haveRoles_of_course
    (empty : initial.entries = [])
    (course : Course setup initial records instruction conversation)
    (fits : ∀ record ∈ records, Fits setup record) :
    HaveRoles conversation.entries := by
  induction course with
  | created instruction =>
      rw [empty]
      simp [HaveRoles]
  | instructed before next induction => exact induction fits
  | prompted before run induction =>
      rw [List.forall_mem_append, List.forall_mem_singleton] at fits
      exact haveRoles_of_prompt (induction fits.1) fits.2 run
  | reset before run induction =>
      rw [cleared_of_resetSession run]
      simp [HaveRoles]

/-- As long as prompts find every call answered, one is left open at most. -/
theorem paired_of_course
    (empty : initial.entries = [])
    (course : Course setup initial records instruction conversation)
    (fits : ∀ record ∈ records, Fits setup record)
    (formed : ∀ record ∈ records, ∀ event ∈ record.history,
      Replies setup event)
    (answered : ∀ record ∈ records,
      ¬ LeftUnanswered setup.kind record.before.entries) :
    (∀ record ∈ records, ∀ event ∈ record.history,
        CarriesPairs setup.kind event) ∧
      PairedButLast setup.kind conversation.entries := by
  induction course with
  | created instruction =>
      rw [empty]
      exact ⟨by simp, Or.inl .nil⟩
  | instructed before next induction => exact induction fits formed answered
  | prompted before run induction =>
      rw [List.forall_mem_append, List.forall_mem_singleton]
        at fits formed answered
      obtain ⟨carries, left⟩ := induction fits.1 formed.1 answered.1
      obtain ⟨next, after⟩ := paired_of_prompt
        (haveRoles_of_course empty before fits.1) fits.2
        (left.grouped answered.2) run formed.2
      refine ⟨List.forall_mem_append.mpr ⟨carries, ?_⟩, after⟩
      exact List.forall_mem_singleton.mpr next
  | reset before run induction =>
      obtain ⟨carries, -⟩ := induction fits formed answered
      rw [cleared_of_resetSession run]
      exact ⟨carries, Or.inl .nil⟩

/--
As long as every prompt finds the calls of the last recorded turn answered, all
requests carry well-paired histories; a prompt that finds one unanswered sends
no request that does.
-/
theorem requests_paired_of_answered
    (empty : initial.entries = [])
    (course : Course setup initial records instruction conversation)
    (fits : ∀ record ∈ records, Fits setup record)
    (formed : ∀ record ∈ records, ∀ event ∈ record.history,
      Replies setup event) :
    ((∀ record ∈ records,
        ¬ LeftUnanswered setup.kind record.before.entries) →
      ∀ record ∈ records, ∀ event ∈ record.history,
        CarriesPairs setup.kind event) ∧
    ∀ record ∈ records, LeftUnanswered setup.kind record.before.entries →
      ∀ event ∈ record.history, ∀ sent, event.op = .send sent →
        ¬ PairedPayload setup.kind sent.payload := by
  refine ⟨fun answered =>
    (paired_of_course empty course fits formed answered).1, ?_⟩
  clear formed
  induction course with
  | created instruction => simp
  | instructed before next induction => exact induction fits
  | reset before run induction => exact induction fits
  | prompted before run induction =>
      rw [List.forall_mem_append, List.forall_mem_singleton] at fits ⊢
      refine ⟨induction fits.1, fun unanswered => ?_⟩
      exact unpaired_of_prompt (haveRoles_of_course empty before fits.1) fits.2
        unanswered run

end Courses

/-! ## A prompt that is cancelled behind a call -/

/-- A session with DeepSeek and one tool. -/
def callingSetup : SessionSetup where
  kind := .chat .deepSeek
  json := knownDocuments
  errorText _ := "error"
  apiKey := "key"
  activeModel := "model"
  tools := some
    [({ name := "f", description := "", parameterSchema := .null }, false)]

/-- An answer with a text and one call. -/
def callingReply : Transfer :=
  .complete { status := 200 } [.chunk (sentStream [secondText, "[DONE]"])]

/-- Whether a tool is entered. -/
def entersTool (event : AgentEvent) : Bool :=
  event.op matches .enterTool ..

/-- The flag is set while the tool runs. -/
def cancelsInTool (history : List AgentEvent) :
    (op : AgentOp) → agents.Answer op
  | .send _ => callingReply
  | .load .cancelled => history.any entersTool
  | op => quiet op

/-- The prompt whose tool call is not answered. -/
def cancelledPrompt :
    List AgentEvent × (Except Exception ApiResult × Conversation) :=
  Program.scripted cancelsInTool
    (((callingSetup.session "").prompt (hostCallbacks false false)
      (callerFlag true) "Hello").run.run {})
    []

/-- The next prompt, which reaches no server. -/
def nextPrompt :
    List AgentEvent × (Except Exception ApiResult × Conversation) :=
  Program.scripted unreachable
    (((callingSetup.session "").prompt (hostCallbacks false false)
      (callerFlag false) "Go on").run.run cancelledPrompt.2.2)
    []

-- A record is taken apart by these two, so that its run is not computed.
theorem history_mk
    {instruction : String} {before : Conversation}
    {history : List AgentEvent} :
    (PromptRecord.mk instruction before history).history = history := rfl

theorem before_mk
    {instruction : String} {before : Conversation}
    {history : List AgentEvent} :
    (PromptRecord.mk instruction before history).before = before := rfl

def cancelledRecord : PromptRecord :=
  ⟨"", {}, cancelledPrompt.1⟩

def nextRecord : PromptRecord :=
  ⟨"", cancelledPrompt.2.2, nextPrompt.1⟩

theorem finishes_cancelledPrompt :
    Finishes
      ((callingSetup.session "").prompt (hostCallbacks false false)
        (callerFlag true) "Hello") {}
      cancelledPrompt.1 cancelledPrompt.2.1 cancelledPrompt.2.2 :=
  finishes_scripted cancelsInTool _ _

theorem finishes_nextPrompt :
    Finishes
      ((callingSetup.session "").prompt (hostCallbacks false false)
        (callerFlag false) "Go on") cancelledPrompt.2.2
      nextPrompt.1 nextPrompt.2.1 nextPrompt.2.2 :=
  finishes_scripted unreachable _ _

theorem course_cancelledRecord :
    Course callingSetup {} [cancelledRecord] "" cancelledPrompt.2.2 :=
  .prompted (.created "") finishes_cancelledPrompt

theorem course_nextRecord :
    Course callingSetup {} [cancelledRecord, nextRecord] "" nextPrompt.2.2 :=
  .prompted course_cancelledRecord finishes_nextPrompt

theorem fits_cancelledRecord : Fits callingSetup cancelledRecord :=
  Nat.zero_le _

/-- The first prompt leaves a call, and the second one sends its request. -/
theorem outcome_of_prompts :
    (cancelledPrompt.2.2.entries.length ≤ 40 ∧
      (cancelledPrompt.2.2.entries.getLast?.map fun last =>
        (toolCallsOf last).length) = some 1) ∧
      ∃ event ∈ nextPrompt.1, IsSend event := by
  decide +kernel

theorem fits_nextRecord : Fits callingSetup nextRecord := by
  rw [Fits, nextRecord, before_mk]
  exact outcome_of_prompts.1.1

theorem deliveredOf_callingReply :
    deliveredOf callingReply = [secondText.toList, "[DONE]".toList] := by
  decide +kernel

/-- The call of the reply: `f` with the id `a`. -/
theorem repliedCalls_callingReply :
    repliedCalls (.chat .deepSeek) knownDocuments callingReply =
      [CallEntry.toJson
        { id := .string "a"
          name := .string "f"
          arguments := "\x7b\x7d" }] := by
  have other : secondText ≠ "[DONE]" := by decide +kernel
  simp only [repliedCalls, deliveredOf_callingReply, List.flatMap_cons,
    List.flatMap_nil, String.ofList_toList, eventUpdates, if_neg other,
    parse_secondText, if_true]
  rfl

theorem wellFormed_callingReply :
    WellFormed (.chat .deepSeek) knownDocuments callingReply where
  ids := by
    rw [repliedCalls_callingReply]
    refine List.forall_mem_singleton.mpr ?_
    rintro id ⟨⟩
    exact ⟨"a", rfl, by decide⟩
  distinct := by
    rw [repliedCalls_callingReply]
    exact List.nodup_singleton _
  names := by
    rw [repliedCalls_callingReply]
    exact List.forall_mem_singleton.mpr ⟨"f", rfl, by decide⟩
  parts := nofun

/-- Nothing is delivered of a transfer that failed. -/
theorem wellFormed_failed (error : HttpError) :
    WellFormed (.chat .deepSeek) knownDocuments (.failed error) :=
  ⟨by simp [repliedCalls, deliveredOf], by simp [repliedCalls, deliveredOf],
    by simp [repliedCalls, deliveredOf], by simp⟩

theorem replies_cancelledRecord :
    ∀ event ∈ cancelledRecord.history, Replies callingSetup event := by
  rw [cancelledRecord, history_mk, cancelledPrompt]
  apply Program.forall_mem_scripted
  · rintro history op request transfer same
    cases same
    exact wellFormed_callingReply
  · simp

theorem replies_nextRecord :
    ∀ event ∈ nextRecord.history, Replies callingSetup event := by
  rw [nextRecord, history_mk, nextPrompt]
  apply Program.forall_mem_scripted
  · rintro history op request transfer same
    cases same
    exact wellFormed_failed _
  · simp

/-! ## A prompt that answers its call -/

/-- An answer that ends without a text or a call. -/
def closingReply : Transfer :=
  .complete { status := 200 } [.chunk (sentStream ["[DONE]"])]

/-- The model calls the tool, and stops when it is answered. -/
def callsTool : List AgentEvent → (op : AgentOp) → agents.Answer op
  | history, .send _ =>
      if history.any entersTool then closingReply else callingReply
  | _, op => quiet op

def answeredPrompt :
    List AgentEvent × (Except Exception ApiResult × Conversation) :=
  Program.scripted callsTool
    (((callingSetup.session "").prompt (hostCallbacks false false)
      (callerFlag false) "Hello").run.run {})
    []

def answeredRecord : PromptRecord :=
  ⟨"", {}, answeredPrompt.1⟩

/-- The calls in the history that a request carries. -/
def sentCalls (event : AgentEvent) : List Json :=
  match event.op with
  | .send request =>
      match request.payload.find? "messages" with
      | some (.array entries) => entries.flatMap toolCallsOf
      | _ => []
  | _ => []

theorem course_answeredRecord :
    Course callingSetup {} [answeredRecord] "" answeredPrompt.2.2 :=
  .prompted (.created "") (finishes_scripted callsTool _ _)

theorem wellFormed_closingReply :
    WellFormed (.chat .deepSeek) knownDocuments closingReply := by
  have delivered : deliveredOf closingReply = ["[DONE]".toList] := by
    decide +kernel
  have silent : repliedCalls (.chat .deepSeek) knownDocuments closingReply =
      [] := by
    simp only [repliedCalls, delivered, List.flatMap_cons, List.flatMap_nil,
      String.ofList_toList, eventUpdates, if_true]
    rfl
  exact ⟨by simp [silent], by simp [silent], by simp [silent], by simp⟩

theorem replies_answeredRecord :
    ∀ event ∈ answeredRecord.history, Replies callingSetup event := by
  rw [answeredRecord, history_mk, answeredPrompt]
  apply Program.forall_mem_scripted
  · rintro history op request transfer same
    cases same
    show WellFormed (.chat .deepSeek) knownDocuments
      (if history.any entersTool then closingReply else callingReply)
    split
    · exact wellFormed_closingReply
    · exact wellFormed_callingReply
  · simp

/-- The second request of the prompt carries the call with its answer. -/
theorem requests_paired_of_answered_answeredRecord :
    (∃ event ∈ answeredRecord.history, (sentCalls event).length = 1) ∧
      ∀ record ∈ [answeredRecord], ∀ event ∈ record.history,
        CarriesPairs (.chat .deepSeek) event := by
  have carried :
      ∃ event ∈ answeredRecord.history, (sentCalls event).length = 1 := by
    decide +kernel
  refine ⟨carried, (requests_paired_of_answered rfl course_answeredRecord
    (List.forall_mem_singleton.mpr (Nat.zero_le _))
    (List.forall_mem_singleton.mpr replies_answeredRecord)).1 ?_⟩
  refine List.forall_mem_singleton.mpr ?_
  rintro ⟨front, entry, answers, same, -⟩
  cases front <;> cases same

/-! ## A request without the answer -/

/-- A history that ends with an assistant message with calls. -/
theorem leftUnanswered_of_getLast
    {chat : ChatStream.ChatProvider} {entries : List Json} {last : Json}
    (ends : entries.getLast? = some last) (calls : toolCallsOf last ≠ []) :
    LeftUnanswered (.chat chat) entries := by
  obtain ⟨front, rfl⟩ := List.getLast?_eq_some_iff.mp ends
  refine ⟨front, last, [], rfl, ?_, by simp, ?_⟩
  · intro isTool
    apply calls
    rw [toolCallsOf, show last.find? "role" = some (.string "tool") from isTool]
    simp
  · intro answered
    exact calls (List.forall₂_nil_right_iff.mp answered)

/-- The next prompt sends the call without its answer. -/
theorem unanswered_call_sent :
    ¬ ∀ (setup : SessionSetup) (initial conversation : Conversation)
      (records : List PromptRecord) (instruction : String),
      initial.entries = [] →
        Course setup initial records instruction conversation →
        (∀ record ∈ records, Fits setup record) →
        (∀ record ∈ records, ∀ event ∈ record.history,
          Replies setup event) →
          ∀ record ∈ records, ∀ event ∈ record.history,
            CarriesPairs setup.kind event := by
  intro always
  have carries := always _ _ _ _ _ rfl course_nextRecord
    (by simp [fits_cancelledRecord, fits_nextRecord])
    (List.forall_mem_cons.mpr ⟨replies_cancelledRecord,
      List.forall_mem_singleton.mpr replies_nextRecord⟩)
    nextRecord (by simp)
  rw [nextRecord, history_mk] at carries
  obtain ⟨⟨fits, calls⟩, event, member, sent, same⟩ := outcome_of_prompts
  obtain ⟨last, ends, count⟩ := Option.map_eq_some_iff.mp calls
  have unanswered : LeftUnanswered (.chat .deepSeek)
      cancelledPrompt.2.2.entries := by
    refine leftUnanswered_of_getLast ends ?_
    rintro none
    rw [none] at count
    cases count
  have roles := haveRoles_of_course rfl course_cancelledRecord
    (List.forall_mem_singleton.mpr fits_cancelledRecord)
  exact unpaired_of_prompt roles fits unanswered finishes_nextPrompt
    event member sent same (carries event member sent same)

end ArnCore.Provider.PairedRequests
