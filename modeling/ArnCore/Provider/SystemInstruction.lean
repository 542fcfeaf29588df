import ArnCore.Provider.ProviderSession

/-!
# The system instruction in the requests

Gemini adds the instruction of the session to every payload.  The providers of
chat completions record it as the first message of an empty history, and the
history keeps it: a later instruction is sent only when the history became
empty in between.
-/

namespace ArnCore.Provider.SystemInstruction

open ArnCore.Agent
open ArnCore.Agent.Environment
open ArnCore.Agent.PromptCourse
open ArnCore.Interaction
open ArnCore.Interaction.Action
open ArnCore.Provider.BuiltInTurn
open ArnCore.Provider.FailedStart
open ArnCore.Provider.HistoryTrim
open ArnCore.Provider.LastRequest
open ArnCore.Provider.ProviderSession
open ArnCore.Provider.StreamedCalls

/-! ## Histories that begin with an instruction -/

/-- The system message of an instruction; an empty one has none. -/
def systemPart (instruction : String) : List Json :=
  if instruction = "" then [] else [chatMessage "system" instruction]

/-- An entry of another role. -/
def Spoken (entry : Json) : Prop :=
  ∃ role, entry.find? "role" = some (.string role) ∧ role ≠ "system"

/-- A history that begins with the system message of an instruction. -/
def LedBy (instruction : String) (entries : List Json) : Prop :=
  ∃ rest, entries = systemPart instruction ++ rest ∧
    ∀ entry ∈ rest, Spoken entry

/-- The instruction a history begins with. -/
def recordedInstruction : List Json → String
  | [] => ""
  | first :: _ =>
      match first.find? "role", first.find? "content" with
      | some (.string "system"), some (.string instruction) => instruction
      | _, _ => ""

theorem spoken_of_role
    {entry : Json} {role : String}
    (named : entry.find? "role" = some (.string role))
    (other : role ≠ "system") : Spoken entry :=
  ⟨role, named, other⟩

theorem not_isSystemMessage_of_spoken
    {entry : Json} (spoken : Spoken entry) : ¬ IsSystemMessage entry := by
  obtain ⟨role, named, other⟩ := spoken
  intro system
  rw [IsSystemMessage, named] at system
  cases system
  exact other rfl

theorem content_chatMessage (role text : String) :
    (chatMessage role text).find? "content" = some (.string text) := by
  rw [chatMessage, Json.find?_ofMembers]
  rfl

namespace LedBy

variable {instruction other : String} {entries added : List Json}

theorem nil : LedBy "" [] :=
  ⟨[], rfl, by simp⟩

theorem append
    (led : LedBy instruction entries)
    (spoken : ∀ entry ∈ added, Spoken entry) :
    LedBy instruction (entries ++ added) := by
  obtain ⟨rest, rfl, others⟩ := led
  exact ⟨rest ++ added, List.append_assoc _ _ _,
    List.forall_mem_append.mpr ⟨others, spoken⟩⟩

/-- The instruction can be read off a history. -/
theorem recorded_eq
    (led : LedBy instruction entries) :
    recordedInstruction entries = instruction := by
  obtain ⟨rest, rfl, spoken⟩ := led
  by_cases empty : instruction = ""
  · subst empty
    rw [systemPart, if_pos rfl, List.nil_append]
    cases rest with
    | nil => rfl
    | cons first rest =>
        obtain ⟨role, named, other⟩ := spoken first List.mem_cons_self
        simp only [recordedInstruction, named]
        split
        · rename_i same _
          cases same
          exact absurd rfl other
        · rfl
  · rw [systemPart, if_neg empty]
    simp [recordedInstruction, role_chatMessage, content_chatMessage]

theorem roles
    (led : LedBy instruction entries) : HaveRoles entries := by
  obtain ⟨rest, rfl, spoken⟩ := led
  rintro entry member
  rcases List.mem_append.mp member with system | others
  · unfold systemPart at system
    split_ifs at system
    · cases system
    · rw [List.mem_singleton.mp system]
      exact ⟨_, role_chatMessage _ _⟩
  · obtain ⟨role, named, -⟩ := spoken entry others
    exact ⟨role, named⟩

/-- Trimming keeps the system message. -/
theorem trimmed
    {chat : ChatStream.ChatProvider} {maxEntries : Nat}
    (led : LedBy instruction entries) :
    LedBy instruction (HistoryTrim.trimmed (.chat chat) maxEntries entries) := by
  obtain ⟨rest, rfl, spoken⟩ := led
  have few : ∀ count, ∀ entry ∈ rest.drop count, Spoken entry :=
    fun count entry member => spoken entry (List.mem_of_mem_drop member)
  by_cases empty : instruction = ""
  · subst empty
    rw [systemPart, if_pos rfl, List.nil_append]
    cases rest with
    | nil => exact ⟨[], by simp [HistoryTrim.trimmed, systemPart], by simp⟩
    | cons first rest =>
        have position : keptFrom (.chat chat) (first :: rest) = 0 := by
          rcases @keptFrom_eq chat first rest with ⟨system, -⟩ | ⟨-, zero⟩
          · exact absurd system
              (not_isSystemMessage_of_spoken (spoken first List.mem_cons_self))
          · exact zero
        rw [HistoryTrim.trimmed, position, List.take_zero, List.nil_append]
        exact ⟨_, rfl, few _⟩
  · have system : systemPart instruction =
        [chatMessage "system" instruction] := if_neg empty
    have position : keptFrom (.chat chat)
        (chatMessage "system" instruction :: rest) = 1 := by
      simp [keptFrom, role_chatMessage]
    rw [system, List.singleton_append, HistoryTrim.trimmed, position,
      Nat.add_comm 1, List.drop_succ_cons]
    refine ⟨rest.drop ((chatMessage "system" instruction :: rest).length
      - maxEntries), ?_, few _⟩
    rw [system]
    rfl

/-- Trimming a history without system messages. -/
theorem trimmed_gemini
    {maxEntries : Nat} (led : LedBy "" entries) :
    LedBy "" (HistoryTrim.trimmed .gemini maxEntries entries) := by
  obtain ⟨rest, rfl, spoken⟩ := led
  exact ⟨_, rfl, fun entry member =>
    spoken entry (List.mem_of_mem_drop member)⟩

end LedBy

/-! ## What a provider records -/

section Recording

variable {setup : SessionSetup} {text progress watch : Bool}
  {permits : AgentEvent → Prop}

theorem role_contentEntry (role : String) (parts : Json) :
    (GeminiProvider.contentEntry role parts).find? "role" =
      some (.string role) := by
  rw [GeminiProvider.contentEntry, Json.find?_ofMembers]
  simp

theorem spoken_contentEntry
    (role : String) (parts : Json) (other : role ≠ "system") :
    Spoken (GeminiProvider.contentEntry role parts) :=
  spoken_of_role (role_contentEntry role parts) other

theorem spoken_chatMessage
    (role content : String) (other : role ≠ "system") :
    Spoken (chatMessage role content) :=
  spoken_of_role (role_chatMessage role content) other

theorem spoken_toolMessage (callId content : String) :
    Spoken (toolMessage callId content) := by
  refine @spoken_of_role _ "tool" ?_ (by decide)
  rw [toolMessage, Json.find?_ofMembers]
  rfl

/-- An answer is recorded in the role of the assistant or of the model. -/
theorem spoken_of_answerRecord
    {kind : BuiltIn} {parts : TurnParts} {entry : Json}
    (records : kind.answerRecord? parts = some entry) : Spoken entry := by
  cases kind with
  | chat chat =>
      cases records
      refine @spoken_of_role _ "assistant" ?_ (by decide)
      rw [assistantMessage, Json.find?_ofMembers]
      split_ifs
      all_goals rfl
  | gemini =>
      simp only [BuiltIn.answerRecord?] at records
      split_ifs at records
      cases records
      exact spoken_contentEntry _ _ (by decide)

theorem spoken_of_answeredBy
    {json : JsonText} {responses : List ToolResponse}
    {answers : List Json}
    (each : List.Forall₂ (AnsweredBy json) responses answers) :
    ∀ entry ∈ answers, Spoken entry := by
  induction each with
  | nil => simp
  | cons answered _ induction =>
      obtain ⟨content, -, rfl⟩ := answered
      exact List.forall_mem_cons.mpr ⟨spoken_toolMessage _ _, induction⟩

theorem spoken_of_answers
    {responses : List ToolResponse} {answers : List Json}
    (answered : Answers setup responses answers) :
    ∀ entry ∈ answers, Spoken entry := by
  unfold Answers at answered
  cases kind : setup.kind with
  | chat chat =>
      rw [kind] at answered
      exact spoken_of_answeredBy answered
  | gemini =>
      rw [kind] at answered
      obtain rfl := answered
      simpa using spoken_contentEntry "user" _ (by decide)

theorem haveRoles_append
    {entries added : List Json} (roles : HaveRoles entries)
    (spoken : ∀ entry ∈ added, Spoken entry) :
    HaveRoles (entries ++ added) := by
  refine List.forall_mem_append.mpr ⟨roles, fun entry member => ?_⟩
  obtain ⟨role, named, -⟩ := spoken entry member
  exact ⟨role, named⟩

theorem haveRoles_promptEntries
    {kind : BuiltIn} {conversation : Conversation}
    {model instruction input : String} :
    HaveRoles (kind.promptEntries conversation model instruction input) := by
  cases kind with
  | gemini => exact List.forall_mem_singleton.mpr ⟨_, role_contentEntry _ _⟩
  | chat chat =>
      have named : ∀ role content, HaveRoles [chatMessage role content] :=
        fun role content =>
          List.forall_mem_singleton.mpr ⟨role, role_chatMessage role content⟩
      refine List.forall_mem_append.mpr ⟨?_, named _ _⟩
      unfold BuiltIn.systemEntries
      split_ifs
      · exact named _ _
      · simp

end Recording

/-! ## What a payload carries -/

/-- Messages whose only system message is the instruction, at the front. -/
def Instructed (instruction : String) (messages : List Json) : Prop :=
  ∃ rest, messages = systemPart instruction ++ rest ∧
    ∀ message ∈ rest, ¬ IsSystemMessage message

/-- The instruction is the only system-level content of a payload. -/
def CarriesInstruction (kind : BuiltIn) (instruction : String)
    (payload : Json) : Prop :=
  match kind with
  | .chat _ => ∃ messages, payload.find? "messages" = some (.array messages) ∧
      Instructed instruction messages
  | .gemini =>
      payload.find? "systemInstruction" =
          (if instruction = "" then none
          else some (.ofMembers [("parts", textPart instruction)])) ∧
        ∃ contents, payload.find? "contents" = some (.array contents) ∧
          ∀ content ∈ contents, ¬ IsSystemMessage content

theorem false_of_systemPart
    {first : String} {rest spoken : List Json} (filled : first ≠ "")
    (same : systemPart first ++ rest = spoken)
    (others : ∀ message ∈ spoken, ¬ IsSystemMessage message) : False := by
  rw [systemPart, if_neg filled] at same
  subst same
  exact others _ (by simp) (role_chatMessage "system" first)

theorem LedBy.instructed_iff
    {first instruction : String} {messages : List Json}
    (led : LedBy first messages) :
    Instructed instruction messages ↔ first = instruction := by
  obtain ⟨rest, rfl, spoken⟩ := led
  have silent : ∀ message ∈ rest, ¬ IsSystemMessage message :=
    fun message member =>
      not_isSystemMessage_of_spoken (spoken message member)
  constructor
  · rintro ⟨others, same, quiet⟩
    by_cases begins : first = ""
    · by_cases empty : instruction = ""
      · rw [begins, empty]
      · rw [begins, systemPart, if_pos rfl, List.nil_append] at same
        exact (false_of_systemPart empty same.symm
          silent).elim
    · by_cases empty : instruction = ""
      · subst empty
        exact (false_of_systemPart begins same quiet).elim
      · rw [systemPart, systemPart, if_neg begins, if_neg empty] at same
        have contents := congrArg (Json.find? · "content")
          (List.cons.inj same).1
        simpa [content_chatMessage] using contents
  · rintro rfl
    exact ⟨rest, rfl, silent⟩

section Payloads

variable {setup : SessionSetup} {conversation : Conversation}
  {instruction first : String}

theorem find_messages
    {chat : ChatStream.ChatProvider} (isChat : setup.kind = .chat chat) :
    (setup.payload instruction conversation).find? "messages" =
      some (.array conversation.entries) := by
  rw [SessionSetup.payload, isChat]
  cases chat with
  | deepSeek =>
      rw [BuiltIn.payload, buildDeepseekPayload, Json.find?_ofMembers,
        chatToolMembers]
      split_ifs
      all_goals rfl
  | openRouter config =>
      rw [BuiltIn.payload, buildOpenrouterPayload, Json.find?_ofMembers,
        chatToolMembers]
      split_ifs
      all_goals rfl

/-- A payload carries the instruction its history begins with. -/
theorem carriesInstruction_chat_iff
    {chat : ChatStream.ChatProvider} (isChat : setup.kind = .chat chat)
    (led : LedBy first conversation.entries) :
    CarriesInstruction setup.kind instruction
        (setup.payload instruction conversation) ↔
      first = instruction := by
  rw [← led.instructed_iff, isChat]
  simp only [CarriesInstruction, find_messages isChat, Option.some.injEq,
    Json.array.injEq, exists_eq_left']

/-- A payload of Gemini carries the instruction it was built with. -/
theorem carriesInstruction_gemini
    (isGemini : setup.kind = .gemini)
    (led : LedBy "" conversation.entries) :
    CarriesInstruction setup.kind instruction
      (setup.payload instruction conversation) := by
  obtain ⟨rest, same, spoken⟩ := led
  rw [isGemini, SessionSetup.payload, isGemini]
  have find : ∀ key, (BuiltIn.gemini.payload setup.activeModel instruction
      setup.registry conversation).find? key =
        Collections.OrderedMap.find? key _ := fun key => by
    rw [BuiltIn.payload, buildGeminiPayload, Json.find?_ofMembers]
  constructor
  · rw [find]
    split_ifs
    all_goals rfl
  · refine ⟨conversation.entries, ?_, ?_⟩
    · rw [find]
      split_ifs
      all_goals rfl
    · rw [same]
      exact fun content member =>
        not_isSystemMessage_of_spoken (spoken content member)

end Payloads

/-! ## One prompt -/

/-- The model supports system instructions, as far as the provider knows. -/
def Supports (setup : SessionSetup) (conversation : Conversation) : Prop :=
  ∀ chat, setup.kind = .chat chat →
    (BuiltIn.capabilities chat conversation
      setup.activeModel).supportsSystemInstruction = true

/-- The instruction in front of the requests of a prompt. -/
def leadOf (setup : SessionSetup) (first instruction : String)
    (entries : List Json) : String :=
  match setup.kind with
  | .chat _ => if entries = [] then instruction else first
  | .gemini => first

/-- The history begins with some instruction; Gemini records none. -/
def Kept (setup : SessionSetup) (first : String) (conversation : Conversation) :
    Prop :=
  (setup.kind = .gemini → first = "") ∧ LedBy first conversation.entries ∧
    Supports setup conversation

/-- What is sent is built from a history that begins with an instruction. -/
def Shows (setup : SessionSetup) (instruction first : String)
    (event : AgentEvent) : Prop :=
  ∀ sent, event.op = .send sent →
    ∃ conversation, LedBy first conversation.entries ∧
      sent.payload = setup.payload instruction conversation

section Prompts

variable {setup : SessionSetup} {instruction first input : String}
  {text progress watch : Bool} {locals after : Conversation}

theorem shows_of_not_isSend
    (event : AgentEvent) (other : ¬ IsSend event) :
    Shows setup instruction first event :=
  fun sent same => absurd ⟨sent, same⟩ other

theorem shows_send
    {sent : Net.HttpRequest} {transfer : Net.Transfer}
    (led : LedBy first locals.entries)
    (carries : sent.payload = setup.payload instruction locals) :
    Shows setup instruction first ⟨AgentOp.send sent, transfer⟩ := by
  rintro other ⟨⟩
  exact ⟨locals, led, carries⟩

theorem Kept.extended
    {entries : List Json} (kept : Kept setup first locals)
    (spoken : ∀ entry ∈ entries, Spoken entry) :
    Kept setup first (extended locals entries) :=
  ⟨kept.1, kept.2.1.append spoken, kept.2.2⟩

theorem Kept.trimmed
    (kept : Kept setup first locals) :
    Kept setup first (setup.trimmed locals) := by
  refine ⟨kept.1, ?_, kept.2.2⟩
  unfold SessionSetup.trimmed
  cases kind : setup.kind with
  | chat chat => exact kept.2.1.trimmed
  | gemini =>
      have led := kept.2.1
      rw [kept.1 kind] at led ⊢
      exact led.trimmed_gemini

/-- Recording a prompt puts the instruction in front of an empty history. -/
theorem Kept.recordPrompt
    (kept : Kept setup first locals) :
    Kept setup (leadOf setup first instruction locals.entries)
      (setup.prompted instruction input locals) := by
  obtain ⟨silent, led, supports⟩ := kept
  refine ⟨?_, ?_, supports⟩
  · intro isGemini
    rw [leadOf, isGemini]
    exact silent isGemini
  unfold leadOf SessionSetup.prompted FailedStart.prompted FailedStart.extended
  cases kind : setup.kind with
  | gemini =>
      exact led.append (by
        simpa [BuiltIn.promptEntries] using
          spoken_contentEntry "user" _ (by decide))
  | chat chat =>
      have user : ∀ content, ∀ entry ∈ [chatMessage "user" content],
          Spoken entry := by
        intro content
        simpa using spoken_chatMessage "user" content (by decide)
      simp only [BuiltIn.promptEntries, BuiltIn.systemEntries,
        supports chat kind, and_true]
      split_ifs with empty recorded recorded
      · have system : LedBy instruction
            [chatMessage "system" instruction] :=
          ⟨[], by rw [systemPart, if_neg recorded.2]; rfl, by simp⟩
        rw [empty, List.nil_append]
        exact system.append (user _)
      · have none : instruction = "" := by
          by_contra filled
          exact recorded ⟨empty, filled⟩
        rw [empty, none]
        exact ⟨_, rfl, user _⟩
      · exact absurd recorded.1 empty
      · exact led.append (user _)

theorem Kept.requested
    {permits : AgentEvent → Prop} {outcome : Except Exception ModelTurn}
    (kept : Kept setup first locals)
    (requested : Requested permits setup text progress watch locals outcome
      after) :
    Kept setup first after := by
  cases requested with
  | unanswered failed => exact kept
  | recorded accumulates records =>
      exact kept.extended (by simpa using spoken_of_answerRecord records)

theorem Kept.continued
    {permits : AgentEvent → Prop} {responses : List ToolResponse}
    {outcome : Except Exception ModelTurn}
    (kept : Kept setup first locals)
    (continued : Continued permits setup text progress watch responses locals
      outcome after) :
    Kept setup first after := by
  cases continued with
  | stopped => exact kept
  | undumped isChat begins each =>
      exact kept.extended (spoken_of_answeredBy each)
  | requested answered requests =>
      exact (kept.extended (spoken_of_answers answered)).requested requests

/-- A prompt sends one instruction only, and leaves a history of that kind. -/
theorem Kept.prompt
    {history : List AgentEvent} {outcome : Except Exception ApiResult}
    (kept : Kept setup first locals)
    (run : Finishes
      ((setup.session instruction).prompt (hostCallbacks text progress)
        (callerFlag watch) input) locals history outcome after) :
    (∀ event ∈ history, Shows setup instruction
        (leadOf setup first instruction (setup.trimmed locals).entries)
        event) ∧
      ∃ next, Kept setup next after := by
  generalize lead : leadOf setup first instruction
    (setup.trimmed locals).entries = next
  have begun : Kept setup next
      (setup.prompted instruction input (setup.trimmed locals)) :=
    lead ▸ kept.trimmed.recordPrompt
  have others := @shows_of_not_isSend setup instruction next
  have ensures : Ensures (fun _ => True) (Shows setup instruction next)
      (fun _ after => ∃ next, Kept setup next after)
      ((setup.session instruction).prompt (hostCallbacks text progress)
        (callerFlag watch) input) locals := by
    refine @ensures_prompt _ _ setup instruction input text progress watch
      locals
      (fun turn after => (turn.ok = true → Kept setup next after) ∧
        ∃ next, Kept setup next after)
      (fun _ after => ∃ next, Kept setup next after)
      others kept.2.1.roles (fun _ => ⟨_, kept⟩)
      (fun _ => ⟨_, kept.trimmed⟩) ?_ ?_ fun _ _ _ turned _ => turned.2
    · refine (ensures_startTurn others fun sent transfer =>
        shows_send begun.2.1).imp ?_
      rintro outcome after (⟨rfl, rfl⟩ | requested)
      · exact ⟨nofun, _, kept.trimmed⟩
      · have left := begun.requested requested
        cases outcome with
        | error failure => exact ⟨_, left⟩
        | ok turn => exact ⟨fun _ => left, _, left⟩
    · intro turn locals responses turned ok pending answers
      have kept := turned.1 ok
      refine (ensures_continueTurn others fun answers answered sent transfer =>
        shows_send (kept.extended (spoken_of_answers answered)).2.1).imp ?_
      intro outcome after continued
      have left := kept.continued continued
      cases outcome with
      | error failure => exact ⟨_, left⟩
      | ok turn => exact ⟨fun _ => left, _, left⟩
  exact ensures run fun _ _ => trivial

end Prompts

/-! ## Every sequence of calls -/

/-- Every request of a prompt carries the instruction in force. -/
def Carries (kind : BuiltIn) (record : PromptRecord) : Prop :=
  ∀ event ∈ record.history, ∀ sent, event.op = .send sent →
    CarriesInstruction kind record.instruction sent.payload

/--
The trimmed history a prompt starts with is empty, or it begins with the
instruction in force.  Gemini records no instruction.
-/
def Current (setup : SessionSetup) (record : PromptRecord) : Prop :=
  match setup.kind with
  | .chat _ =>
      (setup.trimmed record.before).entries = [] ∨
        recordedInstruction (setup.trimmed record.before).entries =
          record.instruction
  | .gemini => True

section Courses

variable {setup : SessionSetup} {instruction input : String}
  {text progress watch : Bool} {initial conversation after : Conversation}
  {history : List AgentEvent} {records : List PromptRecord}

theorem kept_of_course
    (empty : initial.entries = []) (supports : Supports setup initial)
    (course : Course setup initial records instruction conversation) :
    ∃ first, Kept setup first conversation := by
  induction course with
  | created instruction =>
      exact ⟨"", fun _ => rfl, empty ▸ .nil, supports⟩
  | instructed before next induction => exact induction
  | prompted before run induction =>
      obtain ⟨first, kept⟩ := induction
      exact (kept.prompt run).2
  | reset before run induction =>
      obtain ⟨first, kept⟩ := induction
      rw [cleared_of_resetSession run]
      exact ⟨"", fun _ => rfl, .nil, kept.2.2⟩

/-- The prompts of one session, one by one. -/
theorem carries_iff_current
    {first : String} {outcome : Except Exception ApiResult}
    (kept : Kept setup first conversation)
    (run : Finishes
      ((setup.session instruction).prompt (hostCallbacks text progress)
        (callerFlag watch) input) conversation history outcome after) :
    Carries setup.kind ⟨instruction, conversation, history⟩ ↔
      (PromptRecord.Sends ⟨instruction, conversation, history⟩ →
        Current setup ⟨instruction, conversation, history⟩) := by
  obtain ⟨shows, -⟩ := kept.prompt run
  have ready := kept.trimmed
  unfold Current
  dsimp only
  cases kind : setup.kind with
  | gemini =>
      refine iff_of_true ?_ fun _ => trivial
      intro event member sent same
      obtain ⟨other, led, carries⟩ := shows event member sent same
      simp only [leadOf, kind] at led
      rw [kept.1 kind] at led
      rw [carries, ← kind]
      exact carriesInstruction_gemini kind led
  | chat chat =>
      have lead : leadOf setup first instruction
            (setup.trimmed conversation).entries = instruction ↔
          (setup.trimmed conversation).entries = [] ∨
            recordedInstruction (setup.trimmed conversation).entries =
              instruction := by
        rw [ready.2.1.recorded_eq]
        simp only [leadOf, kind]
        split_ifs with empty
        · simp [empty]
        · simp [empty]
      rw [← lead]
      constructor
      · rintro carries ⟨event, member, sent, same⟩
        obtain ⟨other, led, payload⟩ := shows event member sent same
        have carried := carries event member sent same
        rw [payload, ← kind] at carried
        exact (carriesInstruction_chat_iff kind led).mp carried
      · intro current event member sent same
        obtain ⟨other, led, payload⟩ := shows event member sent same
        rw [payload, ← kind]
        exact (carriesInstruction_chat_iff kind led).mpr
          (current ⟨event, member, sent, same⟩)

/--
Every request of every prompt carries the instruction in force exactly when
each prompt that sends a request starts with an empty history or with one that
begins with this instruction.
-/
theorem requests_carry_instruction_iff
    (empty : initial.entries = []) (supports : Supports setup initial)
    (course : Course setup initial records instruction conversation) :
    (∀ record ∈ records, Carries setup.kind record) ↔
      ∀ record ∈ records, record.Sends → Current setup record := by
  induction course with
  | created instruction => simp
  | instructed before next induction => exact induction
  | reset before run induction => exact induction
  | prompted before run induction =>
      obtain ⟨first, kept⟩ := kept_of_course empty supports before
      rw [List.forall_mem_append, List.forall_mem_append, induction,
        List.forall_mem_singleton, List.forall_mem_singleton,
        carries_iff_current kept run]

end Courses

/-! ## Two instructions -/

/-- A session with DeepSeek, whose server cannot be reached. -/
def unreachableSetup : SessionSetup where
  kind := .chat .deepSeek
  json := knownDocuments
  errorText _ := "error"
  apiKey := "key"
  activeModel := "model"

/-- A prompt of this session that fails. -/
def unansweredPrompt (instruction : String) (before : Conversation) :
    List AgentEvent × (Except Exception ApiResult × Conversation) :=
  Program.scripted unreachable
    (((unreachableSetup.session instruction).prompt (hostCallbacks false false)
      (callerFlag false) "Hello").run.run before)
    []

/-- What the first prompt leaves behind. -/
def afterFirst : Conversation :=
  (unansweredPrompt "A" {}).2.2

def firstRecord : PromptRecord :=
  ⟨"A", {}, (unansweredPrompt "A" {}).1⟩

def secondRecord : PromptRecord :=
  ⟨"B", afterFirst, (unansweredPrompt "B" afterFirst).1⟩

theorem finishes_unansweredPrompt
    (instruction : String) (before : Conversation) :
    Finishes
      ((unreachableSetup.session instruction).prompt
        (hostCallbacks false false) (callerFlag false) "Hello") before
      (unansweredPrompt instruction before).1
      (unansweredPrompt instruction before).2.1
      (unansweredPrompt instruction before).2.2 :=
  finishes_scripted unreachable _ _

theorem course_firstRecord :
    Course unreachableSetup {} [firstRecord] "A" afterFirst :=
  .prompted (.created "A") (finishes_unansweredPrompt "A" {})

/-- The instruction is changed between two prompts. -/
theorem course_secondRecord :
    Course unreachableSetup {} [firstRecord, secondRecord] "B"
      (unansweredPrompt "B" afterFirst).2.2 :=
  .prompted (.instructed course_firstRecord "B")
    (finishes_unansweredPrompt "B" afterFirst)

theorem supports_unreachableSetup : Supports unreachableSetup {} := by
  rintro chat ⟨⟩
  rfl

/-- The instruction is kept. -/
def repeatedRecord : PromptRecord :=
  ⟨"A", afterFirst, (unansweredPrompt "A" afterFirst).1⟩

theorem course_repeatedRecord :
    Course unreachableSetup {} [firstRecord, repeatedRecord] "A"
      (unansweredPrompt "A" afterFirst).2.2 :=
  .prompted course_firstRecord (finishes_unansweredPrompt "A" afterFirst)

/-- Where the instruction is kept every request carries it. -/
theorem requests_carry_instruction_iff_secondRecord :
    ((∀ record ∈ [firstRecord, secondRecord],
        Carries (.chat .deepSeek) record) ↔
      ∀ record ∈ [firstRecord, secondRecord],
        record.Sends → Current unreachableSetup record) ∧
      ∀ record ∈ [firstRecord, repeatedRecord],
        Carries (.chat .deepSeek) record := by
  refine ⟨requests_carry_instruction_iff rfl supports_unreachableSetup
    course_secondRecord, ?_⟩
  have kept := requests_carry_instruction_iff rfl supports_unreachableSetup
    course_repeatedRecord
  refine kept.mpr fun record member _ => ?_
  rcases List.mem_pair.mp member with rfl | rfl
  · exact Or.inl rfl
  · exact Or.inr (by decide +kernel)

/-- The second prompt still sends the first instruction. -/
theorem changed_instruction_not_sent :
    ¬ ∀ (setup : SessionSetup) (initial : Conversation)
      (records : List PromptRecord) (instruction : String)
      (conversation : Conversation),
      initial.entries = [] → Supports setup initial →
        Course setup initial records instruction conversation →
          ∀ record ∈ records, Carries setup.kind record := by
  intro always
  have carries := always _ _ _ _ _ rfl supports_unreachableSetup
    course_secondRecord secondRecord (by simp)
  obtain ⟨first, kept⟩ := kept_of_course rfl supports_unreachableSetup
    course_firstRecord
  have current := (carries_iff_current kept
    (finishes_unansweredPrompt "B" afterFirst)).mp carries
  have sends : ∃ event ∈ secondRecord.history, IsSend event := by
    decide +kernel
  have found : (unreachableSetup.trimmed afterFirst).entries ≠ [] ∧
      recordedInstruction (unreachableSetup.trimmed afterFirst).entries =
        "A" := by
    decide +kernel
  rcases current sends with empty | begins
  · exact found.1 empty
  · exact absurd (found.2.symm.trans begins) (by decide)

end ArnCore.Provider.SystemInstruction
