import ArnCore.Agent.PromptCourse
import ArnCore.Provider.FailedStart
import ArnCore.Provider.HistoryTrim
import ArnCore.Provider.ModelDiscovery

/-!
# A session over a built-in provider

The session talks to the provider over the network of the environment, and its
tools are native.  A turn of the provider either changes nothing and is not ok,
or records what it was given and runs one request; what the request may send is
the payload of the history at that point.
-/

namespace ArnCore.Provider.ProviderSession

open ArnCore.Agent
open ArnCore.Agent.Environment
open ArnCore.Agent.PromptCourse
open ArnCore.Collections
open ArnCore.Interaction
open ArnCore.Interaction.Action
open ArnCore.Net
open ArnCore.Provider.BuiltInTurn
open ArnCore.Provider.FailedStart
open ArnCore.Provider.HistoryTrim
open ArnCore.Provider.LastRequest
open ArnCore.Provider.ModelDiscovery
open ArnCore.Provider.StreamedCalls
open ArnCore.Tool

/-! ## The session -/

/-- What a session is made of; the instruction may change while it is used. -/
structure SessionSetup where
  kind : BuiltIn
  json : JsonText
  errorText : HttpError → String
  apiKey : String
  activeModel : String
  maxToolRounds : Int := 12
  maxHistoryEntries : Nat := 40
  tools : Option (List (ToolDefinition × Bool)) := none
  hasHandler : Bool := false

/-- Native tools, registered one after the other. -/
def nativeRegistry (tools : List (ToolDefinition × Bool)) :
    ToolRegistry agents Conversation :=
  .registerAll (tools.map fun tool => nativeTool tool.1 tool.2)

namespace SessionSetup

variable (setup : SessionSetup)

def registry : ToolRegistry agents Conversation :=
  (setup.tools.map nativeRegistry).getD {}

def endpoint : Endpoint agents :=
  networked setup.json setup.errorText

/-- The session with an instruction. -/
def session (instruction : String) : AgentSession agents Conversation where
  config :=
    { systemInstruction := instruction
      maxToolRounds := setup.maxToolRounds
      maxHistoryEntries := setup.maxHistoryEntries }
  tools := setup.tools.map nativeRegistry
  confirmHandler := hostConfirm setup.hasHandler
  provider := some (setup.kind.provider setup.endpoint)
  apiKey := setup.apiKey
  activeModel := setup.activeModel
  mutex := mutex .session
  activeProvider := pointer .activeProvider

end SessionSetup

/-! ## Everything but the requests -/

section Undisturbed

variable {permits shown : AgentEvent → Prop} {kept : Conversation → Prop}
  (others : ∀ event, ¬ IsSend event → shown event)

include others

theorem maintains_op
    (op : AgentOp) (other : ∀ request, op ≠ .send request) :
    Maintains permits shown kept
      (ofHost (always op) : Action agents Conversation (agents.Answer op)) := by
  refine .ofHost ?_
  rintro history outcome ⟨answer, later, rfl, rfl, rfl⟩ event member
  rw [List.mem_singleton.mp member]
  apply others
  rintro ⟨request, same⟩
  exact other request same

/-- A call of the host that may throw. -/
theorem maintains_ask
    {Value : Type} (op : AgentOp) (other : ∀ request, op ≠ .send request)
    {computation : Host agents Value}
    (asks : ∀ history outcome,
      computation.run.Finishes history outcome →
        ∀ event ∈ history, event.op = op) :
    Maintains permits shown kept
      (ofHost computation : Action agents Conversation Value) := by
  refine .ofHost ?_
  intro history outcome run event member
  apply others
  rintro ⟨request, same⟩
  exact other request ((asks history outcome run event member).symm.trans same)

theorem maintains_isSet (watch : Bool) :
    Maintains permits shown kept
      (isSet (callerFlag watch) : Action agents Conversation Bool) := by
  cases watch with
  | false => exact .pure false
  | true => exact maintains_op others (.load .cancelled) nofun

theorem maintains_notify (progress : Bool) (message : String) :
    Maintains permits shown kept
      (notify (hostProgress progress) message :
        Action agents Conversation Unit) := by
  cases progress with
  | false => exact .pure ()
  | true =>
      refine maintains_ask others (.onProgress message) nofun ?_
      rintro history outcome ⟨answer, later, rfl, rfl, rfl⟩ event member
      rw [List.mem_singleton.mp member]

/-- A native tool asks for confirmations and polls the flag. -/
theorem maintains_runNative
    (watch hasHandler : Bool) (run : NativeRun) :
    Maintains permits shown kept
      (runNative
        { cancelRequested := callerFlag watch
          confirm := hostConfirm hasHandler } run) := by
  induction run with
  | done outcome =>
      cases outcome with
      | ok result => exact .pure result
      | error failure => exact .throw failure
  | call op next induction =>
      cases op with
      | cancelRequested =>
          exact (maintains_isSet others watch).bind induction
      | confirm request =>
          cases hasHandler with
          | false => exact induction none
          | true =>
              refine Maintains.bind ?_ fun approved => induction (some approved)
              refine maintains_ask others (.confirm request) nofun ?_
              rintro history outcome ⟨answer, later, rfl, rfl, rfl⟩ event member
              rw [List.mem_singleton.mp member]

theorem maintains_execute
    (setup : SessionSetup) (watch : Bool) (name : String) (arguments : Json) :
    Maintains permits shown kept
      (setup.registry.execute name arguments
        { cancelRequested := callerFlag watch
          confirm := hostConfirm setup.hasHandler }) := by
  unfold ToolRegistry.execute SessionSetup.registry
  cases setup.tools with
  | none => exact .pure _
  | some tools =>
      dsimp only [Option.map_some, Option.getD_some]
      cases found : (nativeRegistry tools).findTool name with
      | none => exact .pure _
      | some tool =>
          obtain ⟨member, -⟩ := ToolRegistry.findTool_registerAll found
          obtain ⟨⟨definition, confirms⟩, -, rfl⟩ := List.mem_map.mp member
          exact (maintains_op others (.enterTool definition.name arguments)
            nofun).bind (maintains_runNative others watch setup.hasHandler)

theorem undisturbed
    (setup : SessionSetup) (instruction : String) (text progress watch : Bool) :
    Undisturbed permits shown (setup.session instruction) setup.registry
      (hostCallbacks text progress) (callerFlag watch) kept where
  polls := maintains_isSet others watch
  informs := maintains_notify others progress
  executes := maintains_execute others setup watch

end Undisturbed

/-! ## Turns -/

section Turns

variable {permits shown : AgentEvent → Prop} {setup : SessionSetup}
  {instruction : String} {text progress watch : Bool}
  {locals : Conversation}

/-- Some request of the session streamed these parts. -/
def Accumulates (permits : AgentEvent → Prop) (setup : SessionSetup)
    (text progress watch : Bool) (parts : TurnParts) : Prop :=
  ∃ path headers payload, ∃ locals : Conversation,
    ∃ streamed response streaming,
      Finishes
        (streamTurn network
          (turnRequest setup.json network
            (setup.kind.parseStreamChunk setup.json (hostText text)) path
            headers payload (callerFlag watch))
          (hostCallbacks text progress) (callerFlag watch) maxRequestAttempts)
        locals streamed (.ok (.ok response, streaming)) locals ∧
      (∀ event ∈ streamed, permits event) ∧ streaming.parts = parts

/-- A request leaves the history alone, or records its answer. -/
inductive Requested (permits : AgentEvent → Prop) (setup : SessionSetup)
    (text progress watch : Bool) (locals : Conversation) :
    Except Exception ModelTurn → Conversation → Prop where
  | unanswered {outcome : Except Exception ModelTurn}
      (failed : ∀ turn, outcome = .ok turn → turn.ok = false) :
      Requested permits setup text progress watch locals outcome locals
  | recorded {parts : TurnParts} {entry : Json}
      (accumulates : Accumulates permits setup text progress watch parts)
      (records : setup.kind.answerRecord? parts = some entry) :
      Requested permits setup text progress watch locals
        (BuiltIn.recordedOutcome parts.text
          (setup.kind.readCalls setup.json parts))
        (extended locals [entry])

/-- The request of a turn of the session. -/
def request (setup : SessionSetup) (instruction : String)
    (text progress watch : Bool) : Action agents Conversation ModelTurn :=
  setup.kind.executeTurnRequest setup.endpoint setup.apiKey setup.activeModel
    instruction setup.registry (hostCallbacks text progress)
    (callerFlag watch)

/-- The payload of a request of the session. -/
def SessionSetup.payload (setup : SessionSetup) (instruction : String)
    (locals : Conversation) : Json :=
  setup.kind.payload setup.activeModel instruction setup.registry locals

theorem requested_of_finishes
    {history : List AgentEvent} {outcome : Except Exception ModelTurn}
    {after : Conversation}
    (run : Finishes (request setup instruction text progress watch) locals
      history outcome after)
    (permitted : ∀ event ∈ history, permits event) :
    Requested permits setup text progress watch locals outcome after := by
  rw [request, BuiltIn.executeTurnRequest_eq] at run
  rcases finishes_executeTurn run with
    unanswered |
    ⟨transport, check, streamed, recheck, reading, response, streaming,
      client, rfl, answered, reads⟩
  · rw [unanswered.unchanged]
    exact .unanswered unanswered.failed
  cases client
  obtain ⟨-, read⟩ := BuiltIn.finishes_readTurn reads
  cases records : setup.kind.answerRecord? streaming.parts with
  | none =>
      rw [records] at read
      obtain ⟨rfl, rfl⟩ := read
      refine .unanswered ?_
      rintro turn ⟨⟩
      rfl
  | some entry =>
      rw [records] at read
      obtain ⟨rfl, rfl⟩ := read
      refine .recorded ⟨_, _, _, locals, streamed, response, streaming,
        answered.streams, ?_, rfl⟩ records
      intro event member
      exact permitted event (by simp [member])

/-- A tool message carries the dumped result of a call. -/
def AnsweredBy (json : JsonText) (response : ToolResponse) (answer : Json) :
    Prop :=
  ∃ content, json.dump response.result = .ok content ∧
    answer = toolMessage response.callId content

/-- What `continue_turn` records before its request. -/
def recordResponses (setup : SessionSetup) (responses : List ToolResponse) :
    Action agents Conversation Unit :=
  match setup.kind with
  | .chat _ => pushToolMessages setup.endpoint responses
  | .gemini =>
      pushEntry (GeminiProvider.contentEntry "user"
        (.array (responses.map GeminiProvider.responsePart)))

/-- The entries recorded for all responses. -/
def Answers (setup : SessionSetup) (responses : List ToolResponse)
    (answers : List Json) : Prop :=
  match setup.kind with
  | .chat _ => List.Forall₂ (AnsweredBy setup.json) responses answers
  | .gemini =>
      answers =
        [GeminiProvider.contentEntry "user"
          (.array (responses.map GeminiProvider.responsePart))]

/-- How `continue_turn` ends. -/
inductive Continued (permits : AgentEvent → Prop) (setup : SessionSetup)
    (text progress watch : Bool) (responses : List ToolResponse)
    (locals : Conversation) :
    Except Exception ModelTurn → Conversation → Prop where
  | stopped :
      Continued permits setup text progress watch responses locals
        (.ok cancelledTurn) locals
  | undumped {failure : Exception} {chat : ChatStream.ChatProvider}
      {answered : List ToolResponse} {answers : List Json}
      (isChat : setup.kind = .chat chat) (begins : answered <+: responses)
      (each : List.Forall₂ (AnsweredBy setup.json) answered answers) :
      Continued permits setup text progress watch responses locals
        (.error failure) (extended locals answers)
  | requested {answers : List Json} {outcome : Except Exception ModelTurn}
      {after : Conversation} (answered : Answers setup responses answers)
      (requests : Requested permits setup text progress watch
        (extended locals answers) outcome after) :
      Continued permits setup text progress watch responses locals outcome
        after

theorem continueTurn_eq (responses : List ToolResponse) :
    (setup.kind.provider setup.endpoint).continueTurn setup.apiKey
        setup.activeModel instruction responses setup.registry
        (hostCallbacks text progress) (callerFlag watch) =
      setup.kind.afterCheck (callerFlag watch) (do
        recordResponses setup responses
        request setup instruction text progress watch) := by
  unfold recordResponses request
  rcases setup.kind with ⟨_ | config⟩ | _
  · rfl
  · rfl
  · rfl

section Ensured

variable (others : ∀ event, ¬ IsSend event → shown event)

include others

/-- Every request carries the payload of the history it starts with. -/
theorem ensures_request
    (sends : ∀ sent transfer,
      sent.payload = setup.payload instruction locals →
        shown ⟨AgentOp.send sent, transfer⟩) :
    Ensures permits shown
      (Requested permits setup text progress watch locals)
      (request setup instruction text progress watch) locals := by
  intro history outcome after run permitted
  refine ⟨?_, requested_of_finishes run permitted⟩
  rintro ⟨op, answer⟩ member
  by_cases sent : IsSend ⟨op, answer⟩
  · obtain ⟨request, same⟩ := sent
    obtain rfl : op = .send request := same
    exact sends request answer
      (carries_executeTurnRequest run _ member request rfl)
  · exact others _ sent

/-- A turn function that was stopped by its check. -/
def Stopped (locals : Conversation) :
    Except Exception ModelTurn → Conversation → Prop :=
  fun outcome after => after = locals ∧ outcome = .ok cancelledTurn

theorem ensures_afterCheck
    {body : Action agents Conversation ModelTurn}
    {post : Except Exception ModelTurn → Conversation → Prop}
    (runs : Ensures permits shown post body locals) :
    Ensures permits shown
      (fun outcome after => Stopped locals outcome after ∨ post outcome after)
      (setup.kind.afterCheck (callerFlag watch) body) locals := by
  unfold BuiltIn.afterCheck
  cases setup.kind.checksFirst with
  | false => exact runs.imp fun _ _ => Or.inr
  | true =>
      intro history outcome after run permitted
      rw [if_pos rfl] at run
      obtain ⟨check, later, stop, between, rfl, checked, continued⟩ :=
        SingleAttempt.finishes_isSet_bind.mp run
      obtain ⟨before, behind⟩ := List.forall_mem_append.mp permitted
      have quiet : Maintains permits shown (fun _ => True)
          (isSet (callerFlag watch) : Action agents Conversation Bool) :=
        maintains_isSet others watch
      obtain ⟨seen, -⟩ := quiet locals trivial checked before
      obtain ⟨rfl, ⟨same, -⟩ | ⟨same, -⟩⟩ := finishes_check checked
      · cases same
        obtain ⟨rest, holds⟩ := runs continued behind
        exact ⟨List.forall_mem_append.mpr ⟨seen, rest⟩, Or.inr holds⟩
      · cases same
        obtain ⟨rfl, rfl, rfl⟩ := finishes_pure.mp continued
        exact ⟨by simpa using seen, Or.inl ⟨rfl, rfl⟩⟩

/-- The history behind the prompt. -/
def SessionSetup.prompted (setup : SessionSetup) (instruction input : String)
    (locals : Conversation) : Conversation :=
  FailedStart.prompted setup.kind setup.activeModel instruction input locals

theorem ensures_startTurn
    {input : String}
    (sends : ∀ sent transfer,
      sent.payload =
          setup.payload instruction
            (setup.prompted instruction input locals) →
        shown ⟨AgentOp.send sent, transfer⟩) :
    Ensures permits shown
      (fun outcome after => Stopped locals outcome after ∨
        Requested permits setup text progress watch
          (setup.prompted instruction input locals) outcome after)
      ((setup.kind.provider setup.endpoint).startTurn setup.apiKey
        setup.activeModel instruction input setup.registry
        (hostCallbacks text progress) (callerFlag watch)) locals := by
  rw [BuiltIn.startTurn_eq]
  refine ensures_afterCheck others ?_
  intro history outcome after run permitted
  exact ensures_request others sends (finishes_modify_bind.mp run) permitted

omit others in
/-- Responses are dumped one after the other, until one cannot be. -/
theorem ensures_pushToolMessages
    (responses : List ToolResponse) :
    Ensures permits shown
      (fun outcome after => ∃ answered answers,
        answered <+: responses ∧ (outcome = .ok () → answered = responses) ∧
        List.Forall₂ (AnsweredBy setup.json) answered answers ∧
        after = extended locals answers)
      (pushToolMessages setup.endpoint responses) locals := by
  induction responses generalizing locals with
  | nil =>
      refine .pure ⟨[], [], List.prefix_rfl, fun _ => rfl, .nil, ?_⟩
      simp [extended]
  | cons response responses induction =>
      intro history outcome after run permitted
      rcases finishes_bind.mp run with
        ⟨failure, rfl, thrown⟩ |
        ⟨first, later, content, between, rfl, dumps, pushed⟩
      · obtain ⟨rfl, -, rfl⟩ := finishes_ofExcept.mp thrown
        refine ⟨by simp, [], [], List.nil_prefix, nofun, .nil, ?_⟩
        simp [extended]
      · obtain ⟨rfl, dumped, rfl⟩ := finishes_ofExcept.mp dumps
        obtain ⟨seen, answered, answers, begins, all, each, rfl⟩ :=
          induction (finishes_modify_bind.mp pushed) permitted
        refine ⟨seen, response :: answered, _ :: answers,
          List.cons_prefix_cons.mpr ⟨rfl, begins⟩, ?_,
          .cons ⟨content, dumped.symm, rfl⟩ each, ?_⟩
        · exact fun ok => by rw [all ok]
        · simp [extended]

omit others in
theorem ensures_recordResponses
    (responses : List ToolResponse) :
    Ensures permits shown
      (fun outcome after =>
        (outcome = .ok () ∧ ∃ answers, Answers setup responses answers ∧
          after = extended locals answers) ∨
        (∃ failure, outcome = .error failure) ∧
          ∃ chat answered answers, setup.kind = .chat chat ∧
            answered <+: responses ∧
            List.Forall₂ (AnsweredBy setup.json) answered answers ∧
            after = extended locals answers)
      (recordResponses setup responses) locals := by
  unfold recordResponses Answers
  cases kind : setup.kind with
  | gemini =>
      intro history outcome after run permitted
      obtain ⟨rfl, rfl, rfl⟩ := finishes_modify.mp run
      exact ⟨by simp, Or.inl ⟨rfl, _, rfl, rfl⟩⟩
  | chat chat =>
      refine (ensures_pushToolMessages responses).imp ?_
      rintro (failure | value) after
        ⟨answered, answers, begins, all, each, rfl⟩
      · exact Or.inr
          ⟨⟨failure, rfl⟩, chat, answered, answers, rfl, begins, each, rfl⟩
      · obtain rfl := all rfl
        exact Or.inl ⟨rfl, answers, each, rfl⟩

theorem ensures_continueTurn
    {responses : List ToolResponse}
    (sends : ∀ answers, Answers setup responses answers →
      ∀ sent transfer,
        sent.payload =
            setup.payload instruction (extended locals answers) →
          shown ⟨AgentOp.send sent, transfer⟩) :
    Ensures permits shown
      (Continued permits setup text progress watch responses locals)
      ((setup.kind.provider setup.endpoint).continueTurn setup.apiKey
        setup.activeModel instruction responses setup.registry
        (hostCallbacks text progress) (callerFlag watch)) locals := by
  rw [continueTurn_eq]
  have runs : Ensures permits shown
      (Continued permits setup text progress watch responses locals)
      (do
        recordResponses setup responses
        request setup instruction text progress watch) locals := by
    refine (ensures_recordResponses responses).bind ?_ ?_
    · rintro failure after (⟨impossible, -⟩ | ⟨-, recorded⟩)
      · cases impossible
      · obtain ⟨chat, answered, answers, isChat, begins, each, rfl⟩ := recorded
        exact .undumped isChat begins each
    · rintro value after (⟨-, answers, answered, rfl⟩ |
        ⟨⟨failure, impossible⟩, -⟩)
      · exact (ensures_request others (sends answers answered)).imp
          fun outcome after requests => .requested answered requests
      · cases impossible
  refine (ensures_afterCheck others runs).imp ?_
  rintro outcome after (⟨rfl, rfl⟩ | continued)
  · exact .stopped
  · exact continued

end Ensured

end Turns

/-! ## Prompts -/

/-- The history as `trim_history` leaves it before a prompt. -/
def SessionSetup.trimmed (setup : SessionSetup) (locals : Conversation) :
    Conversation :=
  { locals with
    entries :=
      HistoryTrim.trimmed setup.kind setup.maxHistoryEntries locals.entries }

/-- Every entry names its role. -/
def HaveRoles (entries : List Json) : Prop :=
  ∀ entry ∈ entries, ∃ role, entry.find? "role" = some (.string role)

section Prompts

variable {permits shown : AgentEvent → Prop} {setup : SessionSetup}
  {instruction input : String} {text progress watch : Bool}
  {locals : Conversation} {Turned : ModelTurn → Conversation → Prop}
  {Left : Except Exception ApiResult → Conversation → Prop}
  (others : ∀ event, ¬ IsSend event → shown event)

include others

/-- A prompt is governed by its first turn, its further turns and its exits. -/
theorem ensures_prompt
    (roles : HaveRoles locals.entries)
    (refuses : ∀ outcome, Left outcome locals)
    (stops : ∀ outcome, Left outcome (setup.trimmed locals))
    (starts : Ensures permits shown (AfterTurn Turned Left)
      ((setup.kind.provider setup.endpoint).startTurn setup.apiKey
        setup.activeModel instruction input setup.registry
        (hostCallbacks text progress) (callerFlag watch))
      (setup.trimmed locals))
    (goesOn : ∀ turn locals responses, Turned turn locals → turn.ok = true →
      turn.toolCalls ≠ [] → List.Forall₂ Responds turn.toolCalls responses →
      Ensures permits shown (AfterTurn Turned Left)
        ((setup.kind.provider setup.endpoint).continueTurn setup.apiKey
          setup.activeModel instruction responses setup.registry
          (hostCallbacks text progress) (callerFlag watch)) locals)
    (leaves : ∀ turn locals outcome, Turned turn locals →
      Leaves (callerFlag watch) turn outcome → Left outcome locals) :
    Ensures permits shown Left
      ((setup.session instruction).prompt (hostCallbacks text progress)
        (callerFlag watch) input) locals := by
  refine @PromptCourse.ensures_prompt _ _ _ _ _ _ _ _ Turned Left _
    (fun before => before = locals)
    (fun ready => ready = setup.trimmed locals) rfl ?_ ?_ locals rfl
  · constructor
    case locks => exact maintains_op others (.lock .session) nofun
    case refuses =>
      rintro _ message rfl
      exact refuses _
    case cancels =>
      rintro _ rfl -
      exact refuses _
    case fails =>
      rintro _ failure rfl
      exact refuses _
    case polls => exact maintains_isSet others watch
    case trims =>
      rintro _ rfl history outcome after run permitted
      obtain ⟨rfl, ⟨rfl, -, rfl⟩ | ⟨rfl, rfl⟩⟩ :=
        trimEnds_of_trimHistory roles run
      · exact ⟨by simp, refuses _⟩
      · exact ⟨by simp, rfl⟩
    case publishes => exact maintains_op others (.publish .activeProvider) nofun
    case unpublished =>
      rintro _ failure rfl
      exact stops _
    case starts =>
      rintro _ rfl
      exact starts
    case clears =>
      exact fun _ => maintains_op others (.clear .activeProvider) nofun
    case unlocks => exact fun _ => maintains_op others (.unlock .session) nofun
  · exact
      { undisturbed := fun _ =>
          undisturbed others setup instruction text progress watch
        goesOn := goesOn
        leaves := leaves }

end Prompts

/-! ## Every sequence of calls -/

/-- A prompt of a session: its instruction, what it found and what it did. -/
structure PromptRecord where
  instruction : String
  before : Conversation
  history : List AgentEvent

/-- A prompt that sends a request. -/
def PromptRecord.Sends (record : PromptRecord) : Prop :=
  ∃ event ∈ record.history, IsSend event

/-- What a session went through: its prompts, its instruction and the provider. -/
inductive Course (setup : SessionSetup) (initial : Conversation) :
    List PromptRecord → String → Conversation → Prop where
  | created (instruction : String) :
      Course setup initial [] instruction initial
  | instructed {records : List PromptRecord} {instruction : String}
      {conversation : Conversation}
      (before : Course setup initial records instruction conversation)
      (next : String) : Course setup initial records next conversation
  | prompted {records : List PromptRecord} {instruction input : String}
      {conversation after : Conversation} {history : List AgentEvent}
      {outcome : Except Exception ApiResult} {text progress watch : Bool}
      (before : Course setup initial records instruction conversation)
      (run : Finishes
        ((setup.session instruction).prompt (hostCallbacks text progress)
          (callerFlag watch) input) conversation history outcome after) :
      Course setup initial (records ++ [⟨instruction, conversation, history⟩])
        instruction after
  | reset {records : List PromptRecord} {instruction : String}
      {conversation after : Conversation} {history : List AgentEvent}
      {outcome : Except Exception Unit}
      (before : Course setup initial records instruction conversation)
      (run : Finishes (setup.session instruction).resetSession conversation
        history outcome after) :
      Course setup initial records instruction after

/-- `reset_session` empties the history. -/
theorem cleared_of_resetSession
    {setup : SessionSetup} {instruction : String}
    {conversation after : Conversation} {history : List AgentEvent}
    {outcome : Except Exception Unit}
    (run : Finishes (setup.session instruction).resetSession conversation
      history outcome after) :
    after = { conversation with entries := [] } := by
  obtain ⟨inner, -, cleared⟩ := finishes_guarded.mp run
  have emptied : Finishes clearEntries conversation inner outcome after := by
    revert cleared
    unfold SessionSetup.session
    rcases setup.kind with ⟨_ | config⟩ | _
    all_goals exact id
  exact (finishes_modify.mp emptied).2.2

end ArnCore.Provider.ProviderSession
