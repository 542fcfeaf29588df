import ArnCore.Agent.PromptCourse
import ArnCore.Provider.GeminiStream
import ArnCore.Provider.LastRequest

/-!
# A prompt without a flag

`cancel_active_request` of a session stops the client of the provider and sets
no flag.  A prompt that was given no flag only sees a request that failed, so
that no prompt of this kind is ever reported as cancelled; where no request was
in flight it goes on.
-/

namespace ArnCore.Provider.UnflaggedPrompt

open ArnCore.Agent
open ArnCore.Agent.Environment
open ArnCore.Agent.PromptCourse
open ArnCore.Interaction
open ArnCore.Interaction.Action
open ArnCore.Net
open ArnCore.Net.EventStream
open ArnCore.Provider.BuiltInTurn
open ArnCore.Provider.GeminiStream
open ArnCore.Provider.LastRequest
open ArnCore.Provider.StreamedCalls
open ArnCore.Tool

/-! ## Turns are not cancelled -/

/-- Whatever was returned does not say that it was cancelled. -/
def Uncancelled : Except Exception ModelTurn → Prop
  | .ok turn => turn.cancelled = false
  | .error _ => True

section Turns

variable {signature : Signature} {permits : Event signature → Prop}
  {kind : BuiltIn} {endpoint : Endpoint signature}
  {apiKey model systemInstruction : String}
  {tools : ToolRegistry signature Conversation}
  {callbacks : StreamCallbacks signature} {locals : Conversation}

theorem uncancelled_recordedOutcome
    (text : String) (calls : Except Exception (List ToolCall)) :
    Uncancelled (BuiltIn.recordedOutcome text calls) := by
  rcases calls with (what | _) | calls
  · rfl
  · trivial
  · rfl

theorem ensures_executeTurnRequest :
    Ensures permits (fun _ => True) (fun outcome _ => Uncancelled outcome)
      (kind.executeTurnRequest endpoint apiKey model systemInstruction tools
        callbacks none) locals := by
  rw [BuiltIn.executeTurnRequest_eq]
  unfold executeTurn
  cases endpoint.client with
  | none => exact .pure rfl
  | some transport =>
      intro history outcome after run permitted
      refine ⟨fun _ _ => trivial, ?_⟩
      rcases finishes_bind.mp run with
        ⟨failure, rfl, thrown⟩ |
        ⟨first, rest, stop, between, rfl, checked, continued⟩
      · trivial
      obtain ⟨rfl, same, rfl⟩ := finishes_pure.mp checked
      cases same
      rcases finishes_bind.mp (finishes_get_bind.mp continued) with
        ⟨failure, rfl, thrown⟩ |
        ⟨streamed, reading, received, between, rfl, streams, concluded⟩
      · trivial
      rcases finishes_bind.mp concluded with
        ⟨failure, rfl, thrown⟩ |
        ⟨first, rest, stop, between, rfl, checked, concluded⟩
      · trivial
      obtain ⟨rfl, same, rfl⟩ := finishes_pure.mp checked
      cases same
      change Finishes (concludeTurn endpoint kind.name _ received) _ _ _ _
        at concluded
      unfold concludeTurn at concluded
      rcases received with ⟨error | response, streaming⟩
      · obtain ⟨-, rfl, -⟩ := finishes_pure.mp concluded
        rfl
      dsimp only at concluded
      split_ifs at concluded
      · obtain ⟨-, read⟩ := BuiltIn.finishes_readTurn concluded
        cases entry : kind.answerRecord? streaming.parts with
        | none =>
            rw [entry] at read
            rw [read.1]
            rfl
        | some recorded =>
            rw [entry] at read
            rw [read.1]
            exact uncancelled_recordedOutcome _ _
      · obtain ⟨-, rfl, -⟩ := finishes_pure.mp concluded
        rfl

theorem ensures_startTurn
    {input : String} :
    Ensures permits (fun _ => True) (fun outcome _ => Uncancelled outcome)
      ((kind.provider endpoint).startTurn apiKey model systemInstruction input
        tools callbacks none) locals := by
  rw [BuiltIn.startTurn_eq]
  unfold BuiltIn.afterCheck
  cases kind.checksFirst with
  | true => exact ensures_executeTurnRequest
  | false => exact ensures_executeTurnRequest

/-- Whatever was done before it, a turn request returns no cancelled turn. -/
theorem ensures_requested
    {record : Action signature Conversation Unit} :
    Ensures permits (fun _ => True) (fun outcome _ => Uncancelled outcome)
      (do
        record
        kind.executeTurnRequest endpoint apiKey model systemInstruction tools
          callbacks none) locals :=
  (Ensures.any record).bind (fun _ _ _ => trivial)
    fun _ _ _ => ensures_executeTurnRequest

theorem ensures_continueTurn
    {responses : List ToolResponse} :
    Ensures permits (fun _ => True) (fun outcome _ => Uncancelled outcome)
      ((kind.provider endpoint).continueTurn apiKey model systemInstruction
        responses tools callbacks none) locals := by
  rcases kind with ⟨_ | config⟩ | _
  · exact @ensures_requested _ _ (.chat .deepSeek) _ _ _ systemInstruction _ _
      _ (pushToolMessages endpoint responses)
  · exact @ensures_requested _ _ (.chat (.openRouter config)) _ _ _
      systemInstruction _ _ _ (pushToolMessages endpoint responses)
  · exact @ensures_requested _ _ .gemini _ _ _ systemInstruction _ _ _ _

end Turns

/-! ## Prompts are not cancelled -/

section Prompts

variable {signature : Signature} {kind : BuiltIn}
  {endpoint : Endpoint signature}
  {session : AgentSession signature Conversation}
  {callbacks : StreamCallbacks signature}

/-- Tools, callbacks and mutexes may do anything: nothing is asked of them. -/
theorem maintains_any
    {Value : Type} {kept : Prop}
    (action : Action signature Conversation Value) :
    Maintains (fun _ => True) (fun _ => True) (fun _ => kept) action :=
  fun _ holds => (Ensures.any action).imp fun _ _ _ => holds

theorem continues_uncancelled :
    Continues (fun _ => True) (fun _ => True) session
      (kind.provider endpoint) (session.tools.getD {}) callbacks none
      (fun turn _ => turn.cancelled = false)
      (fun outcome _ => ∀ result, outcome = .ok result →
        result.cancelled = false) where
  undisturbed turn :=
    { polls := maintains_any _
      informs := fun _ => maintains_any _
      executes := fun _ _ => maintains_any _ }
  goesOn turn locals responses turned ok pending answered := by
    apply ensures_continueTurn.imp
    rintro (failure | next) after uncancelled
    · nofun
    · exact uncancelled
  leaves turn locals outcome turned leaves := by
    cases leaves with
    | cancelled watched => cases watched
    | threw => nofun
    | failed failed =>
        rintro result ⟨⟩
        exact turned
    | answered ok settled =>
        rintro result ⟨⟩
        rfl
    | exhausted pending =>
        rintro result ⟨⟩
        rfl

theorem uncancelled_of_prompt
    (provided : session.provider = some (kind.provider endpoint))
    {input : String} {locals after : Conversation}
    {history : List (Event signature)} {result : ApiResult}
    (run : Finishes (session.prompt callbacks none input) locals history
      (.ok result) after) :
    result.cancelled = false := by
  have ensures : Ensures (fun _ => True) (fun _ => True)
      (fun outcome _ => ∀ result, outcome = .ok result →
        result.cancelled = false)
      (session.prompt callbacks none input) locals := by
    refine @ensures_prompt _ _ _ _ _ _ _ _ _ _ _ (fun _ => True)
      (fun _ => True) provided ?_ continues_uncancelled locals trivial
    constructor
    case refuses =>
      rintro locals message - result ⟨⟩
      rfl
    case cancels => nofun
    case fails => nofun
    case unpublished => nofun
    case trims =>
      intro locals before
      apply (Ensures.any _).imp
      rintro (failure | value) after -
      · nofun
      · trivial
    case starts =>
      intro locals ready
      apply ensures_startTurn.imp
      rintro (failure | turn) after uncancelled
      · nofun
      · exact uncancelled
    all_goals intros
    all_goals exact maintains_any _
  exact (ensures run fun _ _ => trivial).2 result rfl

end Prompts

/-! ## What a cancellation promises -/

/-- An event that starts a tool call. -/
def IsToolStart (event : AgentEvent) : Prop :=
  ∃ name arguments,
    event.op = .enterTool name arguments ∨
      event.op = .executeTool name arguments

/--
Behind a cancellation nothing is started any more, and the prompt is reported
as cancelled.
-/
structure EndsCancelled (later : List AgentEvent)
    (outcome : Except Exception ApiResult) : Prop where
  noRequest : ∀ event ∈ later, ¬ IsSend event
  noTool : ∀ event ∈ later, ¬ IsToolStart event
  reported : ∃ result, outcome = .ok result ∧ result.ok = false ∧
    result.cancelled = true

/-- Wherever a cancellation returns, a prompt without a flag breaks its promise. -/
theorem cancellation_never_ends_prompt
    (kind : BuiltIn) (endpoint : Endpoint agents)
    {session : AgentSession agents Conversation}
    (provided : session.provider = some (kind.provider endpoint))
    (callbacks : StreamCallbacks agents) (input : String)
    {locals after : Conversation} {before later : List AgentEvent}
    {outcome : Except Exception ApiResult}
    (run : Finishes (session.prompt callbacks none input) locals
      (before ++ later) outcome after) :
    ¬ EndsCancelled later outcome := by
  rintro ⟨-, -, result, rfl, -, cancelled⟩
  rw [uncancelled_of_prompt provided run] at cancelled
  cases cancelled

/-! ## A cancellation while a tool runs -/

/-- A session with Gemini, without tools. -/
def plainSession : AgentSession agents Conversation where
  config := {}
  provider := some
    (BuiltIn.gemini.provider (networked knownEvents fun _ => "error"))
  apiKey := "key"
  activeModel := "model"
  mutex := mutex .session
  activeProvider := pointer .activeProvider

/-- A tool during which the request of its own session is cancelled. -/
def cancellingTool : ITool agents Conversation where
  definition := { name := "f", description := "", parameterSchema := .null }
  requiresConfirmation := false
  execute _ _ := do
    plainSession.cancelActiveRequest
    pure (.success .null)

def cancellingSession : AgentSession agents Conversation :=
  { plainSession with tools := some (.registerAll [cancellingTool]) }

/-- The first request is answered by a call, every further one by a text. -/
def callsThenAnswers (history : List AgentEvent) :
    (op : AgentOp) → agents.Answer op
  | .send _ =>
      if history.any fun event => event.op matches .send _ then
        Transfer.complete { status := 200 } [.chunk (sentEvent signedEvent)]
      else
        Transfer.complete { status := 200 } [.chunk (sentEvent callEvent)]
  | .present _ => true
  | op => quiet op

/-- A prompt of the session, run against `callsThenAnswers`. -/
def cancellingRun : List AgentEvent ×
    (Except Exception ApiResult × Conversation) :=
  Program.scripted callsThenAnswers
    ((cancellingSession.prompt (hostCallbacks false false) none
      "Go").run.run {})
    []

theorem finishes_cancellingRun :
    Finishes
      (cancellingSession.prompt (hostCallbacks false false) none "Go") {}
      (cancellingRun.1.take 5 ++ cancellingRun.1.drop 5) cancellingRun.2.1
      cancellingRun.2.2 := by
  rw [List.take_append_drop]
  exact finishes_scripted callsThenAnswers _ _

theorem cancellation_never_ends_prompt_cancellingRun :
    ¬ EndsCancelled (cancellingRun.1.drop 5) cancellingRun.2.1 :=
  cancellation_never_ends_prompt .gemini _ rfl _ "Go" finishes_cancellingRun

/-- Whether an event stops the client. -/
def stopsClient (event : AgentEvent) : Bool :=
  event.op matches .stopClient

/-- Whether a prompt returned a result that is ok. -/
def endsWell : Except Exception ApiResult → Bool
  | .ok result => result.ok
  | .error _ => false

/--
The client was stopped while a tool ran; the prompt sends its next request and
ends well.
-/
theorem cancelled_prompt_goes_on :
    ∃ before later outcome after,
      Finishes
        (cancellingSession.prompt (hostCallbacks false false) none "Go") {}
        (before ++ later) outcome after ∧
      before.getLast?.map stopsClient = some true ∧
      endsWell outcome = true ∧ ¬ EndsCancelled later outcome := by
  refine ⟨_, _, _, _, finishes_cancellingRun, ?_, ?_, ?_⟩
  · decide +kernel
  · decide +kernel
  · intro ends
    have sends : ∃ event ∈ cancellingRun.1.drop 5, IsSend event := by
      decide +kernel
    obtain ⟨event, member, sent⟩ := sends
    exact ends.noRequest event member sent

end ArnCore.Provider.UnflaggedPrompt
