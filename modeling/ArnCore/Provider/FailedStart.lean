import ArnCore.Provider.BuiltInTurn

/-!
# A failed start of a turn

`start_turn` records the prompt before its request and never takes it back.
What a failed start leaves in the history is determined up to the answer that
could not be read.
-/

namespace ArnCore.Provider.FailedStart

open ArnCore.Agent.Environment
open ArnCore.Interaction
open ArnCore.Net
open ArnCore.Provider.BuiltInTurn
open ArnCore.Provider.ChatStream
open ArnCore.Provider.SingleAttempt
open ArnCore.Provider.StreamedCalls
open ArnCore.Tool

/-- A caller passed its flag, and the first load of a run found it set. -/
def FoundOnEntry (watch : Bool) (history : List AgentEvent) : Prop :=
  watch = true ∧ ∃ later, history = ⟨AgentOp.load .cancelled, true⟩ :: later

/-- The history with some entries behind it. -/
def extended (conversation : Conversation) (entries : List Json) :
    Conversation :=
  { conversation with entries := conversation.entries ++ entries }

section Starts

variable {kind : BuiltIn} {endpoint : Endpoint agents}
  {apiKey model systemInstruction userPrompt : String}
  {tools : ToolRegistry agents Conversation}
  {callbacks : StreamCallbacks agents} {watch : Bool}
  {locals after : Conversation} {history : List AgentEvent}
  {outcome : Except Exception ModelTurn}

/--
A 2xx response was streamed to the end, its entry was recorded, and its calls
could not be read.
-/
def Unreadable (kind : BuiltIn) (endpoint : Endpoint agents)
    (request : Transport agents →
      Action agents (Streaming TurnParts) HttpResult)
    (callbacks : StreamCallbacks agents) (watch : Bool)
    (recorded : Conversation) (history : List AgentEvent) (entry : Json) :
    Prop :=
  ∃ transport check streamed recheck response streaming failure,
    endpoint.client = some transport ∧
    history = check ++ (streamed ++ recheck) ∧
    Answered transport (request transport) callbacks watch recorded check
      streamed recheck response streaming ∧
    kind.answerRecord? streaming.parts = some entry ∧
    kind.readCalls endpoint.json streaming.parts = .error failure

/-- A failed turn request adds at most the entry it could not read. -/
theorem finishes_failed_request
    (run : Action.Finishes
      (kind.executeTurnRequest endpoint apiKey model systemInstruction tools
        callbacks (callerFlag watch)) locals history outcome after)
    (failed : ∀ turn, outcome = .ok turn → turn.ok = false) :
    after = locals ∨
      ∃ entry,
        after = extended locals [entry] ∧
        Unreadable kind endpoint
          (fun transport =>
            turnRequest endpoint.json transport
              (kind.parseStreamChunk endpoint.json callbacks.onText)
              (kind.path model) (kind.headers apiKey)
              (kind.payload model systemInstruction tools locals)
              (callerFlag watch))
          callbacks watch locals history entry := by
  rw [BuiltIn.executeTurnRequest_eq] at run
  rcases finishes_executeTurn run with
    unanswered |
    ⟨transport, check, streamed, recheck, reading, response, streaming,
      client, rfl, answered, reads⟩
  · exact Or.inl unanswered.unchanged
  obtain ⟨rfl, ends⟩ := BuiltIn.finishes_readTurn reads
  cases recorded : kind.answerRecord? streaming.parts with
  | none =>
      rw [recorded] at ends
      exact Or.inl ends.2
  | some entry =>
      rw [recorded] at ends
      obtain ⟨same, rfl⟩ := ends
      cases calls : kind.readCalls endpoint.json streaming.parts with
      | ok calls =>
          rw [calls] at same
          cases failed _ same
      | error failure =>
          refine Or.inr ⟨entry, rfl, transport, check, streamed, recheck,
            response, streaming, failure, client, ?_, answered, recorded,
            calls⟩
          rw [List.append_nil]

/-- The conversation of a turn once its prompt is recorded. -/
def prompted (kind : BuiltIn)
    (model systemInstruction userPrompt : String) (locals : Conversation) :
    Conversation :=
  extended locals
    (kind.promptEntries locals model systemInstruction userPrompt)

/-- What a failed start of a turn leaves behind its prompt. -/
def LeavesPrompt (kind : BuiltIn) (endpoint : Endpoint agents)
    (apiKey model systemInstruction : String)
    (tools : ToolRegistry agents Conversation)
    (callbacks : StreamCallbacks agents) (watch : Bool)
    (recorded : Conversation) (history : List AgentEvent)
    (after : Conversation) : Prop :=
  after = recorded ∨
    ∃ entry,
      after = extended recorded [entry] ∧
      Unreadable kind endpoint
        (fun transport =>
          turnRequest endpoint.json transport
            (kind.parseStreamChunk endpoint.json callbacks.onText)
            (kind.path model) (kind.headers apiKey)
            (kind.payload model systemInstruction tools recorded)
            (callerFlag watch))
        callbacks watch recorded history entry

theorem finishes_failed_recordPrompt
    (run : Action.Finishes
      (kind.recordPrompt endpoint apiKey model systemInstruction userPrompt
        tools callbacks (callerFlag watch)) locals history outcome after)
    (failed : ∀ turn, outcome = .ok turn → turn.ok = false) :
    LeavesPrompt kind endpoint apiKey model systemInstruction tools callbacks
      watch (prompted kind model systemInstruction userPrompt locals) history
      after :=
  finishes_failed_request (Action.finishes_modify_bind.mp run) failed

/--
What a failed start leaves behind.

Where OpenRouter finds the flag set on entry, nothing has changed.  Any other
failed start has recorded the prompt behind the old history, and behind the
prompt at most the entry of a complete 2xx response whose calls could not be
read.  Nothing is said of DeepSeek and Gemini when the flag is set on entry.
-/
theorem failed_start_records_prompt
    (run : (((kind.provider endpoint).startTurn apiKey model systemInstruction
      userPrompt tools callbacks (callerFlag watch)).run.run locals).Runs
        history (.done (outcome, after)))
    (failed : ∀ turn, outcome = .ok turn → turn.ok = false) :
    (FoundOnEntry watch history →
      ∀ config, kind = .chat (.openRouter config) → after = locals) ∧
    (¬ FoundOnEntry watch history →
      ∃ check later, history = check ++ later ∧
        (∀ event ∈ check, FoundClear event) ∧
        LeavesPrompt kind endpoint apiKey model systemInstruction tools
          callbacks watch
          (prompted kind model systemInstruction userPrompt locals) later
          after) := by
  rw [BuiltIn.startTurn_eq] at run
  have finished : Action.Finishes _ locals history outcome after :=
    Program.runs_done_iff.mp run
  unfold BuiltIn.afterCheck at finished
  by_cases checks : kind.checksFirst = true
  · rw [if_pos checks] at finished
    obtain ⟨check, later, stop, between, rfl, checked, continued⟩ :=
      finishes_isSet_bind.mp finished
    obtain ⟨-, found, same, split⟩ := finishes_isSet checked
    cases same
    obtain ⟨rfl, ⟨same, clear⟩ | ⟨same, rfl⟩⟩ := finishes_check checked
    · cases same
      constructor
      · rintro ⟨rfl, others, entry⟩
        rw [split] at entry
        cases entry
      · intro _
        exact ⟨check, later, rfl, clear,
          finishes_failed_recordPrompt continued failed⟩
    · cases same
      obtain ⟨rfl, rfl, rfl⟩ := Action.finishes_pure.mp continued
      constructor
      · intro _ _ _
        rfl
      · intro unset
        cases watch with
        | false => cases split
        | true => exact absurd ⟨rfl, [], rfl⟩ unset
  · rw [if_neg checks] at finished
    constructor
    · rintro - config rfl
      exact absurd rfl checks
    · intro _
      exact ⟨[], history, rfl, by simp,
        finishes_failed_recordPrompt finished failed⟩

end Starts

/-! ## A prompt that could not be sent -/

/-- An environment without a network, in which nothing else happens. -/
def unreachable : List AgentEvent → (op : AgentOp) → agents.Answer op :=
  fun _ => quiet

/-- A start of DeepSeek whose request fails. -/
def failedRun : List AgentEvent ×
    (Except Exception ModelTurn × Conversation) :=
  Program.scripted unreachable
    (((BuiltIn.provider (.chat .deepSeek)
      (networked knownDocuments fun _ => "error")).startTurn "key" "model" ""
      "Hello" {} (hostCallbacks false false) (callerFlag false)).run.run {})
    []

/-- Whether a turn was returned and is not ok. -/
def returnsFailure : Except Exception ModelTurn → Bool
  | .ok turn => !turn.ok
  | .error _ => false

theorem failed_of_returnsFailure
    {outcome : Except Exception ModelTurn}
    (returns : returnsFailure outcome = true) :
    ∀ turn, outcome = .ok turn → turn.ok = false := by
  rintro turn rfl
  simpa [returnsFailure] using returns

theorem failed_failedRun :
    ∀ turn, failedRun.2.1 = .ok turn → turn.ok = false :=
  failed_of_returnsFailure (by decide +kernel)

theorem runs_failedRun :
    (((BuiltIn.provider (.chat .deepSeek)
      (networked knownDocuments fun _ => "error")).startTurn "key" "model" ""
      "Hello" {} (hostCallbacks false false) (callerFlag false)).run.run
        {}).Runs failedRun.1 (.done (failedRun.2.1, failedRun.2.2)) :=
  Program.runs_scripted_pair unreachable _

/-- A failed start does not always leave the history as it was. -/
theorem failed_start_not_undone :
    ¬ ∀ (kind : BuiltIn) (endpoint : Endpoint agents)
      (apiKey model systemInstruction userPrompt : String)
      (tools : ToolRegistry agents Conversation)
      (callbacks : StreamCallbacks agents) (watch : Bool)
      (locals after : Conversation) (history : List AgentEvent)
      (outcome : Except Exception ModelTurn),
      (((kind.provider endpoint).startTurn apiKey model systemInstruction
        userPrompt tools callbacks (callerFlag watch)).run.run locals).Runs
          history (.done (outcome, after)) →
      (∀ turn, outcome = .ok turn → turn.ok = false) →
      after.entries = locals.entries := by
  intro undone
  have empty := undone _ _ _ _ _ _ _ _ _ _ _ _ _ runs_failedRun
    failed_failedRun
  have grown : failedRun.2.2.entries.length = 1 := by decide +kernel
  rw [empty] at grown
  cases grown

/-- The prompt of the failed start is the only entry of the history. -/
theorem failed_start_records_prompt_failedRun :
    ∃ check later, failedRun.1 = check ++ later ∧
      (∀ event ∈ check, FoundClear event) ∧
      LeavesPrompt (.chat .deepSeek)
        (networked knownDocuments fun _ => "error") "key" "model" "" {}
        (hostCallbacks false false) false
        (prompted (.chat .deepSeek) "model" "" "Hello" {}) later
        failedRun.2.2 :=
  (failed_start_records_prompt runs_failedRun failed_failedRun).2 nofun

end ArnCore.Provider.FailedStart
