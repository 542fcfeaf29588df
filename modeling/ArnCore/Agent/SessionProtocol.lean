import Mathlib.Data.List.Induction
import ArnCore.Agent.Environment

/-!
# The turn-loop protocol of a prompt

A prompt runs against any provider, any tools and any moments of cancellation.
An observer keeps what matters of the history: how often a turn was started or
continued, the turns that were returned, and the tools executed since the last
of them.  Every operation is judged by what the observer saw before it.
-/

namespace ArnCore.Agent.SessionProtocol

open ArnCore.Collections
open ArnCore.Interaction
open ArnCore.Provider
open ArnCore.Tool
open ArnCore.Agent.Environment

/-! ## Sessions about whose environment nothing is known -/

/-- Tools registered one after the other, each of them unknown. -/
def anyRegistry (tools : List (ToolDefinition × Bool)) :
    ToolRegistry agents Unit :=
  tools.foldl
    (fun registry tool =>
      (registry.registerTool (some (anyTool tool.1 tool.2))).2) {}

/-- A session over unknown tools; provider and registry may be absent. -/
def anySession (config : AgentConfig) (hasProvider : Bool)
    (apiKey activeModel : String)
    (tools : Option (List (ToolDefinition × Bool)))
    (hasHandler : Bool) : AgentSession agents Unit where
  config := config
  tools := tools.map anyRegistry
  confirmHandler := hostConfirm hasHandler
  provider := if hasProvider then some anyProvider else none
  apiKey := apiKey
  activeModel := activeModel
  mutex := mutex .session
  activeProvider := pointer .activeProvider

/-- The registry a prompt of the session uses. -/
def usedRegistry (tools : Option (List (ToolDefinition × Bool))) :
    ToolRegistry agents Unit :=
  (tools.map anyRegistry).getD {}

/-! ## What an observer of a prompt sees -/

/-- One tool execution that returned. -/
structure Execution where
  name : String
  arguments : Json
  result : ToolResult

structure Conversation where
  starts : Nat := 0
  continues : Nat := 0
  turns : List ModelTurn := []
  executed : List Execution := []

/-- A call of the provider: a returned turn opens a new list of executions. -/
def Conversation.turned (conversation : Conversation)
    (outcome : Except Exception ModelTurn) : Conversation :=
  match outcome with
  | .ok turn =>
      { conversation with
        turns := conversation.turns ++ [turn]
        executed := [] }
  | .error _ => conversation

/-- A call of a tool. -/
def Conversation.ran (conversation : Conversation)
    (name : String) (arguments : Json)
    (outcome : Except Exception ToolResult) : Conversation :=
  match outcome with
  | .ok result =>
      { conversation with
        executed := conversation.executed ++
          [{ name := name, arguments := arguments, result := result }] }
  | .error _ => conversation

def observe (conversation : Conversation) : AgentEvent → Conversation
  | ⟨.startTurn _, outcome⟩ =>
      { conversation.turned outcome with
        starts := conversation.starts + 1 }
  | ⟨.continueTurn _, outcome⟩ =>
      { conversation.turned outcome with
        continues := conversation.continues + 1 }
  | ⟨.executeTool name arguments, outcome⟩ =>
      conversation.ran name arguments outcome
  | _ => conversation

/-- Everything seen of a history. -/
def conversation (history : List AgentEvent) : Conversation :=
  history.foldl observe {}

/--
`Answered registry calls executed responses`: the responses answer the calls
one by one and in order.  A registered call was executed exactly once, with its
own arguments, and contributes that result; any other call contributes the
unknown-tool error object without an execution.
-/
inductive Answered (registry : ToolRegistry agents Unit) :
    List ToolCall → List Execution → List ToolResponse → Prop where
  | nil : Answered registry [] [] []
  | executed {calls : List ToolCall} {executed : List Execution}
      {responses : List ToolResponse} (call : ToolCall) (result : ToolResult)
      (earlier : Answered registry calls executed responses)
      (registered : registry.hasTool call.name = true) :
      Answered registry (calls ++ [call])
        (executed ++
          [{ name := call.name
             arguments := call.arguments
             result := result }])
        (responses ++
          [{ callId := call.id
             name := call.name
             result := result.result }])
  | unknown {calls : List ToolCall} {executed : List Execution}
      {responses : List ToolResponse} (call : ToolCall)
      (earlier : Answered registry calls executed responses)
      (unregistered : registry.hasTool call.name = false) :
      Answered registry (calls ++ [call]) executed
        (responses ++
          [{ callId := call.id
             name := call.name
             result := .ofMembers
               [("error",
                 .string ("Unknown tool requested: " ++ call.name))] }])

/-- What a prompt may do after what was seen. -/
def Permitted (rounds : Int) (registry : ToolRegistry agents Unit)
    (seen : Conversation) : AgentOp → Prop
  | .startTurn _ => seen.starts = 0
  | .continueTurn request =>
      (seen.continues : Int) < rounds ∧
        ∃ turn,
          seen.turns[seen.continues]? = some turn ∧
            Answered registry turn.toolCalls seen.executed request.responses
  | .executeTool name arguments =>
      (seen.continues : Int) < rounds ∧
        ∃ turn earlier call later responses,
          seen.turns[seen.continues]? = some turn ∧
            turn.toolCalls = earlier ++ call :: later ∧
            Answered registry earlier seen.executed responses ∧
            call.name = name ∧ call.arguments = arguments
  | _ => True

/-- A successful prompt reports the text of the last turn, which had no calls. -/
def Concluded (outcome : Except Exception ApiResult)
    (seen : Conversation) : Prop :=
  ∀ result, outcome = .ok result → result.ok = true →
    ∃ turn, seen.turns.getLast? = some turn ∧
      turn.ok = true ∧ turn.toolCalls = [] ∧ result.message = turn.text

/-! ## The registry -/

/-- Every tool of the registry is one of the unknown ones, under its own name. -/
theorem anyRegistry_findTool
    {tools : List (ToolDefinition × Bool)} {name : String}
    {tool : ITool agents Unit}
    (found : (anyRegistry tools).findTool name = some tool) :
    ∃ definition confirms,
      tool = anyTool definition confirms ∧ definition.name = name := by
  have registered : anyRegistry tools =
      .registerAll (tools.map fun tool => anyTool tool.1 tool.2) := by
    rw [anyRegistry, ToolRegistry.registerAll, List.foldl_map]
  rw [registered] at found
  obtain ⟨member, named⟩ := ToolRegistry.findTool_registerAll found
  obtain ⟨⟨definition, confirms⟩, -, rfl⟩ := List.mem_map.mp member
  exact ⟨definition, confirms, rfl, named⟩

/-- What is assumed of a registry below. -/
def Unknown (registry : ToolRegistry agents Unit) : Prop :=
  ∀ name tool, registry.findTool name = some tool →
    ∃ definition confirms,
      tool = anyTool definition confirms ∧ definition.name = name

theorem usedRegistry_unknown (tools : Option (List (ToolDefinition × Bool))) :
    Unknown (usedRegistry tools) := by
  intro name tool found
  cases tools with
  | none => cases found
  | some tools => exact anyRegistry_findTool found

/-! ## Steps that the observer does not notice -/

section Rules

variable {rounds : Int} {registry : ToolRegistry agents Unit}
  {seen : Conversation}

/-- The condition a prompt is verified against. -/
abbrev Follows (rounds : Int) (registry : ToolRegistry agents Unit)
    {Value : Type}
    (post : Except Exception Value → Conversation → Prop)
    (action : Action agents Unit Value) (seen : Conversation) : Prop :=
  Action.Holds (monitored observe) (Permitted rounds registry)
    (fun outcome _ after => post outcome after) action () seen

theorem follows_bind
    {Value Result : Type}
    {post : Except Exception Result → Conversation → Prop}
    {action : Action agents Unit Value}
    {continuation : Value → Action agents Unit Result} :
    Follows rounds registry post (action >>= continuation) seen ↔
      Follows rounds registry
        (fun outcome after =>
          match outcome with
          | .ok value => Follows rounds registry post (continuation value) after
          | .error failure => post (.error failure) after)
        action seen :=
  Action.holds_bind

theorem isSet_follows
    {post : Except Exception Bool → Conversation → Prop}
    (attached : Bool) (implied : ∀ stop, post (.ok stop) seen) :
    Follows rounds registry post (isSet (callerFlag attached)) seen := by
  cases attached with
  | false => exact implied false
  | true =>
      refine ⟨trivial, ?_⟩
      rintro stop after rfl
      exact implied stop

theorem notify_follows
    {post : Except Exception Unit → Conversation → Prop}
    (attached : Bool) (message : String)
    (returned : post (.ok ()) seen)
    (thrown : ∀ failure, post (.error failure) seen) :
    Follows rounds registry post
      (notify (hostProgress attached) message) seen := by
  cases attached with
  | false => exact returned
  | true =>
      refine ⟨trivial, ?_⟩
      rintro (failure | ⟨⟩) after rfl
      · exact thrown failure
      · exact returned

end Rules

/-! ## The calls of one turn -/

section Prompt

variable {text progress attached : Bool}

/-- The state inside the loop over the calls of a turn. -/
structure Serving (rounds : Int) (registry : ToolRegistry agents Unit)
    (turn : ModelTurn) (served : List ToolCall)
    (responses : List ToolResponse) (before seen : Conversation) : Prop where
  inRounds : (seen.continues : Int) < rounds
  current : seen.turns[seen.continues]? = some turn
  answered : Answered registry served seen.executed responses
  starts : seen.starts = before.starts
  continues : seen.continues = before.continues
  turns : seen.turns = before.turns

/-- One dispatch through the registry answers one more call. -/
theorem execute_follows
    {rounds : Int} {registry : ToolRegistry agents Unit}
    {turn : ModelTurn} {earlier later : List ToolCall} {call : ToolCall}
    {responses : List ToolResponse} {before seen : Conversation}
    {context : ToolContext agents Unit}
    (unknown : Unknown registry)
    (ofTurn : turn.toolCalls = earlier ++ call :: later)
    (serving :
      Serving rounds registry turn earlier responses before seen) :
    Follows rounds registry
      (fun outcome after => ∀ result, outcome = .ok result →
        Serving rounds registry turn (earlier ++ [call])
          (responses ++
            [{ callId := call.id
               name := call.name
               result := result.result }]) before after)
      (registry.execute call.name call.arguments context) seen := by
  unfold ToolRegistry.execute
  cases found : registry.findTool call.name with
  | none =>
      rintro result ⟨⟩
      have unregistered : registry.hasTool call.name = false := by
        rw [ToolRegistry.hasTool, found]
        rfl
      exact { serving with answered := .unknown call serving.answered unregistered }
  | some tool =>
      have registered : registry.hasTool call.name = true := by
        rw [ToolRegistry.hasTool, found]
        rfl
      rcases unknown call.name tool found with
        ⟨definition, confirms, rfl, named⟩
      constructor
      · rw [named]
        exact ⟨serving.inRounds, turn, earlier, call, later, responses,
          serving.current, ofTurn, serving.answered, rfl, rfl⟩
      · rintro (failure | result) after rfl
        · rintro result ⟨⟩
        · rintro result ⟨⟩
          rw [named]
          exact { serving with answered := .executed call result serving.answered registered }

theorem runCalls_follows
    {session : AgentSession agents Unit}
    {rounds : Int} {registry : ToolRegistry agents Unit}
    {turn : ModelTurn} {before : Conversation}
    (unknown : Unknown registry) :
    ∀ (later earlier : List ToolCall) (responses : List ToolResponse)
      (seen : Conversation),
      turn.toolCalls = earlier ++ later →
      Serving rounds registry turn earlier responses before seen →
      Follows rounds registry
        (fun outcome after => ∀ responses, outcome = .ok (some responses) →
          Serving rounds registry turn turn.toolCalls responses before after)
        (AgentSession.runCalls session registry
          (hostCallbacks text progress) (callerFlag attached)
          later responses) seen := by
  intro later
  induction later with
  | nil =>
      rintro earlier responses seen ofTurn serving collected ⟨⟩
      rw [ofTurn, List.append_nil]
      exact serving
  | cons call later induction =>
      intro earlier responses seen ofTurn serving
      unfold AgentSession.runCalls
      rw [follows_bind]
      apply isSet_follows
      intro stop
      cases stop with
      | true =>
          rintro collected ⟨⟩
      | false =>
          apply follows_bind.mpr
          apply notify_follows
          · apply follows_bind.mpr
            apply (execute_follows unknown ofTurn serving).imp
            rintro (failure | result) locals after served
            · rintro collected ⟨⟩
            · apply induction (earlier ++ [call])
              · rw [List.append_assoc]
                exact ofTurn
              · exact served result rfl
          · rintro failure collected ⟨⟩

/-! ## The loop over turns -/

/-- The state at the head of the loop over turns. -/
structure Looping (round : Int) (turn : ModelTurn)
    (seen : Conversation) : Prop where
  starts : seen.starts = 1
  continues : (seen.continues : Int) = round
  length : seen.turns.length = seen.continues + 1
  last : seen.turns.getLast? = some turn
  ok : turn.ok = true
  executed : seen.executed = []

theorem Looping.current
    {round : Int} {turn : ModelTurn} {seen : Conversation}
    (looping : Looping round turn seen) :
    seen.turns[seen.continues]? = some turn := by
  have atEnd := looping.last
  rw [List.getLast?_eq_getElem?, looping.length] at atEnd
  exact atEnd

/-- A continued turn that is ok leads back to the head of the loop. -/
theorem Looping.continued
    {round : Int} {turn next : ModelTurn} {before seen : Conversation}
    (looping : Looping round turn before)
    (starts : seen.starts = before.starts)
    (continues : seen.continues = before.continues)
    (turns : seen.turns = before.turns)
    (ok : next.ok = true)
    {request : ContinueTurn} :
    Looping (round + 1) next
      (observe seen ⟨.continueTurn request, .ok next⟩) where
  starts := starts.trans looping.starts
  continues := by
    have same := looping.continues
    rw [← continues] at same
    show ((seen.continues + 1 : Nat) : Int) = round + 1
    omega
  length := by
    show (seen.turns ++ [next]).length = seen.continues + 1 + 1
    rw [List.length_append, turns, looping.length, continues]
    rfl
  last := List.getLast?_concat
  ok := ok
  executed := rfl

theorem not_ok_concluded
    {outcome : Except Exception ApiResult} {seen : Conversation}
    (notOk : ∀ result, outcome = .ok result → result.ok = false) :
    Concluded outcome seen := by
  intro result returned ok
  rw [notOk result returned] at ok
  cases ok

theorem cancelled_concluded {seen : Conversation} :
    Concluded (.ok AgentSession.requestCancelled) seen :=
  not_ok_concluded (by rintro result ⟨⟩; rfl)

theorem thrown_concluded {failure : Exception} {seen : Conversation} :
    Concluded (.error failure) seen :=
  not_ok_concluded (by rintro result ⟨⟩)

theorem turnLoop_follows
    {session : AgentSession agents Unit}
    {registry : ToolRegistry agents Unit}
    (unknown : Unknown registry) (round : Int) :
    ∀ (turn : ModelTurn) (seen : Conversation),
      Looping round turn seen →
      Follows session.config.maxToolRounds registry Concluded
        (AgentSession.turnLoop session anyProvider registry
          (hostCallbacks text progress) (callerFlag attached) round turn)
        seen := by
  -- The rounds that are left decrease with every iteration.
  induction left : (session.config.maxToolRounds - round).toNat
    using Nat.strongRecOn generalizing round with
  | ind left induction =>
      intro turn seen looping
      unfold AgentSession.turnLoop
      by_cases final : turn.toolCalls = []
      · rw [if_pos final]
        rintro result ⟨⟩ ok
        exact ⟨turn, looping.last, looping.ok, final, rfl⟩
      · rw [if_neg final]
        by_cases exhausted : round + 1 > session.config.maxToolRounds
        · rw [if_pos exhausted]
          exact not_ok_concluded (by rintro result ⟨⟩; rfl)
        · rw [if_neg exhausted]
          apply follows_bind.mpr
          have counted := looping.continues
          have serving : Serving session.config.maxToolRounds registry turn
              [] [] seen seen :=
            { inRounds := by omega
              current := looping.current
              answered := by rw [looping.executed]; exact .nil
              starts := rfl
              continues := rfl
              turns := rfl }
          apply (runCalls_follows unknown turn.toolCalls [] [] seen rfl
            serving).imp
          rintro (failure | _ | responses) locals after served
          · exact thrown_concluded
          · exact cancelled_concluded
          · have answered := served responses rfl
            apply follows_bind.mpr
            apply isSet_follows
            rintro (_ | _)
            · apply follows_bind.mpr
              refine ⟨⟨answered.inRounds, turn, answered.current,
                answered.answered⟩, ?_⟩
              rintro (failure | next) continued rfl
              · exact thrown_concluded
              · apply follows_bind.mpr
                apply isSet_follows
                rintro (_ | _)
                · by_cases ok : next.ok = true
                  · simp only [Bool.false_eq_true, if_false, ok, if_true]
                    apply induction _ _ (round + 1) rfl
                    · exact looping.continued answered.starts
                        answered.continues answered.turns ok
                    · omega
                  · simp only [Bool.false_eq_true, if_false, ok]
                    exact not_ok_concluded (by rintro result ⟨⟩; rfl)
                · exact cancelled_concluded
            · exact cancelled_concluded

/-! ## The prompt -/

theorem runTurns_follows
    (session : AgentSession agents Unit)
    {registry : ToolRegistry agents Unit}
    (unknown : Unknown registry) (input : String) :
    Follows session.config.maxToolRounds registry Concluded
      (AgentSession.runTurns session anyProvider registry
        (hostCallbacks text progress) (callerFlag attached) input) {} := by
  unfold AgentSession.runTurns
  apply follows_bind.mpr
  refine ⟨rfl, ?_⟩
  rintro (failure | turn) started rfl
  · exact thrown_concluded
  · apply follows_bind.mpr
    apply isSet_follows
    rintro (_ | _)
    · by_cases ok : turn.ok = true
      · simp only [Bool.false_eq_true, if_false, ok, if_true]
        apply turnLoop_follows unknown
        exact ⟨rfl, rfl, rfl, rfl, ok, rfl⟩
      · simp only [Bool.false_eq_true, if_false, ok]
        exact not_ok_concluded (by rintro result ⟨⟩; rfl)
    · exact cancelled_concluded

theorem promptLocked_follows
    (config : AgentConfig) (hasProvider : Bool) (apiKey activeModel : String)
    (tools : Option (List (ToolDefinition × Bool)))
    (hasHandler text progress attached : Bool) (input : String) :
    Follows config.maxToolRounds (usedRegistry tools) Concluded
      (AgentSession.promptLocked
        (anySession config hasProvider apiKey activeModel tools hasHandler)
        (hostCallbacks text progress) (callerFlag attached) input) {} := by
  unfold AgentSession.promptLocked
  have refused : ∀ message, Concluded (.ok { message := message }) {} :=
    fun message => not_ok_concluded (by rintro result ⟨⟩; rfl)
  cases hasProvider with
  | false => exact refused _
  | true =>
      show Follows _ _ _ (if apiKey = "" then _ else _) _
      split_ifs with noKey noModel
      · exact refused _
      · exact refused _
      · apply follows_bind.mpr
        apply isSet_follows
        rintro (_ | _)
        · apply follows_bind.mpr
          refine ⟨trivial, ?_⟩
          rintro (failure | ⟨⟩) trimmed rfl
          · exact thrown_concluded
          · apply follows_bind.mpr
            refine ⟨trivial, ?_⟩
            rintro ⟨⟩ published rfl
            show Follows _ _ _ (Action.scopeGuard _ _) _
            apply Action.holds_scopeGuard.mpr
            have turns : Follows config.maxToolRounds (usedRegistry tools)
                Concluded
                (AgentSession.runTurns
                  (anySession config true apiKey activeModel tools hasHandler)
                  anyProvider (usedRegistry tools)
                  (hostCallbacks text progress) (callerFlag attached) input)
                {} :=
              runTurns_follows _ (usedRegistry_unknown tools) input
            apply turns.imp
            intro outcome locals after concluded
            refine ⟨trivial, ?_⟩
            rintro ⟨⟩ cleared rfl
            exact concluded
        · exact cancelled_concluded

theorem prompt_follows
    (config : AgentConfig) (hasProvider : Bool) (apiKey activeModel : String)
    (tools : Option (List (ToolDefinition × Bool)))
    (hasHandler text progress attached : Bool) (input : String) :
    Follows config.maxToolRounds (usedRegistry tools) Concluded
      (AgentSession.prompt
        (anySession config hasProvider apiKey activeModel tools hasHandler)
        (hostCallbacks text progress) (callerFlag attached) input) {} := by
  apply follows_bind.mpr
  refine ⟨trivial, ?_⟩
  rintro ⟨⟩ locked rfl
  show Follows _ _ _ (Action.scopeGuard _ _) _
  apply Action.holds_scopeGuard.mpr
  apply (promptLocked_follows config hasProvider apiKey activeModel tools
    hasHandler text progress attached input).imp
  intro outcome locals after concluded
  refine ⟨trivial, ?_⟩
  rintro ⟨⟩ unlocked rfl
  exact concluded

end Prompt

/-! ## What a history of permitted operations adds up to -/

/-- Every operation of a history was permitted when it was issued. -/
def PermittedThroughout (rounds : Int) (registry : ToolRegistry agents Unit)
    (history : List AgentEvent) : Prop :=
  ∀ before event after, history = before ++ event :: after →
    Permitted rounds registry (conversation before) event.op

theorem conversation_snoc (history : List AgentEvent) (event : AgentEvent) :
    conversation (history ++ [event]) =
      observe (conversation history) event :=
  List.foldl_concat observe {} event history

theorem turned_counts (seen : Conversation)
    (outcome : Except Exception ModelTurn) :
    (seen.turned outcome).starts = seen.starts ∧
      (seen.turned outcome).continues = seen.continues := by
  cases outcome <;> exact ⟨rfl, rfl⟩

theorem ran_counts (seen : Conversation) (name : String) (arguments : Json)
    (outcome : Except Exception ToolResult) :
    (seen.ran name arguments outcome).starts = seen.starts ∧
      (seen.ran name arguments outcome).continues = seen.continues := by
  cases outcome <;> exact ⟨rfl, rfl⟩

theorem PermittedThroughout.bounds
    {rounds : Int} {registry : ToolRegistry agents Unit}
    {history : List AgentEvent}
    (permitted : PermittedThroughout rounds registry history) :
    (conversation history).starts ≤ 1 ∧
      (conversation history).continues ≤ rounds.toNat := by
  induction history using List.reverseRecOn with
  | nil => exact ⟨Nat.zero_le _, Nat.zero_le _⟩
  | append_singleton history event induction =>
      have last := permitted history event [] rfl
      have earlier := induction (by
        intro before other after split
        exact permitted before other (after ++ [event]) (by simp [split]))
      rw [conversation_snoc]
      rcases event with ⟨op, outcome⟩
      cases op with
      | startTurn request =>
          have counts := turned_counts (conversation history) outcome
          have first : (conversation history).starts = 0 := last
          show (conversation history).starts + 1 ≤ 1 ∧
            ((conversation history).turned outcome).continues ≤ _
          rw [first, counts.2]
          exact ⟨Nat.le_refl _, earlier.2⟩
      | continueTurn request =>
          have counts := turned_counts (conversation history) outcome
          have below : ((conversation history).continues : Int) < rounds :=
            last.1
          show ((conversation history).turned outcome).starts ≤ 1 ∧
            (conversation history).continues + 1 ≤ _
          rw [counts.1]
          exact ⟨earlier.1, by omega⟩
      | executeTool name arguments =>
          have counts := ran_counts (conversation history) name arguments
            outcome
          show ((conversation history).ran name arguments outcome).starts ≤ 1 ∧
            ((conversation history).ran name arguments outcome).continues ≤ _
          rw [counts.1, counts.2]
          exact earlier
      | _ => exact earlier

/-! ## The protocol -/

/--
Whatever the provider replies, whatever the tools return and whenever the flag
is set: a turn is started at most once and continued at most `max 0 rounds`
times, every continuation carries exactly the responses to the calls of the
turn before it, no call is executed once the round limit is reached, and a
successful prompt reports the text of its last turn.  This also covers the runs
in which something throws.
-/
theorem prompt_follows_turn_protocol
    (config : AgentConfig) (hasProvider : Bool) (apiKey activeModel : String)
    (tools : Option (List (ToolDefinition × Bool)))
    (hasHandler text progress attached : Bool) (input : String)
    (history : List AgentEvent)
    (rest : Program agents (Except Exception ApiResult × Unit))
    (run : Program.Runs
      ((AgentSession.prompt
        (anySession config hasProvider apiKey activeModel tools hasHandler)
        (hostCallbacks text progress) (callerFlag attached) input).run.run ())
      history rest) :
    (conversation history).starts ≤ 1 ∧
      (conversation history).continues ≤ (max 0 config.maxToolRounds).toNat ∧
      PermittedThroughout config.maxToolRounds (usedRegistry tools) history ∧
      ∀ outcome locals, rest = .done (outcome, locals) →
        Concluded outcome (conversation history) := by
  have verified := Program.Holds.runs
    (prompt_follows config hasProvider apiKey activeModel tools
      hasHandler text progress attached input) run
  have permitted :
      PermittedThroughout config.maxToolRounds (usedRegistry tools) history :=
    verified.1
  have bounds := permitted.bounds
  refine ⟨bounds.1, by omega, permitted, ?_⟩
  rintro outcome locals rfl
  exact verified.2

/-- A provider that asks for one search and then answers. -/
def searchOnce : List AgentEvent → (op : AgentOp) → agents.Answer op
  | _, .startTurn _ =>
      .ok
        { ok := true
          toolCalls := [{ id := "call_1", name := "search", arguments := .null }] }
  | _, .continueTurn _ => .ok { ok := true, text := "found" }
  | _, op => quiet op

/-- A prompt of a session with one tool, run against `searchOnce`. -/
def searchRun : List AgentEvent × (Except Exception ApiResult × Unit) :=
  Program.scripted searchOnce
    ((AgentSession.prompt
      (anySession {} true "key" "model"
        (some
          [({ name := "search", description := "", parameterSchema := .null },
            false)])
        false)
      (hostCallbacks false false) (callerFlag false) "find it").run.run ())
    []

/-- The protocol on a run with one round of tool calls. -/
theorem prompt_follows_turn_protocol_search :
    (conversation searchRun.1).starts ≤ 1 ∧
      (conversation searchRun.1).continues ≤ (max 0 (12 : Int)).toNat ∧
      PermittedThroughout 12
        (usedRegistry
          (some
            [({ name := "search", description := "", parameterSchema := .null },
              false)]))
        searchRun.1 ∧
      ∀ outcome locals,
        (.done searchRun.2 : Program agents _) = .done (outcome, locals) →
          Concluded outcome (conversation searchRun.1) :=
  prompt_follows_turn_protocol {} true "key" "model"
    (some
      [({ name := "search", description := "", parameterSchema := .null },
        false)])
    false false false false "find it" searchRun.1 (.done searchRun.2)
    (Program.runs_scripted_pair searchOnce _)

example :
    searchRun.2 = (.ok { ok := true, message := "found" }, ()) ∧
      (conversation searchRun.1).continues = 1 := by
  decide +kernel

end ArnCore.Agent.SessionProtocol
