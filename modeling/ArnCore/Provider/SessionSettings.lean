import ArnCore.Provider.SentRequests
import ArnCore.Provider.SessionCommands

/-!
# What the configuration of a session decides

The calls of a session and their replies determine its settings.  Its members
are the settings after every sequence of calls, whatever the network answers
and wherever an exception interrupts a call; and every request a session sends
is for the provider, the key, the model and the instruction of its settings.
-/

namespace ArnCore.Provider.SessionSettings

open ArnCore.Agent
open ArnCore.Agent.Environment
open ArnCore.Interaction
open ArnCore.Interaction.Action
open ArnCore.Net
open ArnCore.Provider.BuiltInTurn
open ArnCore.Provider.LastRequest
open ArnCore.Provider.ModelDiscovery
open ArnCore.Provider.ProviderSession
open ArnCore.Provider.SentRequests
open ArnCore.Provider.SessionCommands
open ArnCore.Provider.StreamedCalls
open ArnCore.Tool

/-! ## Settings -/

/-- What the calls of a session set. -/
structure Settings where
  provider : Option BuiltIn := none
  apiKey : String := ""
  activeModel : String := ""
  availableModels : List String := []
  instruction : String := ""
  tools : Option (List (ToolDefinition × Bool)) := none

namespace Settings

/-- A provider is configured; only a listing that succeeds offers models. -/
def configured (settings : Settings) (provider : Option BuiltIn)
    (apiKey : String) (outcome : Except Exception Reply) : Settings :=
  let reset : Settings :=
    { settings with
      provider := provider
      apiKey := apiKey
      activeModel := ""
      availableModels := [] }
  match provider, outcome with
  | some kind, .ok (.result result) =>
      if result.ok then
        { reset with
          availableModels := result.models
          activeModel := kind.preferredModel result.models }
      else
        reset
  | _, _ => reset

/-- The settings after a call, as its reply tells them. -/
def after (settings : Settings) (entry : Entry) : Settings :=
  match entry.command with
  | .setSystemInstruction instruction =>
      { settings with instruction := instruction }
  | .setTools tools => { settings with tools := tools }
  | .configureProvider provider apiKey _ =>
      settings.configured (provider.map Supplied.kind) apiKey entry.outcome
  | .configureType type apiKey _ =>
      match createProvider type with
      | none => settings
      | some kind => settings.configured (some kind) apiKey entry.outcome
  | .setProvider provider apiKey =>
      { settings with
        provider := provider.map Supplied.kind
        apiKey := apiKey }
  | .selectModel model => { settings with activeModel := model }
  | _ => settings

/-- The settings of a constructed session, after a sequence of calls. -/
def ofLog (config : AgentConfig) (log : List Entry) : Settings :=
  log.foldl after { instruction := config.systemInstruction }

/-- Why a prompt is refused. -/
def refusal (settings : Settings) : Option String :=
  if settings.provider.isNone then
    some "Select a provider first."
  else if settings.apiKey = "" then
    some "No API key is set."
  else if settings.activeModel = "" then
    some "No model is selected."
  else
    none

/-- The tools a request offers. -/
def registry (settings : Settings) : ToolRegistry agents Conversation :=
  (settings.tools.map nativeRegistry).getD {}

end Settings

/-- The provider and the key a call configures, if it lists models. -/
def Command.listing? : Command → Option (BuiltIn × String)
  | .configureProvider (some provider) apiKey _ =>
      some (provider.kind, apiKey)
  | .configureType type apiKey _ =>
      (createProvider type).map fun kind => (kind, apiKey)
  | _ => none

/--
The requests a call may send with these settings.  The conversation that a turn
carries is left open: a provider of chat completions sends the instruction as
an entry of it, so that only the payload of Gemini names the instruction here.
-/
inductive Asks (json : JsonText) (settings : Settings) :
    Command → HttpRequest → Prop where
  | lists {command : Command} {kind : BuiltIn} {apiKey : String}
      (configures : Command.listing? command = some (kind, apiKey)) :
      Asks json settings command (listRequest kind apiKey)
  | prompts {kind : BuiltIn} {input : String} {text progress watch : Bool}
      {request : HttpRequest} (provided : settings.provider = some kind)
      (permitted : settings.refusal = none)
      (asked : AskedTurn json kind settings.apiKey settings.activeModel
        settings.instruction settings.registry request) :
      Asks json settings (.prompt input text progress watch) request

/-- What a call returns, as far as the settings decide it. -/
def Tells (settings : Settings) (entry : Entry) : Prop :=
  match entry.command with
  | .availableModels =>
      entry.outcome = .ok (.models settings.availableModels)
  | .preferredModel =>
      entry.outcome = .ok (.model
        (preferredOf settings.provider settings.availableModels))
  | .activeModel => entry.outcome = .ok (.model settings.activeModel)
  | .activeProvider =>
      entry.outcome = .ok (.type
        ((settings.provider.map providerType).getD .none))
  | .prompt _ _ _ _ =>
      ∀ message, settings.refusal = some message →
        entry.outcome = .ok (.result { message := message })
  | _ => True

/-! ## Single calls -/

/-- The settings that the members of a session make. -/
def settingsOf (state : SessionState) : Settings where
  provider := state.provider
  apiKey := state.apiKey
  activeModel := state.activeModel
  availableModels := state.availableModels
  instruction := state.config.systemInstruction
  tools := state.tools

section Calls

variable {json : JsonText} {errorText : HttpError → String}
  {before after : SessionState} {history : List AgentEvent}
  {outcome : Except Exception Reply}

theorem unsent_locked : Unsent [⟨.lock .session, ()⟩, ⟨.unlock .session, ()⟩] := by
  intro event member
  rw [isSend_iff]
  rcases List.mem_pair.mp member with rfl | rfl <;> exact Bool.false_ne_true

theorem finishes_assign
    {update : SessionState → SessionState}
    (run : Finishes (assign update) before history outcome after) :
    after = update before ∧ Unsent history := by
  rcases finishes_bind.mp run with
    ⟨failure, -, locked⟩ |
    ⟨first, later, value, between, rfl, locked, finished⟩
  · obtain ⟨inner, -, assigned⟩ := finishes_guarded.mp locked
    obtain ⟨-, impossible, -⟩ := finishes_modify.mp assigned
    cases impossible
  · obtain ⟨inner, rfl, assigned⟩ := finishes_guarded.mp locked
    obtain ⟨rfl, -, rfl⟩ := finishes_modify.mp assigned
    obtain ⟨rfl, -, rfl⟩ := finishes_pure.mp finished
    exact ⟨rfl, unsent_locked⟩

theorem finishes_inspect
    {look : SessionState → Reply}
    (run : Finishes (inspect look) before history outcome after) :
    after = before ∧ outcome = .ok (look before) ∧ Unsent history := by
  obtain ⟨inner, rfl, looked⟩ := finishes_guarded.mp run
  have returned : Finishes (pure (look before)) before inner outcome after :=
    looked
  obtain ⟨rfl, rfl, rfl⟩ := finishes_pure.mp returned
  exact ⟨rfl, rfl, unsent_locked⟩

/-- A call on the provider changes nothing but its variables. -/
theorem finishes_onSession
    {Value : Type} {reply : Value → Reply}
    {call : AgentSession agents Conversation →
      Action agents Conversation Value}
    (run : Finishes (onSession json errorText reply call) before history
      outcome after) :
    ∃ inner value,
      Finishes (call (before.session json errorText)) before.conversation
          history value inner ∧
        after = { before with conversation := inner } ∧
        outcome = value.map reply := by
  rcases finishes_bind.mp (finishes_get_bind.mp run) with
    ⟨failure, rfl, thrown⟩ |
    ⟨first, later, value, between, rfl, called, finished⟩
  · obtain ⟨inner, ran, rfl⟩ := finishes_within.mp thrown
    exact ⟨inner, _, ran, rfl, rfl⟩
  · obtain ⟨inner, ran, rfl⟩ := finishes_within.mp called
    obtain ⟨rfl, rfl, rfl⟩ := finishes_pure.mp finished
    rw [List.append_nil]
    exact ⟨inner, _, ran, rfl, rfl⟩

/-- What is sent under the mutex is sent between taking and releasing it. -/
theorem mem_of_mem_locked
    {event : AgentEvent} {inner : List AgentEvent} (sent : IsSend event)
    (member : event ∈ (⟨.lock .session, ()⟩ : AgentEvent) ::
      (inner ++ [⟨.unlock .session, ()⟩])) : event ∈ inner := by
  obtain ⟨request, same⟩ := sent
  rcases List.mem_cons.mp member with rfl | member
  · cases same
  · rcases List.mem_append.mp member with inside | last
    · exact inside
    · rw [List.mem_singleton.mp last] at same
      cases same

/-- Configuring sends the listings of the provider, under the mutex. -/
theorem finishes_configureProvider
    {provider : Option Supplied} {apiKey : String} {watch : Bool}
    (run : Finishes (configureProvider json errorText provider apiKey watch)
      before history outcome after) :
    settingsOf after = (settingsOf before).configured
        (provider.map Supplied.kind) apiKey outcome ∧
      ∀ request transfer, ⟨AgentOp.send request, transfer⟩ ∈ history →
        ∃ supplied, provider = some supplied ∧
          request = listRequest supplied.kind apiKey := by
  obtain ⟨inner, rfl, configures⟩ := finishes_guarded.mp run
  have configures := finishes_modify_bind.mp configures
  cases provider with
  | none =>
      obtain ⟨rfl, rfl, rfl⟩ := finishes_pure.mp configures
      exact ⟨rfl, fun _ _ member => absurd
        (mem_of_mem_locked ⟨_, rfl⟩ member) List.not_mem_nil⟩
  | some supplied =>
      have lists : ∀ {listed : List AgentEvent} {state : SessionState}
          {result : Except Exception ApiResult} {final : SessionState},
          Finishes
            (Action.within SessionState.provided
              (supplied.kind.listModels (networked json errorText) apiKey
                (callerFlag watch))) state listed result final →
            settingsOf final = settingsOf state ∧
              ∀ request transfer,
                ⟨AgentOp.send request, transfer⟩ ∈ listed →
                  request = listRequest supplied.kind apiKey := by
        intro listed state result final run
        obtain ⟨conversation, ran, rfl⟩ := finishes_within.mp run
        refine ⟨rfl, fun request transfer member => ?_⟩
        exact (listModels_sendsOnly supplied.kind apiKey).of_finishes ran _
          member request rfl
      rcases finishes_bind.mp configures with
        ⟨failure, rfl, thrown⟩ |
        ⟨listed, rest, result, between, rfl, returned, settled⟩
      · obtain ⟨same, sends⟩ := lists thrown
        refine ⟨same, fun request transfer member => ⟨supplied, rfl, ?_⟩⟩
        exact sends request transfer (mem_of_mem_locked ⟨_, rfl⟩ member)
      · obtain ⟨same, sends⟩ := lists returned
        have concluded : rest = [] ∧ settingsOf after =
            (settingsOf before).configured (some supplied.kind) apiKey
              outcome := by
          cases ok : result.ok with
          | true =>
              rw [ok, if_pos rfl] at settled
              have replied : Finishes (pure (Reply.result result))
                  { between with
                    availableModels := result.models
                    activeModel :=
                      supplied.kind.preferredModel result.models }
                  rest outcome after := settled
              obtain ⟨rfl, rfl, rfl⟩ := finishes_pure.mp replied
              refine ⟨rfl, ?_⟩
              simp only [Settings.configured, ok, if_true]
              exact congrArg
                (fun settings : Settings =>
                  { settings with
                    availableModels := result.models
                    activeModel :=
                      supplied.kind.preferredModel result.models }) same
          | false =>
              rw [ok, if_neg Bool.false_ne_true] at settled
              obtain ⟨rfl, rfl, rfl⟩ := finishes_pure.mp settled
              refine ⟨rfl, ?_⟩
              simp only [Settings.configured, ok, Bool.false_eq_true, if_false]
              exact same
        obtain ⟨rfl, same⟩ := concluded
        refine ⟨same, fun request transfer member => ⟨supplied, rfl, ?_⟩⟩
        have member := mem_of_mem_locked ⟨_, rfl⟩ member
        rw [List.append_nil] at member
        exact sends request transfer member

/-- A refused prompt does nothing but to look at the members. -/
theorem finishes_refused
    {input message : String} {text progress watch : Bool}
    {locals later : Conversation} {outcome : Except Exception ApiResult}
    (refused : (settingsOf before).refusal = some message)
    (run : Finishes
      ((before.session json errorText).prompt (hostCallbacks text progress)
        (callerFlag watch) input) locals history outcome later) :
    outcome = .ok { message := message } ∧ Unsent history := by
  obtain ⟨inner, rfl, prompted⟩ := finishes_guarded.mp run
  have answers : Finishes
      (pure { message := message } : Action agents Conversation ApiResult)
      locals inner outcome later := by
    unfold AgentSession.promptLocked SessionState.session at prompted
    unfold Settings.refusal settingsOf at refused
    cases provided : before.provider with
    | none =>
        simp only [provided, Option.isNone_none, if_true] at refused
        cases refused
        simpa only [provided, Option.map_none] using prompted
    | some kind =>
        simp only [provided, Option.isNone_some, Bool.false_eq_true,
          if_false] at refused
        simp only [provided, Option.map_some] at prompted
        split_ifs at refused with unset unselected
        · cases refused
          rwa [if_pos unset] at prompted
        · cases refused
          rwa [if_neg unset, if_pos unselected] at prompted
  obtain ⟨rfl, rfl, -⟩ := finishes_pure.mp answers
  exact ⟨rfl, unsent_locked⟩

/-- Under the mutex an action sends what it sends without. -/
theorem guarded_sendsOnly
    {Locals Value : Type} {allowed : HttpRequest → Prop}
    {body : Action agents Locals Value} (sends : SendsOnly allowed body) :
    SendsOnly allowed ((mutex .session).guarded body) :=
  .bind (always_sendsOnly (.lock .session) nofun) fun _ =>
    .scopeGuard sends (always_sendsOnly (.unlock .session) nofun)

theorem modelCapabilities_sendsOnly {allowed : HttpRequest → Prop} :
    SendsOnly allowed (before.session json errorText).modelCapabilities := by
  refine guarded_sendsOnly ?_
  unfold SessionState.session
  rcases before.provider with _ | ⟨_ | config⟩ | _
  · exact .pure _
  · exact .pure _
  · exact .bind .get fun _ => .pure _
  · exact .pure _

theorem resetSession_sendsOnly {allowed : HttpRequest → Prop} :
    SendsOnly allowed (before.session json errorText).resetSession := by
  refine guarded_sendsOnly ?_
  unfold SessionState.session
  rcases before.provider with _ | ⟨_ | config⟩ | _
  · exact .pure _
  · exact .modify _
  · exact .modify _
  · exact .modify _

theorem cancelActiveRequest_sendsOnly {allowed : HttpRequest → Prop} :
    SendsOnly allowed
      (before.session json errorText).cancelActiveRequest := by
  have either : ∀ stop : Action agents Conversation Unit,
      SendsOnly allowed stop →
        SendsOnly allowed
          (do
            let active ← ofHost (pointer .activeProvider).present
            if active then stop else (mutex .session).guarded stop) := by
    intro stop sends
    refine .bind (always_sendsOnly (.present .activeProvider) nofun)
      fun active => ?_
    cases active with
    | true => exact sends
    | false => exact guarded_sendsOnly sends
  unfold AgentSession.cancelActiveRequest SessionState.session
  rcases before.provider with _ | ⟨_ | config⟩ | _
  · exact either _ (.pure _)
  · exact either _ (always_sendsOnly .stopClient nofun)
  · exact either _ (always_sendsOnly .stopClient nofun)
  · exact either _ (always_sendsOnly .stopClient nofun)

/-- The request of a prompt that is not refused. -/
theorem asks_of_prompt
    {input : String} {text progress watch : Bool}
    {locals later : Conversation} {outcome : Except Exception ApiResult}
    (run : Finishes
      ((before.session json errorText).prompt (hostCallbacks text progress)
        (callerFlag watch) input) locals history outcome later)
    {request : HttpRequest} {transfer : Transfer}
    (sent : ⟨AgentOp.send request, transfer⟩ ∈ history) :
    Asks json (settingsOf before) (.prompt input text progress watch)
      request := by
  cases refused : (settingsOf before).refusal with
  | some message =>
      exact absurd ⟨request, rfl⟩ ((finishes_refused refused run).2 _ sent)
  | none =>
      cases provided : before.provider with
      | none => simp [Settings.refusal, settingsOf, provided] at refused
      | some kind =>
          have same : before.session json errorText =
              (before.setup kind json errorText).session
                before.config.systemInstruction := by
            unfold SessionState.session
            rw [provided]
            rfl
          rw [same] at run
          exact .prompts provided refused
            ((prompt_sends _ _ _ _ _ _ run fun _ _ => trivial).1 _ sent request
              rfl)

/-- One call moves the settings, and is answered by them. -/
theorem settings_of_step
    {entry : Entry} (step : Step json errorText before entry after) :
    settingsOf after = (settingsOf before).after entry ∧
      (∀ request transfer,
        ⟨AgentOp.send request, transfer⟩ ∈ entry.history →
          Asks json (settingsOf before) entry.command request) ∧
      Tells (settingsOf before) entry := by
  obtain ⟨command, history, outcome⟩ := entry
  have never : ∀ {Value : Type} {call : Action agents Conversation Value}
      {locals later : Conversation} {ended : Except Exception Value},
      SendsOnly (fun _ => False) call →
        Finishes call locals history ended later →
          ∀ request transfer, ⟨AgentOp.send request, transfer⟩ ∈ history →
            Asks json (settingsOf before) command request :=
    fun sends run request _ member =>
      (sends.of_finishes run _ member request rfl).elim
  have quiet : Unsent history →
      ∀ request transfer, ⟨AgentOp.send request, transfer⟩ ∈ history →
        Asks json (settingsOf before) command request :=
    fun silent request _ member => absurd ⟨request, rfl⟩ (silent _ member)
  cases command with
  | setSystemInstruction instruction =>
      obtain ⟨rfl, silent⟩ := finishes_assign step
      exact ⟨rfl, quiet silent, trivial⟩
  | setTools tools =>
      obtain ⟨rfl, silent⟩ := finishes_assign step
      exact ⟨rfl, quiet silent, trivial⟩
  | setConfirmationHandler attached =>
      obtain ⟨rfl, silent⟩ := finishes_assign step
      exact ⟨rfl, quiet silent, trivial⟩
  | configureProvider provider apiKey watch =>
      obtain ⟨same, sends⟩ := finishes_configureProvider step
      refine ⟨same, fun request transfer member => ?_, trivial⟩
      obtain ⟨supplied, rfl, rfl⟩ := sends request transfer member
      exact .lists rfl
  | configureType type apiKey watch =>
      simp only [Settings.after]
      cases created : createProvider type with
      | none =>
          simp only [Step, SessionCommands.perform, created] at step
          obtain ⟨rfl, -, rfl⟩ := finishes_pure.mp step
          exact ⟨rfl, quiet (by simp [Unsent]), trivial⟩
      | some kind =>
          simp only [Step, SessionCommands.perform, created] at step
          obtain ⟨same, sends⟩ := finishes_configureProvider step
          refine ⟨same, fun request transfer member => ?_, trivial⟩
          obtain ⟨supplied, same, rfl⟩ := sends request transfer member
          cases same
          refine .lists ?_
          simp only [Command.listing?, created, Option.map_some]
  | setProvider provider apiKey =>
      obtain ⟨rfl, silent⟩ := finishes_assign step
      exact ⟨rfl, quiet silent, trivial⟩
  | availableModels =>
      obtain ⟨rfl, same, silent⟩ := finishes_inspect step
      exact ⟨rfl, quiet silent, same⟩
  | preferredModel =>
      obtain ⟨rfl, same, silent⟩ := finishes_inspect step
      exact ⟨rfl, quiet silent, same⟩
  | selectModel model =>
      obtain ⟨rfl, silent⟩ := finishes_assign step
      exact ⟨rfl, quiet silent, trivial⟩
  | activeModel =>
      obtain ⟨rfl, same, silent⟩ := finishes_inspect step
      exact ⟨rfl, quiet silent, same⟩
  | modelCapabilities =>
      have called : Finishes
          (onSession json errorText .capabilities
            AgentSession.modelCapabilities) before history outcome after :=
        step
      obtain ⟨inner, value, run, rfl, -⟩ := finishes_onSession called
      exact ⟨rfl, never modelCapabilities_sendsOnly run, trivial⟩
  | prompt input text progress watch =>
      have called : Finishes
          (onSession json errorText .result fun session =>
            session.prompt (hostCallbacks text progress) (callerFlag watch)
              input) before history outcome after := step
      obtain ⟨inner, value, run, rfl, same⟩ := finishes_onSession called
      refine ⟨rfl, fun request transfer => asks_of_prompt run, ?_⟩
      intro message refused
      obtain ⟨rfl, -⟩ := finishes_refused refused run
      exact same
  | cancelActiveRequest =>
      have called : Finishes
          (onSession json errorText (fun _ => .done)
            AgentSession.cancelActiveRequest) before history outcome after :=
        step
      obtain ⟨inner, value, run, rfl, -⟩ := finishes_onSession called
      exact ⟨rfl, never cancelActiveRequest_sendsOnly run, trivial⟩
  | resetSession =>
      have called : Finishes
          (onSession json errorText (fun _ => .done)
            AgentSession.resetSession) before history outcome after := step
      obtain ⟨inner, value, run, rfl, -⟩ := finishes_onSession called
      exact ⟨rfl, never resetSession_sendsOnly run, trivial⟩
  | sessionEntries =>
      obtain ⟨rfl, -, silent⟩ := finishes_inspect step
      exact ⟨rfl, quiet silent, trivial⟩
  | activeProvider =>
      obtain ⟨rfl, same, silent⟩ := finishes_inspect step
      exact ⟨rfl, quiet silent, same⟩

end Calls

/-! ## Sequences of calls -/

/-- The settings follow the log. -/
theorem settings_of_execution
    {json : JsonText} {errorText : HttpError → String} {config : AgentConfig}
    {log : List Entry} {state : SessionState}
    (execution : Execution (Step json errorText) (.created config) log state) :
    settingsOf state = Settings.ofLog config log := by
  induction execution with
  | start => rfl
  | extend past last induction =>
      rw [(settings_of_step last).1, induction]
      simp only [Settings.ofLog, List.foldl_append, List.foldl_cons,
        List.foldl_nil]

/-- Whether a call decides which model is active. -/
def Command.decidesModel : Command → Bool
  | .configureProvider _ _ _ => true
  | .configureType type _ _ => (createProvider type).isSome
  | .selectModel _ => true
  | _ => false

/--
The last call that decided the model either selected it, or configured a
provider whose listing contains it.
-/
def Chosen (log : List Entry) (model : String) : Prop :=
  ∃ before entry later, log = before ++ entry :: later ∧
    (entry.command = .selectModel model ∨
      ∃ kind apiKey result,
        Command.listing? entry.command = some (kind, apiKey) ∧
          entry.outcome = .ok (.result result) ∧ result.ok = true ∧
          model ∈ result.models) ∧
    ∀ other ∈ later, Command.decidesModel other.command = false

theorem Chosen.append
    {log : List Entry} {model : String} {entry : Entry}
    (chosen : Chosen log model)
    (silent : Command.decidesModel entry.command = false) :
    Chosen (log ++ [entry]) model := by
  obtain ⟨before, deciding, later, rfl, decides, quiet⟩ := chosen
  refine ⟨before, deciding, later ++ [entry], by simp, decides, ?_⟩
  simp only [List.forall_mem_append, List.forall_mem_singleton]
  exact ⟨quiet, silent⟩

/-- A provider that was configured prefers a model of its listing. -/
theorem chosen_of_configured
    {log : List Entry} {settings : Settings} {provider : Option BuiltIn}
    {apiKey : String} {entry : Entry}
    (listing : ∀ kind, provider = some kind →
      Command.listing? entry.command = some (kind, apiKey))
    (set : (settings.configured provider apiKey entry.outcome).activeModel ≠
      "") :
    Chosen (log ++ [entry])
      (settings.configured provider apiKey entry.outcome).activeModel := by
  unfold Settings.configured at set ⊢
  split at set
  · rename_i kind result returned
    split at set
    · rename_i ok
      rw [if_pos ok]
      refine ⟨log, entry, [], rfl, Or.inr ?_, by simp⟩
      refine ⟨kind, apiKey, result, listing kind rfl, returned, ok, ?_⟩
      exact preferredModel_mem fun empty => set (by
        rw [empty]
        exact preferredModel_nil kind)
    · exact absurd rfl set
  · exact absurd rfl set

theorem ofLog_concat
    (config : AgentConfig) (log : List Entry) (entry : Entry) :
    Settings.ofLog config (log ++ [entry]) =
      (Settings.ofLog config log).after entry := by
  simp only [Settings.ofLog, List.foldl_append, List.foldl_cons,
    List.foldl_nil]

/-- Other calls leave the model as it is. -/
theorem activeModel_of_undecided
    {settings : Settings} {entry : Entry}
    (undecided : Command.decidesModel entry.command = false) :
    (settings.after entry).activeModel = settings.activeModel := by
  obtain ⟨command, history, outcome⟩ := entry
  cases command with
  | configureProvider provider apiKey watch => cases undecided
  | selectModel model => cases undecided
  | configureType type apiKey watch =>
      cases created : createProvider type with
      | none => simp only [Settings.after, created]
      | some kind => simp [Command.decidesModel, created] at undecided
  | _ => rfl

/-- An active model was chosen by the last call that decided. -/
theorem chosen_of_activeModel
    {config : AgentConfig} {log : List Entry}
    (set : (Settings.ofLog config log).activeModel ≠ "") :
    Chosen log (Settings.ofLog config log).activeModel := by
  induction log using List.reverseRecOn with
  | nil => exact absurd rfl set
  | append_singleton log entry induction =>
      rw [ofLog_concat] at set ⊢
      cases decides : Command.decidesModel entry.command with
      | false =>
          rw [activeModel_of_undecided decides] at set ⊢
          exact (induction set).append decides
      | true =>
          obtain ⟨command, history, outcome⟩ := entry
          cases command with
          | configureProvider provider apiKey watch =>
              refine chosen_of_configured ?_ set
              rintro kind same
              obtain ⟨supplied, rfl, rfl⟩ := Option.map_eq_some_iff.mp same
              rfl
          | configureType type apiKey watch =>
              simp only [Settings.after] at set ⊢
              cases created : createProvider type with
              | none => simp [Command.decidesModel, created] at decides
              | some kind =>
                  simp only [created] at set ⊢
                  refine chosen_of_configured ?_ set
                  rintro _ ⟨⟩
                  simp only [Command.listing?, created, Option.map_some]
          | selectModel model => exact ⟨log, _, [], rfl, Or.inl rfl, by simp⟩
          | _ => cases decides

/-! ## Every request -/

section Requests

variable {json : JsonText} {errorText : HttpError → String}
  {config : AgentConfig} {log : List Entry} {state : SessionState}

/-- Every call finds the settings of the calls before it. -/
theorem follows_of_execution
    {earlier later : List Entry} {entry : Entry}
    (execution : Execution (Step json errorText) (.created config)
      (earlier ++ entry :: later) state) :
    (∀ request transfer,
      ⟨AgentOp.send request, transfer⟩ ∈ entry.history →
        Asks json (Settings.ofLog config earlier) entry.command request) ∧
      Tells (Settings.ofLog config earlier) entry := by
  obtain ⟨before, after, past, step⟩ := execution.step_of_log
  rw [← settings_of_execution past]
  exact (settings_of_step step).2

/-- A model is active where no prompt is refused. -/
theorem activeModel_of_permitted
    {settings : Settings} (permitted : settings.refusal = none) :
    settings.activeModel ≠ "" := by
  unfold Settings.refusal at permitted
  split_ifs at permitted with missing unset unselected
  exact unselected

/--
After every sequence of calls the members of a session are the settings that
the calls and their replies make.  Every call in it is answered by the settings
it finds; the only requests are the listing of a provider that is configured,
and turns for the provider, the key, the model and the tools of the settings
(for Gemini also for their instruction) over some conversation; and a prompt
that lacks one of the first three is refused.
-/
theorem session_follows_settings
    (execution : Execution (Step json errorText) (.created config) log state) :
    settingsOf state = Settings.ofLog config log ∧
      ∀ earlier entry later, log = earlier ++ entry :: later →
        (∀ request transfer,
          ⟨AgentOp.send request, transfer⟩ ∈ entry.history →
            Asks json (Settings.ofLog config earlier) entry.command request) ∧
        Tells (Settings.ofLog config earlier) entry := by
  refine ⟨settings_of_execution execution, ?_⟩
  rintro earlier entry later rfl
  exact follows_of_execution execution

/-- The request names its model, in its payload or in its path. -/
def NamesModel (kind : BuiltIn) (model : String) (request : HttpRequest) :
    Prop :=
  match kind with
  | .chat _ => request.payload.find? "model" = some (.string model)
  | .gemini => request.path = BuiltIn.gemini.path model

/-- What is asked for is asked for by the name of the model. -/
theorem namesModel_of_askedTurn
    {kind : BuiltIn} {apiKey model instruction : String}
    {tools : ToolRegistry agents Conversation} {request : HttpRequest}
    (asked : AskedTurn json kind apiKey model instruction tools request) :
    NamesModel kind model request := by
  obtain ⟨conversation, same⟩ := asked.payload
  rcases kind with ⟨_ | config⟩ | _
  · rw [NamesModel, same, BuiltIn.payload, buildDeepseekPayload,
      Json.find?_ofMembers, chatToolMembers]
    split_ifs
    all_goals rfl
  · rw [NamesModel, same, BuiltIn.payload, buildOpenrouterPayload,
      Json.find?_ofMembers, chatToolMembers]
    split_ifs
    all_goals rfl
  · exact asked.path

/--
Every request for a turn asks for a model by its name, and that model was
chosen by the last call that decided it: `select_model` named it, or it is in
the listing of the provider that was configured.  In particular nothing is
prompted behind a listing that failed until a model is selected.
-/
theorem requested_model_chosen
    {earlier later : List Entry} {entry : Entry} {input : String}
    {text progress watch : Bool} {request : HttpRequest} {transfer : Transfer}
    (execution : Execution (Step json errorText) (.created config)
      (earlier ++ entry :: later) state)
    (prompts : entry.command = .prompt input text progress watch)
    (sent : ⟨AgentOp.send request, transfer⟩ ∈ entry.history) :
    ∃ kind model, (Settings.ofLog config earlier).provider = some kind ∧
      AskedTurn json kind (Settings.ofLog config earlier).apiKey model
        (Settings.ofLog config earlier).instruction
        (Settings.ofLog config earlier).registry request ∧
      NamesModel kind model request ∧ Chosen earlier model := by
  have asks := (follows_of_execution execution).1 request transfer sent
  rw [prompts] at asks
  cases asks with
  | lists configures => cases configures
  | prompts provided permitted asked =>
      exact ⟨_, _, provided, asked, namesModel_of_askedTurn asked,
        chosen_of_activeModel (activeModel_of_permitted permitted)⟩

end Requests

/-! ## A session that is configured and prompted -/

/-- A call against a script, and the members it leaves. -/
def called (before : SessionState) (command : Command) :
    Entry × SessionState :=
  let run := Program.scripted servesCatalog
    ((SessionCommands.perform knownCatalog (fun _ => "error")
      command).run.run before) []
  (⟨command, run.1, run.2.1⟩, run.2.2)

theorem step_called (before : SessionState) (command : Command) :
    Step knownCatalog (fun _ => "error") before (called before command).1
      (called before command).2 :=
  Action.finishes_scripted servesCatalog _ _

/-- OpenRouter is configured and lists one model for text. -/
def configuredCall : Entry × SessionState :=
  called {}
    (.configureProvider (some { kind := .chat (.openRouter {}) }) "key" false)

/-- A prompt for the model it prefers. -/
def promptedCall : Entry × SessionState :=
  called configuredCall.2 (.prompt "Hello" false false false)

theorem execution_promptedCall :
    Execution (Step knownCatalog fun _ => "error") (.created {})
      [configuredCall.1, promptedCall.1] promptedCall.2 :=
  (Execution.start.extend (step_called {} _)).extend
    (step_called configuredCall.2 _)

/-- The paths of the requests of a call. -/
def sentPaths : List AgentEvent → List String
  | [] => []
  | ⟨.send request, _⟩ :: history => request.path :: sentPaths history
  | _ :: history => sentPaths history

theorem session_follows_settings_promptedCall :
    sentPaths configuredCall.1.history = ["/api/v1/models"] ∧
      settingsOf promptedCall.2 =
        Settings.ofLog {} [configuredCall.1, promptedCall.1] ∧
      ∀ earlier entry later,
        [configuredCall.1, promptedCall.1] = earlier ++ entry :: later →
          (∀ request transfer,
            ⟨AgentOp.send request, transfer⟩ ∈ entry.history →
              Asks knownCatalog (Settings.ofLog {} earlier) entry.command
                request) ∧
          Tells (Settings.ofLog {} earlier) entry :=
  ⟨by decide +kernel, session_follows_settings execution_promptedCall⟩

/-- The models that the requests of a call name in their payloads. -/
def namedModels (history : List AgentEvent) : List (Option String) :=
  history.filterMap fun event =>
    match event.op with
    | .send request =>
        some ((request.payload.find? "model").bind fun named =>
          match named with
          | .string model => some model
          | _ => none)
    | _ => none

/-- The prompt asks once, for the model of the listing. -/
theorem requested_model_chosen_promptedCall :
    namedModels promptedCall.1.history = [some "text"] ∧
      ∀ request transfer,
        ⟨AgentOp.send request, transfer⟩ ∈ promptedCall.1.history →
          ∃ kind model,
            (Settings.ofLog {} [configuredCall.1]).provider = some kind ∧
              AskedTurn knownCatalog kind
                (Settings.ofLog {} [configuredCall.1]).apiKey model
                (Settings.ofLog {} [configuredCall.1]).instruction
                (Settings.ofLog {} [configuredCall.1]).registry request ∧
              NamesModel kind model request ∧
              Chosen [configuredCall.1] model :=
  ⟨by decide +kernel, fun _ _ sent =>
    requested_model_chosen execution_promptedCall rfl sent⟩

end ArnCore.Provider.SessionSettings
