import ArnCore.Provider.PairedRequests
import ArnCore.Provider.PromptDialogue
import ArnCore.Provider.SessionSettings
import ArnCore.Provider.TrimLimits

/-!
# The transcript of a session

Between its prompts a session keeps the conversation of its provider; a prompt
trims it and goes on with it as a dialogue.  So within a prompt the
conversation only grows: each request carries all that the requests before it
carried, and what is kept afterwards begins with it.

Over whole sequences of calls, what is kept is a window on all that was said
since the provider was set: its latest part, with at most one entry before it.
-/

namespace ArnCore.Provider.SessionTranscript

open ArnCore.Agent
open ArnCore.Agent.Environment
open ArnCore.Interaction
open ArnCore.Interaction.Action
open ArnCore.Net
open ArnCore.Provider.BuiltInTurn
open ArnCore.Provider.FailedStart
open ArnCore.Provider.HistoryTrim
open ArnCore.Provider.LastRequest
open ArnCore.Provider.PairedRequests
open ArnCore.Provider.PromptDialogue
open ArnCore.Provider.ProviderSession
open ArnCore.Provider.SentRequests
open ArnCore.Provider.SessionCommands
open ArnCore.Provider.SessionSettings
open ArnCore.Provider.SingleAttempt
open ArnCore.Provider.StreamedCalls
open ArnCore.Provider.SystemInstruction
open ArnCore.Tool

/-! ## Prompts -/

/-- The conversation of the first request: the trimmed history and the prompt. -/
def opened (prompting : Prompting) (input : String)
    (before : Conversation) : Conversation :=
  prompting.setup.prompted prompting.instruction input
    (prompting.setup.trimmed before)

theorem trimmed_prefix_opened
    (prompting : Prompting) (input : String) (before : Conversation) :
    (prompting.setup.trimmed before).entries <+:
      (opened prompting input before).entries :=
  List.prefix_append _ _

/-- A prompt is left before it records anything, or it is a dialogue. -/
inductive Prompted (prompting : Prompting) (input : String)
    (before : Conversation) :
    List AgentEvent → Except Exception ApiResult → Conversation → Prop where
  | unbegun {history : List AgentEvent} {outcome : Except Exception ApiResult}
      {after : Conversation} (unsent : Unsent history) (failed : NotOk outcome)
      (kept : after = before ∨ after = prompting.setup.trimmed before) :
      Prompted prompting input before history outcome after
  | begun {opening history closing : List AgentEvent}
      {outcome : Except Exception ApiResult} {after : Conversation}
      {exchanges : List Exchange} (opens : Unsent opening)
      (closes : Unsent closing)
      (bounded : exchanges.length ≤ prompting.setup.maxToolRounds.toNat)
      (dialogue : Dialogue prompting (opened prompting input before) exchanges
        history outcome after) :
      Prompted prompting input before (opening ++ (history ++ closing)) outcome
        after

section Prompts

variable {prompting : Prompting} {input : String}
  {before after : Conversation} {first later history : List AgentEvent}
  {outcome : Except Exception ApiResult}

theorem unsent_nil : Unsent [] :=
  List.forall_mem_nil _

theorem Prompted.surround
    (prompted : Prompted prompting input before history outcome after)
    (opens : Unsent first) (closes : Unsent later) :
    Prompted prompting input before (first ++ (history ++ later)) outcome
      after := by
  cases prompted with
  | unbegun unsent failed kept =>
      exact .unbegun (unsent_append opens (unsent_append unsent closes)) failed
        kept
  | @begun opening inner closing _ _ exchanges opened closed bounded dialogue =>
      have moved :
          first ++ (opening ++ (inner ++ closing) ++ later) =
            (first ++ opening) ++ (inner ++ (closing ++ later)) := by
        simp only [List.append_assoc]
      rw [moved]
      exact .begun (unsent_append opens opened) (unsent_append closed closes)
        bounded dialogue

/-- The turns of a prompt, from the trimmed history on. -/
theorem prompted_of_runTurns
    (run : Finishes
      (AgentSession.runTurns prompting.session
        (prompting.setup.kind.provider prompting.setup.endpoint)
        prompting.setup.registry prompting.callbacks prompting.cancel input)
      (prompting.setup.trimmed before) history outcome after) :
    Prompted prompting input before history outcome after := by
  unfold AgentSession.runTurns at run
  rw [BuiltIn.startTurn_eq] at run
  have starts : ∀ {asked : List AgentEvent}
      {turned : Except Exception ModelTurn} {between : Conversation},
      Finishes
        (prompting.setup.kind.recordPrompt prompting.setup.endpoint
          prompting.setup.apiKey prompting.setup.activeModel
          prompting.instruction input prompting.setup.registry
          prompting.callbacks prompting.cancel)
        (prompting.setup.trimmed before) asked turned between →
        Asking prompting (opened prompting input before) asked ∧
          Turned prompting (opened prompting input before) asked turned
            between :=
    fun recorded => turned_of_request (finishes_modify_bind.mp recorded)
  rcases finishes_bind.mp run with
    ⟨failure, rfl, thrown⟩ | ⟨asked, rest, turn, between, rfl, started, checked⟩
  · obtain ⟨check, asked, rfl, unsent, ⟨impossible, -, -⟩ | body⟩ :=
      finishes_afterCheck thrown
    · cases impossible
    · obtain ⟨asks, turned⟩ := starts body
      obtain ⟨recorded, rfl, leftover⟩ := turned.leftover
      rw [← List.append_nil asked]
      exact .begun unsent unsent_nil (Nat.zero_le _)
        (.left asks notOk_error leftover)
  · obtain ⟨check, asked, rfl, unsent, ⟨same, rfl, rfl⟩ | body⟩ :=
      finishes_afterCheck started
    · cases same
      rw [List.append_nil]
      obtain ⟨rfl, clear, failed⟩ := finishes_stopped checked
      exact .unbegun (unsent_append unsent clear) failed (Or.inr rfl)
    · obtain ⟨asks, turned⟩ := starts body
      have converses : Converses prompting
          prompting.setup.maxToolRounds.toNat
          (opened prompting input before) (asked ++ rest) outcome after := by
        refine converses_of_checked asks turned ?_ checked
        intro entry asked history outcome after replied run
        have goesOn := converses_of_turnLoop replied run
        rwa [sub_zero] at goesOn
      obtain ⟨exchanges, bounded, dialogue⟩ := converses
      rw [List.append_assoc, ← List.append_nil (asked ++ rest)]
      exact .begun unsent unsent_nil bounded dialogue

/-- Every prompt over a built-in provider. -/
theorem prompted_of_prompt
    (roles : HaveRoles before.entries)
    (run : Finishes
      (prompting.session.prompt prompting.callbacks prompting.cancel input)
      before history outcome after) :
    Prompted prompting input before history outcome after := by
  obtain ⟨inner, rfl, locked⟩ := finishes_guarded.mp run
  have taken : Unsent [⟨.lock .session, ()⟩] := by
    simp [Unsent, isSend_iff]
  have released : Unsent [⟨.unlock .session, ()⟩] := by
    simp [Unsent, isSend_iff]
  suffices prompted : Prompted prompting input before inner outcome after from
    prompted.surround taken released
  have provided : prompting.session.provider =
      some (prompting.setup.kind.provider prompting.setup.endpoint) := rfl
  rw [AgentSession.promptLocked, provided] at locked
  dsimp only at locked
  split_ifs at locked
  · obtain ⟨rfl, rfl, rfl⟩ := finishes_pure.mp locked
    exact .unbegun unsent_nil (notOk_of rfl) (Or.inl rfl)
  · obtain ⟨rfl, rfl, rfl⟩ := finishes_pure.mp locked
    exact .unbegun unsent_nil (notOk_of rfl) (Or.inl rfl)
  obtain ⟨check, rest, stop, between, rfl, checked, continued⟩ :=
    finishes_isSet_bind.mp locked
  obtain ⟨rfl, unsent, -⟩ := finishes_flag checked
  cases stop with
  | true =>
      obtain ⟨rfl, rfl, rfl⟩ := finishes_pure.mp continued
      rw [List.append_nil]
      exact .unbegun unsent (notOk_of rfl) (Or.inl rfl)
  | false =>
      rw [if_neg Bool.false_ne_true] at continued
      rcases finishes_bind.mp continued with
        ⟨failure, rfl, thrown⟩ |
        ⟨trims, rest, value, between, rfl, trimmed, published⟩
      · obtain ⟨rfl, ⟨-, -, rfl⟩ | ⟨impossible, -⟩⟩ :=
          trimEnds_of_trimHistory roles thrown
        · rw [List.append_nil]
          exact .unbegun unsent notOk_error (Or.inl rfl)
        · cases impossible
      · obtain ⟨rfl, ⟨impossible, -⟩ | ⟨-, rfl⟩⟩ :=
          trimEnds_of_trimHistory roles trimmed
        · cases impossible
        obtain ⟨⟨⟩, rest, rfl, guarded⟩ := finishes_always_bind.mp published
        obtain ⟨turns, last, between, released, rfl, runs, cleared⟩ :=
          finishes_scopeGuard.mp guarded
        obtain ⟨⟨⟩, rfl, -, rfl⟩ := finishes_always.mp cleared
        have moved : check ++ ([] ++ ⟨.publish .activeProvider, ()⟩ ::
            (turns ++ [⟨.clear .activeProvider, ()⟩])) =
          (check ++ [⟨.publish .activeProvider, ()⟩]) ++
            (turns ++ [⟨.clear .activeProvider, ()⟩]) := by simp
        rw [moved]
        exact (prompted_of_runTurns runs).surround
          (unsent_append unsent (by simp [Unsent, isSend_iff]))
          (by simp [Unsent, isSend_iff])

end Prompts

/-! ## Growth -/

/-- The conversation that a payload carries. -/
def carried (kind : BuiltIn) (payload : Json) : List Json :=
  match payload.find? (historyKey kind) with
  | some (.array entries) => entries
  | _ => []

/-- The conversations of the requests, in the order in which they are sent. -/
def requested (kind : BuiltIn) (history : List AgentEvent) :
    List (List Json) :=
  history.filterMap fun event =>
    match event.op with
    | .send request => some (carried kind request.payload)
    | _ => none

/--
The requests carry longer and longer conversations, from the first one on, and
what is kept at the end begins with all of them.
-/
structure Grows (kind : BuiltIn) (begins : List Json)
    (history : List AgentEvent) (ends : List Json) : Prop where
  chain : (requested kind history).Pairwise (· <+: ·)
  first : ∀ entries ∈ (requested kind history).head?, entries = begins
  within : ∀ entries ∈ requested kind history,
    begins <+: entries ∧ entries <+: ends

section Growth

variable {prompting : Prompting} {conversation after : Conversation}
  {history first later : List AgentEvent} {kind : BuiltIn}

theorem carried_payload :
    carried prompting.setup.kind (prompting.payload conversation) =
      conversation.entries := by
  have found : (prompting.payload conversation).find?
      (historyKey prompting.setup.kind) =
        some (.array conversation.entries) := by
    cases kind : prompting.setup.kind with
    | chat chat => exact find_messages kind
    | gemini =>
        rw [historyKey, Prompting.payload, SessionSetup.payload, kind,
          BuiltIn.payload, buildGeminiPayload, Json.find?_ofMembers]
        split_ifs
        all_goals rfl
  rw [carried, found]

theorem requested_append :
    requested kind (first ++ later) =
      requested kind first ++ requested kind later :=
  List.filterMap_append

theorem requested_of_unsent
    (unsent : Unsent history) : requested kind history = [] := by
  refine List.filterMap_eq_nil_iff.mpr fun event member => ?_
  have other := unsent event member
  rw [isSend_iff] at other
  obtain ⟨op, answer⟩ := event
  cases op with
  | send request => exact absurd rfl other
  | _ => rfl

theorem requested_of_asking
    (asks : Asking prompting conversation history) :
    ∀ entries ∈ requested prompting.setup.kind history,
      entries = conversation.entries := by
  intro entries member
  obtain ⟨⟨op, answer⟩, inside, same⟩ := List.mem_filterMap.mp member
  cases op with
  | send request =>
      cases same
      rw [asks.carries _ inside request rfl, carried_payload]
  | _ => cases same

/-- An answer was heard only when something was asked. -/
theorem requested_of_heard
    {parts : TurnParts}
    (heard : Heard prompting conversation history parts) :
    requested kind history ≠ [] := by
  obtain ⟨before, streamed, behind, response, streaming, rfl, streams, -⟩ :=
    heard
  obtain ⟨-, final, runs⟩ := finishes_withLocals.mp streams
  obtain ⟨events, rest, received, between, rfl, looped, -⟩ :=
    finishes_bind_ok.mp runs
  obtain ⟨⟨op, transfer⟩, member, request, same⟩ :=
    exists_send_of_loop rfl rfl looped
  obtain rfl : op = .send request := same
  refine List.ne_nil_of_mem (List.mem_filterMap.mpr
    ⟨⟨.send request, transfer⟩, by simp [member], rfl⟩)

/-- The requests of one turn are a chain. -/
theorem Grows.of_asking
    {ends : List Json} (asks : Asking prompting conversation history)
    (begins : conversation.entries <+: ends) :
    Grows prompting.setup.kind conversation.entries history ends where
  chain := by
    refine List.Pairwise.imp_of_mem (R := fun _ _ => True) ?_
      (List.pairwise_of_forall fun _ _ => trivial)
    intro one other inside also _
    rw [requested_of_asking asks one inside, requested_of_asking asks other also]
  first entries head :=
    requested_of_asking asks entries (List.mem_of_mem_head? head)
  within entries member := by
    rw [requested_of_asking asks entries member]
    exact ⟨List.prefix_rfl, begins⟩

/-- Requests for a longer conversation may follow those of a turn. -/
theorem Grows.append
    {kept ends : List Json} (asks : Asking prompting conversation first)
    (asked : requested prompting.setup.kind first ≠ [])
    (longer : conversation.entries <+: kept)
    (grows : Grows prompting.setup.kind kept later ends)
    (whole : kept <+: ends) :
    Grows prompting.setup.kind conversation.entries (first ++ later) ends := by
  have turn := Grows.of_asking asks (longer.trans whole)
  constructor
  case chain =>
    rw [requested_append, List.pairwise_append]
    refine ⟨turn.chain, grows.chain, fun one inside other behind => ?_⟩
    rw [requested_of_asking asks one inside]
    exact longer.trans (grows.within other behind).1
  case first =>
    intro entries head
    rw [requested_append, List.head?_append_of_ne_nil _ asked] at head
    exact turn.first entries head
  case within =>
    intro entries member
    rw [requested_append, List.mem_append] at member
    rcases member with inside | behind
    · exact turn.within entries inside
    · obtain ⟨begins, within⟩ := grows.within entries behind
      exact ⟨longer.trans begins, within⟩

/-- In a dialogue the conversation only grows. -/
theorem grows_of_dialogue
    {exchanges : List Exchange} {outcome : Except Exception ApiResult}
    (dialogue : Dialogue prompting conversation exchanges history outcome
      after) :
    Grows prompting.setup.kind conversation.entries history after.entries ∧
      conversation.entries <+: after.entries ∧
      (requestCount history : Int) ≤
        maxRequestAttempts * (exchanges.length + 1) := by
  have one : maxRequestAttempts * ((([] : List Exchange).length : Int) + 1) =
      maxRequestAttempts := rfl
  induction dialogue with
  | @answered conversation history parts entry asks heard records reads =>
      have grown := List.prefix_append conversation.entries [entry]
      exact ⟨.of_asking asks grown, grown, by rw [one]; exact asks.few⟩
  | @left conversation history outcome recorded asks failed leftover =>
      have grown := List.prefix_append conversation.entries recorded
      exact ⟨.of_asking asks grown, grown, by rw [one]; exact asks.few⟩
  | @exchanged conversation after exchange exchanges later outcome holds rest
      induction =>
      obtain ⟨grows, kept, few⟩ := induction
      have longer := List.prefix_append conversation.entries exchange.entries
      have asks := holds.asks.append holds.unsent
      have asked : requested prompting.setup.kind
          (exchange.asked ++ exchange.executed) ≠ [] :=
        requested_of_heard holds.heard.append
      rw [← List.append_assoc]
      refine ⟨.append asks asked longer grows kept, longer.trans kept, ?_⟩
      have some := asks.few
      rw [requestCount_append, List.length_cons]
      push_cast
      rw [mul_add, mul_one] at few ⊢
      rw [mul_add, mul_one]
      omega

/-- In a dialogue every recorded entry names its role. -/
theorem roles_of_dialogue
    {exchanges : List Exchange} {outcome : Except Exception ApiResult}
    (dialogue : Dialogue prompting conversation exchanges history outcome
      after)
    (roles : HaveRoles conversation.entries) : HaveRoles after.entries := by
  induction dialogue with
  | answered asks heard records reads =>
      exact haveRoles_append roles
        (List.forall_mem_singleton.mpr (spoken_of_answerRecord records))
  | left asks failed leftover =>
      refine haveRoles_append roles ?_
      cases leftover with
      | nothing => simp
      | answer heard records each =>
          exact List.forall_mem_cons.mpr
            ⟨spoken_of_answerRecord records, spoken_of_answeredBy each⟩
  | exchanged holds rest induction =>
      exact induction (haveRoles_append roles (List.forall_mem_cons.mpr
        ⟨spoken_of_answerRecord holds.records,
          spoken_of_answers holds.answered⟩))

theorem roles_trimmed
    {setup : SessionSetup} (roles : HaveRoles conversation.entries) :
    HaveRoles (setup.trimmed conversation).entries := by
  intro entry member
  rcases List.mem_append.mp member with front | back
  · exact roles entry (List.mem_of_mem_take front)
  · exact roles entry (List.mem_of_mem_drop back)

/-- What a prompt asks for, and what it leaves. -/
theorem grows_of_prompted
    {input : String} {outcome : Except Exception ApiResult}
    (roles : HaveRoles conversation.entries)
    (prompted : Prompted prompting input conversation history outcome after) :
    Grows prompting.setup.kind (opened prompting input conversation).entries
        history after.entries ∧
      (requestCount history : Int) ≤
        maxRequestAttempts * (prompting.setup.maxToolRounds.toNat + 1) ∧
      HaveRoles after.entries := by
  have trimmed := @roles_trimmed conversation prompting.setup roles
  cases prompted with
  | unbegun unsent failed kept =>
      have none : requested prompting.setup.kind history = [] :=
        requested_of_unsent unsent
      refine ⟨⟨?_, ?_, ?_⟩, ?_, ?_⟩
      · rw [none]
        exact .nil
      · simp [none]
      · simp [none]
      · rw [requestCount_eq_zero_iff.mpr unsent]
        exact mul_nonneg (by decide) (by omega)
      · rcases kept with rfl | rfl
        · exact roles
        · exact trimmed
  | @begun opening inner closing _ _ exchanges opens closes bounded dialogue =>
      obtain ⟨grows, -, few⟩ := grows_of_dialogue dialogue
      have asked : requested prompting.setup.kind
          (opening ++ (inner ++ closing)) =
            requested prompting.setup.kind inner := by
        rw [requested_append, requested_append, requested_of_unsent opens,
          requested_of_unsent closes, List.nil_append, List.append_nil]
      refine ⟨⟨?_, ?_, ?_⟩, ?_, ?_⟩
      · rw [asked]
        exact grows.chain
      · rw [asked]
        exact grows.first
      · rw [asked]
        exact grows.within
      · rw [requestCount_append, requestCount_append,
          requestCount_eq_zero_iff.mpr opens,
          requestCount_eq_zero_iff.mpr closes, Nat.zero_add, Nat.add_zero]
        refine few.trans (mul_le_mul_of_nonneg_left ?_ (by decide))
        exact_mod_cast Nat.succ_le_succ bounded
      · exact roles_of_dialogue dialogue
          (List.forall_mem_append.mpr ⟨trimmed, haveRoles_promptEntries⟩)

end Growth

/-! ## The calls of a session -/

section Calls

variable {json : JsonText} {errorText : HttpError → String}

/-- A prompt of a session with a provider. -/
def promptingOf (json : JsonText) (errorText : HttpError → String)
    (state : SessionState) (kind : BuiltIn) (text progress watch : Bool) :
    Prompting where
  setup := state.setup kind json errorText
  instruction := state.config.systemInstruction
  text := text
  progress := progress
  watch := watch

/-- The history that a provider brings along. -/
def suppliedEntries (provider : Option Supplied) : List Json :=
  (provider.map fun supplied => supplied.conversation.entries).getD []

/-- What a call does to the conversation of the session. -/
def Records (json : JsonText) (errorText : HttpError → String)
    (before : SessionState) (entry : Entry) (after : SessionState) : Prop :=
  match entry.command with
  | .configureProvider provider _ _ | .setProvider provider _ =>
      after.conversation.entries = suppliedEntries provider
  | .configureType type _ _ =>
      after.conversation.entries =
        if (createProvider type).isSome then
          []
        else
          before.conversation.entries
  | .resetSession =>
      after.conversation.entries =
        if before.provider.isSome then [] else before.conversation.entries
  | .prompt input text progress watch =>
      match before.provider with
      | none => Unsent entry.history ∧ after.conversation = before.conversation
      | some kind =>
          ∃ outcome, entry.outcome = outcome.map Reply.result ∧
            Prompted (promptingOf json errorText before kind text progress watch)
              input before.conversation entry.history outcome
              after.conversation
  | _ => after.conversation.entries = before.conversation.entries

/-- The history of a provider that is configured names its roles. -/
def Command.SuppliesRoles : Command → Prop
  | .configureProvider provider _ _ | .setProvider provider _ =>
      HaveRoles (suppliedEntries provider)
  | _ => True

/-- However the action ends, the entries are what they were. -/
abbrev KeepsEntries {Value : Type} (entries : List Json)
    (action : Action agents Conversation Value) : Prop :=
  Maintains (fun _ => True) (fun _ => True)
    (fun conversation => conversation.entries = entries) action

variable {entries : List Json} {cancel : CancelFlag agents}
  {endpoint : Endpoint agents}

theorem keepsEntries_unreadableList
    (verified : String) (read : Except Exception (List String)) :
    KeepsEntries entries (unreadableList verified read) := by
  rcases read with (what | _) | models
  · exact .pure _
  · exact .throw _
  · exact .pure _

theorem keepsEntries_listCatalog
    (provider verified path : String) (headers : List (String × String))
    (gemini : Bool) :
    KeepsEntries entries
      (listCatalog endpoint provider verified path headers gemini cancel) := by
  unfold listCatalog
  cases endpoint.client with
  | none => exact .pure _
  | some transport =>
      refine .bind TrimLimits.maintains_executeWithRetry fun received => ?_
      cases received with
      | error error => exact .pure _
      | ok response =>
          dsimp only
          split_ifs
          · exact keepsEntries_unreadableList _ _
          · exact .pure _

theorem keepsEntries_concludeListing
    (received : HttpResult) :
    KeepsEntries entries
      (OpenRouterProvider.concludeListing endpoint received) := by
  unfold OpenRouterProvider.concludeListing
  cases received with
  | error error => exact .pure _
  | ok response =>
      dsimp only
      split_ifs
      · unfold OpenRouterProvider.readCatalog
        split
        · exact .bind (.modify fun _ same => same) fun _ => .pure _
        · exact .pure _
        · exact .throw _
      · exact .pure _

/-- A listing may change the known capabilities, but never the history. -/
theorem keepsEntries_listModels
    (kind : BuiltIn) (apiKey : String) :
    KeepsEntries entries (kind.listModels endpoint apiKey cancel) := by
  rcases kind with ⟨_ | config⟩ | _
  · exact keepsEntries_listCatalog _ _ _ _ _
  · refine .bind TrimLimits.maintains_isSet fun stop => ?_
    cases stop with
    | true => exact .pure _
    | false =>
        cases endpoint.client with
        | none => exact .pure _
        | some transport =>
            refine .bind TrimLimits.maintains_executeWithRetry fun received =>
              .bind TrimLimits.maintains_isSet fun stop => ?_
            cases stop with
            | true => exact .pure _
            | false => exact keepsEntries_concludeListing received
  · exact keepsEntries_listCatalog _ _ _ _ _

theorem entries_of_keeps
    {Value : Type} {action : Action agents Conversation Value}
    {locals after : Conversation} {history : List AgentEvent}
    {outcome : Except Exception Value}
    (keeps : KeepsEntries locals.entries action)
    (run : Finishes action locals history outcome after) :
    after.entries = locals.entries :=
  (keeps locals rfl run fun _ _ => trivial).2

variable {before after : SessionState} {history : List AgentEvent}

/-- A configured provider brings its history, and its listing keeps it. -/
theorem entries_of_configureProvider
    {provider : Option Supplied} {apiKey : String} {watch : Bool}
    {outcome : Except Exception Reply}
    (run : Finishes (configureProvider json errorText provider apiKey watch)
      before history outcome after) :
    after.conversation.entries = suppliedEntries provider := by
  obtain ⟨inner, rfl, configures⟩ := finishes_guarded.mp run
  have configures := finishes_modify_bind.mp configures
  cases provider with
  | none =>
      obtain ⟨rfl, rfl, rfl⟩ := finishes_pure.mp configures
      rfl
  | some supplied =>
      rcases finishes_bind.mp configures with
        ⟨failure, rfl, thrown⟩ |
        ⟨listed, rest, result, between, rfl, returned, settled⟩
      · obtain ⟨conversation, ran, rfl⟩ := finishes_within.mp thrown
        exact entries_of_keeps (keepsEntries_listModels _ _) ran
      · obtain ⟨conversation, ran, rfl⟩ := finishes_within.mp returned
        have same : conversation.entries = supplied.conversation.entries :=
          entries_of_keeps (keepsEntries_listModels _ _) ran
        cases ok : result.ok with
        | true =>
            rw [ok, if_pos rfl] at settled
            obtain ⟨-, left⟩ := settled
            cases left
            exact same
        | false =>
            rw [ok, if_neg Bool.false_ne_true] at settled
            obtain ⟨-, -, rfl⟩ := finishes_pure.mp settled
            exact same

/-- A getter of the provider leaves the history alone. -/
theorem entries_of_modelCapabilities
    {conversation inner : Conversation}
    {outcome : Except Exception ModelCapabilities}
    (run : Finishes (before.session json errorText).modelCapabilities
      conversation history outcome inner) :
    inner.entries = conversation.entries := by
  obtain ⟨within, -, body⟩ := finishes_guarded.mp run
  refine entries_of_keeps ?_ body
  unfold SessionState.session
  rcases before.provider with _ | ⟨_ | config⟩ | _
  · exact .pure _
  · exact .pure _
  · exact .bind .get fun _ => .pure _
  · exact .pure _

theorem entries_of_cancelActiveRequest
    {conversation inner : Conversation} {outcome : Except Exception Unit}
    (run : Finishes (before.session json errorText).cancelActiveRequest
      conversation history outcome inner) :
    inner.entries = conversation.entries := by
  obtain ⟨active, rest, rfl, chosen⟩ := finishes_always_bind.mp run
  have stops : ∀ {stop : Action agents Conversation Unit} {active : Bool},
      KeepsEntries conversation.entries stop →
      Finishes (if active then stop else (mutex .session).guarded stop)
        conversation rest outcome inner →
        inner.entries = conversation.entries := by
    intro stop active keeps run
    cases active with
    | true => exact entries_of_keeps keeps run
    | false =>
        obtain ⟨within, -, body⟩ := finishes_guarded.mp run
        exact entries_of_keeps keeps body
  refine stops ?_ chosen
  unfold SessionState.session
  rcases before.provider with _ | ⟨_ | config⟩ | _
  · exact .pure _
  · exact TrimLimits.maintains_host _
  · exact TrimLimits.maintains_host _
  · exact TrimLimits.maintains_host _

theorem entries_of_resetSession
    {conversation inner : Conversation} {outcome : Except Exception Unit}
    (run : Finishes (before.session json errorText).resetSession conversation
      history outcome inner) :
    inner.entries =
      if before.provider.isSome then [] else conversation.entries := by
  obtain ⟨within, -, body⟩ := finishes_guarded.mp run
  revert body
  unfold SessionState.session
  rcases before.provider with _ | ⟨_ | config⟩ | _
  · intro body
    obtain ⟨-, -, rfl⟩ := finishes_pure.mp body
    rfl
  · intro body
    obtain ⟨-, -, rfl⟩ := finishes_modify.mp body
    rfl
  · intro body
    obtain ⟨-, -, rfl⟩ := finishes_modify.mp body
    rfl
  · intro body
    obtain ⟨-, -, rfl⟩ := finishes_modify.mp body
    rfl

theorem records_of_prompt
    {input : String} {text progress watch : Bool} {inner : Conversation}
    {outcome : Except Exception ApiResult}
    (roles : HaveRoles before.conversation.entries)
    (run : Finishes
      ((before.session json errorText).prompt (hostCallbacks text progress)
        (callerFlag watch) input) before.conversation history outcome inner) :
    Records json errorText before
      ⟨.prompt input text progress watch, history, outcome.map Reply.result⟩
      { before with conversation := inner } := by
  cases provided : before.provider with
  | none =>
      simp only [Records, provided]
      obtain ⟨within, rfl, locked⟩ := finishes_guarded.mp run
      simp only [AgentSession.promptLocked, SessionState.session, provided,
        Option.map_none] at locked
      obtain ⟨rfl, -, rfl⟩ := finishes_pure.mp locked
      exact ⟨unsent_locked, rfl⟩
  | some kind =>
      simp only [Records, provided]
      refine ⟨outcome, rfl, prompted_of_prompt roles ?_⟩
      have same : before.session json errorText =
          (before.setup kind json errorText).session
            before.config.systemInstruction := by
        unfold SessionState.session
        rw [provided]
        rfl
      rw [same] at run
      exact run

/-- One call on a session whose history names its roles. -/
theorem records_of_step
    {entry : Entry} (roles : HaveRoles before.conversation.entries)
    (step : Step json errorText before entry after) :
    Records json errorText before entry after := by
  obtain ⟨command, history, outcome⟩ := entry
  cases command with
  | setSystemInstruction instruction =>
      obtain ⟨rfl, -⟩ := finishes_assign step
      rfl
  | setTools tools =>
      obtain ⟨rfl, -⟩ := finishes_assign step
      rfl
  | setConfirmationHandler attached =>
      obtain ⟨rfl, -⟩ := finishes_assign step
      rfl
  | configureProvider provider apiKey watch =>
      exact entries_of_configureProvider step
  | configureType type apiKey watch =>
      simp only [Records]
      cases created : createProvider type with
      | none =>
          simp only [Step, SessionCommands.perform, created] at step
          obtain ⟨-, -, rfl⟩ := finishes_pure.mp step
          rfl
      | some kind =>
          simp only [Step, SessionCommands.perform, created] at step
          exact entries_of_configureProvider step
  | setProvider provider apiKey =>
      obtain ⟨rfl, -⟩ := finishes_assign step
      cases provider with
      | none => rfl
      | some supplied => rfl
  | availableModels =>
      obtain ⟨rfl, -, -⟩ := finishes_inspect step
      rfl
  | preferredModel =>
      obtain ⟨rfl, -, -⟩ := finishes_inspect step
      rfl
  | selectModel model =>
      obtain ⟨rfl, -⟩ := finishes_assign step
      rfl
  | activeModel =>
      obtain ⟨rfl, -, -⟩ := finishes_inspect step
      rfl
  | modelCapabilities =>
      have called : Finishes
          (onSession json errorText .capabilities
            AgentSession.modelCapabilities) before history outcome after :=
        step
      obtain ⟨inner, value, run, rfl, -⟩ := finishes_onSession called
      exact entries_of_modelCapabilities run
  | prompt input text progress watch =>
      have called : Finishes
          (onSession json errorText .result fun session =>
            session.prompt (hostCallbacks text progress) (callerFlag watch)
              input) before history outcome after := step
      obtain ⟨inner, value, run, rfl, rfl⟩ := finishes_onSession called
      exact records_of_prompt roles run
  | cancelActiveRequest =>
      have called : Finishes
          (onSession json errorText (fun _ => .done)
            AgentSession.cancelActiveRequest) before history outcome after :=
        step
      obtain ⟨inner, value, run, rfl, -⟩ := finishes_onSession called
      exact entries_of_cancelActiveRequest run
  | resetSession =>
      have called : Finishes
          (onSession json errorText (fun _ => .done)
            AgentSession.resetSession) before history outcome after := step
      obtain ⟨inner, value, run, rfl, -⟩ := finishes_onSession called
      exact entries_of_resetSession run
  | sessionEntries =>
      obtain ⟨rfl, -, -⟩ := finishes_inspect step
      rfl
  | activeProvider =>
      obtain ⟨rfl, -, -⟩ := finishes_inspect step
      rfl

theorem roles_of_records
    {entry : Entry} (roles : HaveRoles before.conversation.entries)
    (supplied : Command.SuppliesRoles entry.command)
    (records : Records json errorText before entry after) :
    HaveRoles after.conversation.entries := by
  have none : HaveRoles [] := nofun
  obtain ⟨command, history, outcome⟩ := entry
  cases command with
  | configureProvider provider apiKey watch => exact records ▸ supplied
  | setProvider provider apiKey => exact records ▸ supplied
  | configureType type apiKey watch =>
      simp only [Records] at records
      rw [records]
      split_ifs
      · exact none
      · exact roles
  | resetSession =>
      simp only [Records] at records
      rw [records]
      split_ifs
      · exact none
      · exact roles
  | prompt input text progress watch =>
      cases provided : before.provider with
      | none =>
          simp only [Records, provided] at records
          rw [records.2]
          exact roles
      | some kind =>
          simp only [Records, provided] at records
          obtain ⟨outcome, -, prompted⟩ := records
          exact (grows_of_prompted roles prompted).2.2
  | _ => exact Eq.symm records ▸ roles

end Calls

/-! ## What was said -/

/-- Whether a call puts another history in place of the one before. -/
def Command.replaces (before : SessionState) : Command → Bool
  | .configureProvider _ _ _ | .setProvider _ _ => true
  | .configureType type _ _ => (createProvider type).isSome
  | .resetSession => before.provider.isSome
  | _ => false

/-- The entries that a prompt finds once it has trimmed the history. -/
def trimmedEntries (state : SessionState) : List Json :=
  match state.provider with
  | none => state.conversation.entries
  | some kind =>
      trimmed kind state.config.maxHistoryEntries state.conversation.entries

/--
What has been said since the history was replaced, when a call is over.  A call
that sends nothing may say nothing; a prompt that records anything goes on from
the trimmed history.
-/
def Says (before : SessionState) (entry : Entry) (after : SessionState)
    (spoken told : List Json) : Prop :=
  if Command.replaces before entry.command = true then
    told = after.conversation.entries
  else
    (Unsent entry.history ∧ told = spoken ∧
      (after.conversation.entries = before.conversation.entries ∨
        after.conversation.entries = trimmedEntries before)) ∨
      ∃ recorded, told = spoken ++ recorded ∧
        after.conversation.entries = trimmedEntries before ++ recorded

/-- One call, with what has been said before and after it. -/
structure Transcribed (json : JsonText) (errorText : HttpError → String)
    (before : SessionState × List Json) (entry : Entry)
    (after : SessionState × List Json) : Prop where
  step : Step json errorText before.1 entry after.1
  records : Records json errorText before.1 entry after.1
  telling : Says before.1 entry after.1 before.2 after.2

/-- What is known of what was said: its latest part, and one entry before it. -/
structure Window (entries spoken : List Json) : Prop where
  said : entries.Sublist spoken
  latest : entries.tail <:+ spoken

namespace Window

variable {entries spoken added : List Json}

theorem refl : Window entries entries :=
  ⟨.refl _, List.tail_suffix _⟩

theorem append
    (window : Window entries spoken) :
    Window (entries ++ added) (spoken ++ added) := by
  refine ⟨window.said.append (.refl _), ?_⟩
  cases entries with
  | nil => exact (List.tail_suffix added).trans (List.suffix_append _ _)
  | cons first rest =>
      obtain ⟨front, same⟩ := window.latest
      exact ⟨front, by rw [← same]; simp⟩

/-- Trimming keeps the first entry or drops it, and drops those behind it. -/
theorem trimmed
    {kind : BuiltIn} {maxEntries : Nat} (window : Window entries spoken) :
    Window (HistoryTrim.trimmed kind maxEntries entries) spoken := by
  have behind : ∀ count, (entries.drop count).tail <:+ spoken := by
    intro count
    rw [List.tail_drop, ← List.drop_tail]
    exact (List.drop_suffix _ _).trans window.latest
  have one := keptFrom_le_one kind entries
  unfold HistoryTrim.trimmed
  generalize entries.length - maxEntries = dropped
  rcases Nat.le_one_iff_eq_zero_or_eq_one.mp one with none | first
  · rw [none, List.take_zero, List.nil_append]
    exact ⟨(List.drop_sublist _ _).trans window.said, behind _⟩
  · rw [first]
    refine ⟨List.Sublist.trans ?_ window.said, ?_⟩
    · have whole := List.take_append_drop 1 entries
      conv_rhs => rw [← whole]
      refine (List.Sublist.refl _).append ?_
      rw [← List.drop_drop]
      exact List.drop_sublist _ _
    · cases entries with
      | nil => simp
      | cons first rest =>
          simpa [Nat.add_comm] using behind dropped

end Window

section Saying

variable {json : JsonText} {errorText : HttpError → String}
  {before after : SessionState} {entry : Entry} {spoken told : List Json}

/-- Only configuring and prompting send requests. -/
theorem unsent_of_step
    (step : Step json errorText before entry after)
    (other : Command.listing? entry.command = none)
    (silent : ∀ input text progress watch,
      entry.command ≠ .prompt input text progress watch) :
    Unsent entry.history := by
  rintro ⟨op, transfer⟩ member ⟨request, same⟩
  obtain rfl : op = .send request := same
  have asks := (settings_of_step step).2.1 request transfer member
  generalize entry.command = command at asks other silent
  cases asks with
  | lists configures =>
      rw [other] at configures
      cases configures
  | prompts => exact silent _ _ _ _ rfl

/-- A call that sends nothing and keeps the history says nothing. -/
theorem says_of_unsent
    (keeps : Command.replaces before entry.command = false)
    (unsent : Unsent entry.history)
    (kept : after.conversation.entries = before.conversation.entries ∨
      after.conversation.entries = trimmedEntries before) :
    Says before entry after spoken spoken := by
  rw [Says, if_neg (by rw [keeps]; exact Bool.false_ne_true)]
  exact Or.inl ⟨unsent, rfl, kept⟩

/-- A prompt says what its dialogue adds to the trimmed history. -/
theorem exists_says_of_prompted
    {input : String} {text progress watch : Bool} {kind : BuiltIn}
    {outcome : Except Exception ApiResult}
    (prompts : entry.command = .prompt input text progress watch)
    (provided : before.provider = some kind)
    (prompted : Prompted (promptingOf json errorText before kind text progress
      watch) input before.conversation entry.history outcome
      after.conversation) :
    ∃ told, Says before entry after spoken told := by
  have keeps : Command.replaces before entry.command = false := by
    rw [prompts]
    rfl
  have found : trimmedEntries before = trimmed kind
      before.config.maxHistoryEntries before.conversation.entries := by
    rw [trimmedEntries, provided]
  generalize sent : entry.history = history at prompted
  generalize left : after.conversation = final at prompted
  cases prompted with
  | unbegun unsent failed kept =>
      refine ⟨spoken, says_of_unsent keeps (sent ▸ unsent) ?_⟩
      rw [left, found]
      rcases kept with rfl | rfl
      · exact Or.inl rfl
      · exact Or.inr rfl
  | begun opens closes bounded dialogue =>
      obtain ⟨more, same⟩ := (grows_of_dialogue dialogue).2.1
      obtain ⟨first, begins⟩ := trimmed_prefix_opened
        (promptingOf json errorText before kind text progress watch) input
        before.conversation
      rw [← begins, List.append_assoc] at same
      refine ⟨spoken ++ (first ++ more), ?_⟩
      rw [Says, if_neg (by rw [keeps]; exact Bool.false_ne_true)]
      refine Or.inr ⟨_, rfl, ?_⟩
      rw [left, found]
      exact same.symm

/-- Every call says something, if it is no more than before. -/
theorem exists_says
    (step : Step json errorText before entry after)
    (records : Records json errorText before entry after) :
    ∃ told, Says before entry after spoken told := by
  cases replaces : Command.replaces before entry.command with
  | true => exact ⟨_, by rw [Says, if_pos replaces]⟩
  | false =>
      obtain ⟨command, history, outcome⟩ := entry
      have idle : Command.listing? command = none →
          (∀ input text progress watch,
            command ≠ .prompt input text progress watch) →
          after.conversation.entries = before.conversation.entries →
            ∃ told, Says before ⟨command, history, outcome⟩ after spoken told :=
        fun unlisted other same =>
          ⟨spoken, says_of_unsent replaces (unsent_of_step step unlisted other)
            (Or.inl same)⟩
      cases command with
      | configureProvider => cases replaces
      | setProvider => cases replaces
      | configureType type apiKey watch =>
          simp only [Command.replaces, Option.isSome_eq_false_iff,
            Option.isNone_iff_eq_none] at replaces
          refine idle ?_ (by simp) ?_
          · simp only [Command.listing?, replaces, Option.map_none]
          · simpa [Records, replaces] using records
      | resetSession =>
          refine idle rfl (by simp) ?_
          have none : before.provider.isSome = false := replaces
          simpa only [Records, none, Bool.false_eq_true, if_false] using records
      | prompt input text progress watch =>
          cases provided : before.provider with
          | none =>
              simp only [Records, provided] at records
              exact ⟨spoken, says_of_unsent replaces records.1
                (Or.inl (congrArg Conversation.entries records.2))⟩
          | some kind =>
              simp only [Records, provided] at records
              obtain ⟨result, -, prompted⟩ := records
              exact exists_says_of_prompted rfl provided prompted
      | _ => exact idle rfl (by simp) records

theorem Window.trimmedEntries
    (window : Window before.conversation.entries spoken) :
    Window (trimmedEntries before) spoken := by
  unfold SessionTranscript.trimmedEntries
  split
  · exact window
  · exact window.trimmed

/-- What is known stays a window of what was said. -/
theorem Window.of_says
    (window : Window before.conversation.entries spoken)
    (telling : Says before entry after spoken told) :
    Window after.conversation.entries told := by
  unfold Says at telling
  split_ifs at telling
  · rw [telling]
    exact .refl
  · rcases telling with ⟨-, rfl, same | same⟩ | ⟨recorded, rfl, same⟩
    · rw [same]
      exact window
    · rw [same]
      exact window.trimmedEntries
    · rw [same]
      exact window.trimmedEntries.append

/-- Every request of a prompt carries a window of what was said by then. -/
theorem windows_of_prompted
    {input : String} {text progress watch : Bool} {kind : BuiltIn}
    {outcome : Except Exception ApiResult}
    (roles : HaveRoles before.conversation.entries)
    (prompts : entry.command = .prompt input text progress watch)
    (provided : before.provider = some kind)
    (prompted : Prompted (promptingOf json errorText before kind text progress
      watch) input before.conversation entry.history outcome
      after.conversation)
    (window : Window before.conversation.entries spoken)
    (telling : Says before entry after spoken told) :
    ∀ carried ∈ requested kind entry.history,
      ∃ said, spoken <+: said ∧ said <+: told ∧ Window carried said := by
  intro carried member
  have keeps : Command.replaces before entry.command ≠ true := by
    rw [prompts]
    exact Bool.false_ne_true
  rw [Says, if_neg keeps] at telling
  rcases telling with ⟨unsent, -⟩ | ⟨recorded, rfl, same⟩
  · rw [requested_of_unsent unsent] at member
    cases member
  obtain ⟨begins, within⟩ :=
    (grows_of_prompted roles prompted).1.within carried member
  have found : trimmedEntries before = trimmed kind
      before.config.maxHistoryEntries before.conversation.entries := by
    rw [trimmedEntries, provided]
  have longer : trimmedEntries before <+: carried := by
    rw [found]
    exact (trimmed_prefix_opened _ input before.conversation).trans begins
  obtain ⟨added, rfl⟩ := longer
  rw [same, List.prefix_append_right_inj] at within
  exact ⟨spoken ++ added, List.prefix_append _ _,
    (List.prefix_append_right_inj _).mpr within, window.trimmedEntries.append⟩

end Saying

/-! ## The limit of a prompt -/

section Limits

variable {json : JsonText} {errorText : HttpError → String} {rounds : Int}

/-- The limit of the tool rounds is what it was. -/
abbrev KeepsRounds {Value : Type} (rounds : Int)
    (action : Action agents SessionState Value) : Prop :=
  Maintains (fun _ => True) (fun _ => True)
    (fun state => state.config.maxToolRounds = rounds) action

theorem keepsRounds_locked
    {Value : Type} {body : Action agents SessionState Value}
    (keeps : KeepsRounds rounds body) : KeepsRounds rounds (locked body) := by
  refine .bind (TrimLimits.maintains_host _) fun _ state same => ?_
  exact .scopeGuard (keeps state same) fun _ after kept =>
    TrimLimits.maintains_host _ after kept

theorem keepsRounds_within
    {Value : Type} (action : Action agents Conversation Value) :
    KeepsRounds rounds (Action.within SessionState.provided action) :=
  fun _ same _ _ _ run _ => by
    obtain ⟨inner, -, rfl⟩ := finishes_within.mp run
    exact ⟨fun _ _ => trivial, same⟩

theorem keepsRounds_assign
    {update : SessionState → SessionState}
    (keeps : ∀ state,
      (update state).config.maxToolRounds = state.config.maxToolRounds) :
    KeepsRounds rounds (assign update) :=
  .bind (keepsRounds_locked (.modify fun state same => (keeps state).trans same))
    fun _ => .pure _

theorem keepsRounds_configureProvider
    (provider : Option Supplied) (apiKey : String) (watch : Bool) :
    KeepsRounds rounds
      (configureProvider json errorText provider apiKey watch) := by
  refine keepsRounds_locked (.bind (.modify fun state same => same) fun _ => ?_)
  cases provider with
  | none => exact .pure _
  | some supplied =>
      refine .bind (keepsRounds_within _) fun result => ?_
      split_ifs
      · exact .bind (.modify fun state same => same) fun _ => .pure _
      · exact .pure _

theorem keepsRounds_onSession
    {Value : Type} (reply : Value → Reply)
    (call : AgentSession agents Conversation →
      Action agents Conversation Value) :
    KeepsRounds rounds (onSession json errorText reply call) :=
  .bind .get fun _ => .bind (keepsRounds_within _) fun _ => .pure _

/-- No call changes the limit. -/
theorem keepsRounds_perform (command : Command) :
    KeepsRounds rounds (SessionCommands.perform json errorText command) := by
  have inspects : ∀ look, KeepsRounds rounds (inspect look) :=
    fun _ => keepsRounds_locked (.bind .get fun _ => .pure _)
  cases command with
  | setSystemInstruction | setTools | setConfirmationHandler | setProvider
  | selectModel =>
      exact keepsRounds_assign fun _ => rfl
  | configureProvider => exact keepsRounds_configureProvider _ _ _
  | configureType type apiKey watch =>
      cases created : createProvider type with
      | none =>
          simp only [SessionCommands.perform, created]
          exact .pure _
      | some kind =>
          simp only [SessionCommands.perform, created]
          exact keepsRounds_configureProvider _ _ _
  | availableModels | preferredModel | activeModel | sessionEntries
  | activeProvider =>
      exact inspects _
  | modelCapabilities =>
      exact keepsRounds_onSession .capabilities AgentSession.modelCapabilities
  | prompt input text progress watch =>
      exact keepsRounds_onSession .result fun session =>
        session.prompt (hostCallbacks text progress) (callerFlag watch) input
  | cancelActiveRequest =>
      exact keepsRounds_onSession (fun _ => .done)
        AgentSession.cancelActiveRequest
  | resetSession =>
      exact keepsRounds_onSession (fun _ => .done) AgentSession.resetSession

theorem rounds_of_execution
    {config : AgentConfig} {log : List Entry} {state : SessionState}
    (execution : Execution (Step json errorText) (.created config) log state) :
    state.config.maxToolRounds = config.maxToolRounds := by
  induction execution with
  | start => rfl
  | extend past last same =>
      exact (keepsRounds_perform _ _ same last fun _ _ => trivial).2

end Limits

/-! ## Sequences of calls -/

section Sequences

variable {json : JsonText} {errorText : HttpError → String}
  {config : AgentConfig} {log : List Entry} {state : SessionState}

/-- What was said can be followed through every sequence of calls. -/
theorem exists_transcript
    (execution : Execution (Step json errorText) (.created config) log state)
    (supplied : ∀ entry ∈ log, Command.SuppliesRoles entry.command) :
    HaveRoles state.conversation.entries ∧
      ∃ spoken, Execution (Transcribed json errorText) (.created config, []) log
        (state, spoken) := by
  induction execution with
  | start => exact ⟨nofun, [], .start⟩
  | extend past last induction =>
      obtain ⟨earlier, here⟩ := List.forall_mem_append.mp supplied
      obtain ⟨roles, spoken, follows⟩ := induction earlier
      have records := records_of_step roles last
      obtain ⟨told, telling⟩ := exists_says last records
      exact ⟨roles_of_records roles (here _ (List.mem_singleton_self _))
        records, told, follows.extend ⟨last, records, telling⟩⟩

/-- A transcript is one of an execution. -/
theorem execution_of_transcript
    {spoken : List Json}
    (execution : Execution (Transcribed json errorText) (.created config, [])
      log (state, spoken)) :
    Execution (Step json errorText) (.created config) log state := by
  generalize start : ((.created config, []) : SessionState × List Json) = first
    at execution
  generalize ends : (state, spoken) = last at execution
  induction execution generalizing state spoken with
  | start =>
      subst start
      cases ends
      exact .start
  | @extend log before after entry past step induction =>
      subst ends
      exact (induction rfl).extend step.step

theorem window_of_transcript
    {spoken : List Json}
    (execution : Execution (Transcribed json errorText) (.created config, [])
      log (state, spoken)) :
    Window state.conversation.entries spoken := by
  refine @Execution.invariant _ _ (Transcribed json errorText)
    (.created config, [])
    (fun _ known => Window known.1.conversation.entries known.2) .refl ?_
    _ _ execution
  exact fun _ _ _ _ _ window step => window.of_says step.telling

/-- The provider of a session is that of its settings. -/
theorem provider_of_execution
    (execution : Execution (Step json errorText) (.created config) log state) :
    state.provider = (Settings.ofLog config log).provider :=
  congrArg Settings.provider (settings_of_execution execution)

/--
Within a prompt the conversation only grows: the first request carries the
trimmed history with the prompt behind it, every further one begins with what
the requests before it carried, and what is kept afterwards begins with all of
them.  There are at most as many requests as the limits allow.
-/
theorem requests_only_grow
    {earlier later : List Entry} {entry : Entry} {kind : BuiltIn}
    {input : String} {text progress watch : Bool}
    (execution : Execution (Step json errorText) (.created config)
      (earlier ++ entry :: later) state)
    (supplied : ∀ other ∈ earlier, Command.SuppliesRoles other.command)
    (prompts : entry.command = .prompt input text progress watch)
    (configured : (Settings.ofLog config earlier).provider = some kind) :
    ∃ before after,
      Execution (Step json errorText) (.created config) earlier before ∧
        Execution (Step json errorText) (.created config)
          (earlier ++ [entry]) after ∧
        Grows kind
          (opened (promptingOf json errorText before kind text progress watch)
            input before.conversation).entries
          entry.history after.conversation.entries ∧
        (requestCount entry.history : Int) ≤
          maxRequestAttempts * (config.maxToolRounds.toNat + 1) := by
  obtain ⟨before, after, past, step⟩ := execution.step_of_log
  refine ⟨before, after, past, past.extend step, ?_⟩
  have roles := (exists_transcript past supplied).1
  have provided : before.provider = some kind :=
    (provider_of_execution past).trans configured
  have records := records_of_step roles step
  obtain ⟨command, history, outcome⟩ := entry
  cases prompts
  simp only [Records, provided] at records
  obtain ⟨result, -, prompted⟩ := records
  obtain ⟨grows, few, -⟩ := grows_of_prompted roles prompted
  rw [← rounds_of_execution past]
  exact ⟨grows, few⟩

end Sequences

/-! ## A session that is prompted, reset and prompted again -/

/-- A packet that calls the tool. -/
def callPacket : Json :=
  wholePacket .null (wholeChange 0 "call_1" "f")

/-- A text library that knows the packets and the arguments. -/
def knownDialogue : JsonText :=
  .knowing
    [.ofValue callPacket, .ofValue ModelDiscovery.helloPacket,
      ⟨"\x7b\x7d", .object [], Json.compact_object_nil⟩]

/-- A model that calls the tool once in each prompt, and then greets. -/
def callsOnce : List AgentEvent → (op : AgentOp) → agents.Answer op
  | history, .send _ =>
      let packet :=
        if requestCount history = 0 then callPacket else ModelDiscovery.helloPacket
      Transfer.complete { status := 200 }
        [.chunk (EventStream.sentStream [packet.compact, "[DONE]"])]
  | _, op => quiet op

/-- A call against this model, and the members it leaves. -/
def answeredCall (before : SessionState) (command : Command) :
    Entry × SessionState :=
  let run := Program.scripted callsOnce
    ((SessionCommands.perform knownDialogue (fun _ => "error")
      command).run.run before) []
  (⟨command, run.1, run.2.1⟩, run.2.2)

theorem step_answeredCall (before : SessionState) (command : Command) :
    Step knownDialogue (fun _ => "error") before
      (answeredCall before command).1 (answeredCall before command).2 :=
  Action.finishes_scripted callsOnce _ _

theorem command_answeredCall (before : SessionState) (command : Command) :
    (answeredCall before command).1.command = command := rfl

def providedCall : Entry × SessionState :=
  answeredCall (.created {})
    (.setProvider (some { kind := .chat .deepSeek }) "key")

def equippedCall : Entry × SessionState :=
  answeredCall providedCall.2
    (.setTools
      (some
        [({ name := "f", description := "", parameterSchema := .null },
          false)]))

def selectedCall : Entry × SessionState :=
  answeredCall equippedCall.2 (.selectModel "model")

def askedCall : Entry × SessionState :=
  answeredCall selectedCall.2 (.prompt "Hello" false false false)

def resetCall : Entry × SessionState :=
  answeredCall askedCall.2 .resetSession

def repeatedCall : Entry × SessionState :=
  answeredCall resetCall.2 (.prompt "Hello" false false false)

/-- The calls, in order. -/
def dialogueLog : List Entry :=
  [providedCall.1, equippedCall.1, selectedCall.1] ++
    askedCall.1 :: [resetCall.1, repeatedCall.1]

theorem execution_dialogueLog :
    Execution (Step knownDialogue fun _ => "error") (.created {}) dialogueLog
      repeatedCall.2 :=
  (((((Execution.start.extend (step_answeredCall _ _)).extend
    (step_answeredCall providedCall.2 _)).extend
    (step_answeredCall equippedCall.2 _)).extend
    (step_answeredCall selectedCall.2 _)).extend
    (step_answeredCall askedCall.2 _)).extend (step_answeredCall resetCall.2 _)

theorem suppliesRoles_dialogueLog :
    ∀ entry ∈ dialogueLog, Command.SuppliesRoles entry.command := by
  have none : HaveRoles [] := nofun
  simp only [dialogueLog, List.cons_append, List.nil_append,
    List.forall_mem_cons, providedCall, equippedCall, selectedCall, askedCall,
    resetCall, repeatedCall, command_answeredCall]
  exact ⟨none, trivial, trivial, trivial, trivial, trivial, by simp⟩

/-- How many entries the requests of each call carry. -/
example :
    dialogueLog.map (fun entry =>
      (requested (.chat .deepSeek) entry.history).map List.length) =
      [[], [], [], [1, 3], [], [1, 3]] := by
  decide +kernel

theorem requests_only_grow_askedCall :
    ∃ before after,
      Execution (Step knownDialogue fun _ => "error") (.created {})
          [providedCall.1, equippedCall.1, selectedCall.1] before ∧
        Execution (Step knownDialogue fun _ => "error") (.created {})
          [providedCall.1, equippedCall.1, selectedCall.1, askedCall.1]
          after ∧
        Grows (.chat .deepSeek)
          (opened (promptingOf knownDialogue (fun _ => "error") before
            (.chat .deepSeek) false false false) "Hello"
            before.conversation).entries
          askedCall.1.history after.conversation.entries ∧
        (requestCount askedCall.1.history : Int) ≤
          maxRequestAttempts * (({} : AgentConfig).maxToolRounds.toNat + 1) :=
  requests_only_grow execution_dialogueLog
    (fun entry member => suppliesRoles_dialogueLog entry
      (List.mem_append_left _ member)) rfl rfl

end ArnCore.Provider.SessionTranscript
