import ArnCore.Agent.KeyConfinement
import ArnCore.Provider.AlikeRequests
import ArnCore.Provider.SessionSettings

/-!
# The key of a session

A built-in provider sends the key of its session in one header of its requests.
With other keys a sequence of calls can go on in the same way: the requests are
the same apart from that header, and neither the replies nor the history of the
provider tell the keys apart.
-/

namespace ArnCore.Provider.SessionKeys

open ArnCore.Agent
open ArnCore.Agent.AlikeAgents
open ArnCore.Agent.Environment
open ArnCore.Agent.KeyConfinement
open ArnCore.Interaction
open ArnCore.Interaction.Action
open ArnCore.Net
open ArnCore.Provider.AlikeRequests
open ArnCore.Provider.BuiltInTurn
open ArnCore.Provider.ProviderSession
open ArnCore.Provider.SessionCommands
open ArnCore.Provider.SessionSettings
open ArnCore.Provider.StreamedCalls
open ArnCore.Tool

/-! ## Requests -/

/-- The headers of a provider differ in its credential only. -/
theorem headers_sameButKey (kind : BuiltIn) (apiKey otherKey : String) :
    withoutCredentials (kind.headers apiKey) =
      withoutCredentials (kind.headers otherKey) := by
  rcases kind with ⟨_ | config⟩ | _
  · rfl
  · simp only [BuiltIn.headers, OpenRouterProvider.requestHeaders,
      withoutCredentials, List.map_append, List.map_cons, List.map_nil]
    rfl
  · rfl

theorem withoutCredentials_append (headers more : List (String × String)) :
    withoutCredentials (headers ++ more) =
      withoutCredentials headers ++ withoutCredentials more :=
  List.map_append

theorem keysAlike
    (json : JsonText) (errorText : HttpError → String) (kind : BuiltIn)
    (apiKey otherKey : String) :
    KeysAlike sameButKey (networked json errorText) kind apiKey otherKey := by
  rintro transport ⟨⟩ path payload body more
  refine ⟨.send _ _ ?_, fun answer reply same => .returns (eq_of_heq same)⟩
  rw [withoutCredentials_append, withoutCredentials_append,
    headers_sameButKey kind apiKey otherKey]

/-! ## The session -/

section Sessions

variable {json : JsonText} {errorText : HttpError → String}

/-- What depends on no key is like itself. -/
theorem same_alike
    {Locals Value : Type} (action : Action agents Locals Value) :
    Alike sameButKey Eq action action :=
  .refl sameButKey_exact (fun _ => rfl) action

theorem provider_alike (kind : BuiltIn) (apiKey otherKey : String) :
    ProvidersAlike sameButKey apiKey otherKey
      (kind.provider (networked json errorText))
      (kind.provider (networked json errorText)) where
  modelCapabilities _ := same_alike _
  startTurn _ _ _ _ _ _ _ _ :=
    startTurn_alike sameButKey_exact (keysAlike _ _ _ _ _) _ _ _ _ _
  continueTurn _ _ _ _ _ _ _ _ :=
    continueTurn_alike sameButKey_exact (keysAlike _ _ _ _ _) _ _ _ _ _
  trimHistory _ := same_alike _
  cancelActiveRequest := same_alike _
  resetSession := same_alike _

/-- Members that differ in the key only, which both have or both lack. -/
structure SameMembers (state other : SessionState) : Prop where
  members : other = { state with apiKey := other.apiKey }
  keyed : state.apiKey = "" ↔ other.apiKey = ""

theorem session_sameMembers
    {state other : SessionState} (same : SameMembers state other) :
    SessionsAlike sameButKey (state.session json errorText)
      (other.session json errorText) := by
  obtain ⟨members, keyed⟩ := same
  rw [members]
  exact
    { config := rfl
      tools := rfl
      registry := fun _ _ _ _ _ _ => same_alike _
      confirmHandler := rfl
      confirms := fun _ _ _ => same_alike _
      activeModel := rfl
      apiKey := keyed
      provider := by
        unfold SessionState.session
        cases state.provider with
        | none => exact .absent
        | some kind => exact .present (provider_alike kind _ _)
      mutex := ⟨.refl sameButKey_exact _, .refl sameButKey_exact _⟩
      activeProvider :=
        ⟨.refl sameButKey_exact _, .refl sameButKey_exact _,
          .refl sameButKey_exact _⟩ }

end Sessions

/-! ## The calls -/

/-- The same call, with another key where it has one. -/
inductive SameCommand : Command → Command → Prop where
  | same (command : Command) : SameCommand command command
  | configureProvider (provider : Option Supplied) {apiKey otherKey : String}
      (watch : Bool) (keyed : apiKey = "" ↔ otherKey = "") :
      SameCommand (.configureProvider provider apiKey watch)
        (.configureProvider provider otherKey watch)
  | configureType (type : ProviderType) {apiKey otherKey : String}
      (watch : Bool) (keyed : apiKey = "" ↔ otherKey = "") :
      SameCommand (.configureType type apiKey watch)
        (.configureType type otherKey watch)
  | setProvider (provider : Option Supplied) {apiKey otherKey : String}
      (keyed : apiKey = "" ↔ otherKey = "") :
      SameCommand (.setProvider provider apiKey)
        (.setProvider provider otherKey)

section Calls

variable {json : JsonText} {errorText : HttpError → String}

theorem mutexAlike : (mutex .session).Alike sameButKey (mutex .session) :=
  ⟨.refl sameButKey_exact _, .refl sameButKey_exact _⟩

theorem assign_related
    {update change : SessionState → SessionState}
    (keeps : ∀ state other, SameMembers state other →
      SameMembers (update state) (change other)) :
    Related sameButKey SameMembers Eq (assign update) (assign change) :=
  .bind (.guarded mutexAlike (.modify keeps)) fun _ _ _ => .pure rfl

theorem inspect_related
    {look : SessionState → Reply}
    (blind : ∀ state other, SameMembers state other →
      look state = look other) :
    Related sameButKey SameMembers Eq (inspect look) (inspect look) :=
  .guarded mutexAlike (.bind .get fun state other same =>
    .pure (blind state other same))

/-- An action on the variables of the provider does not see the members. -/
theorem within_related
    {Value : Type} {action partner : Action agents Conversation Value}
    (alike : Alike sameButKey Eq action partner) :
    Related sameButKey SameMembers Eq
      (Action.within SessionState.provided action)
      (Action.within SessionState.provided partner) := by
  refine .within alike fun state other same => ?_
  obtain ⟨members, keyed⟩ := same
  rw [members]
  exact ⟨rfl, fun inner => ⟨rfl, keyed⟩⟩

theorem onSession_related
    {Value : Type} {reply : Value → Reply}
    {call : AgentSession agents Conversation →
      Action agents Conversation Value}
    (alike : ∀ {session other}, SessionsAlike sameButKey session other →
      Alike sameButKey Eq (call session) (call other)) :
    Related sameButKey SameMembers Eq
      (onSession json errorText reply call)
      (onSession json errorText reply call) := by
  refine .bind .get fun state other same => ?_
  refine .bind (within_related (alike (session_sameMembers same))) ?_
  rintro value _ rfl
  exact .pure rfl

theorem supply_sameMembers
    {state other : SessionState} {apiKey otherKey : String}
    (provider : Option Supplied) (same : SameMembers state other)
    (keyed : apiKey = "" ↔ otherKey = "") :
    SameMembers (state.supply provider apiKey)
      (other.supply provider otherKey) := by
  obtain ⟨members, -⟩ := same
  rw [members]
  exact ⟨rfl, keyed⟩

theorem configureProvider_related
    {apiKey otherKey : String} (provider : Option Supplied) (watch : Bool)
    (keyed : apiKey = "" ↔ otherKey = "") :
    Related sameButKey SameMembers Eq
      (configureProvider json errorText provider apiKey watch)
      (configureProvider json errorText provider otherKey watch) := by
  refine .guarded mutexAlike (.bind (.modify ?_) fun _ _ _ => ?_)
  · intro state other same
    obtain ⟨members, keyed⟩ := supply_sameMembers provider same keyed
    rw [members]
    exact ⟨rfl, keyed⟩
  · cases provider with
    | none => exact .pure rfl
    | some supplied =>
        refine .bind (within_related (listModels_alike sameButKey_exact
          (keysAlike _ _ _ apiKey otherKey))) ?_
        rintro result _ rfl
        cases result.ok with
        | false => exact .pure rfl
        | true =>
            refine .bind (.modify ?_) fun _ _ _ => .pure rfl
            rintro state other ⟨members, keyed⟩
            rw [members]
            exact ⟨rfl, keyed⟩

/-- Every call does the like with another key. -/
theorem perform_related
    {command other : Command} (same : SameCommand command other) :
    Related sameButKey SameMembers Eq
      (SessionCommands.perform json errorText command)
      (SessionCommands.perform json errorText other) := by
  have keeps : ∀ {update : SessionState → SessionState},
      (∀ state apiKey, update { state with apiKey := apiKey } =
        { update state with apiKey := apiKey }) →
      (∀ state, (update state).apiKey = state.apiKey) →
        ∀ state other, SameMembers state other →
          SameMembers (update state) (update other) := by
    rintro update moves keeps state other ⟨members, keyed⟩
    refine ⟨?_, ?_⟩
    · rw [keeps]
      exact (congrArg update members).trans (moves state _)
    · rwa [keeps, keeps]
  have blind : ∀ {look : SessionState → Reply},
      (∀ state apiKey, look { state with apiKey := apiKey } = look state) →
        ∀ state other, SameMembers state other → look state = look other := by
    rintro look blind state other ⟨members, -⟩
    exact ((congrArg look members).trans (blind state _)).symm
  cases same with
  | configureProvider provider watch keyed =>
      exact configureProvider_related provider watch keyed
  | configureType type watch keyed =>
      simp only [SessionCommands.perform]
      cases createProvider type with
      | none => exact .pure rfl
      | some kind => exact configureProvider_related _ watch keyed
  | setProvider provider keyed =>
      exact assign_related fun _ _ same =>
        supply_sameMembers provider same keyed
  | same =>
      cases command with
      | setSystemInstruction instruction =>
          exact assign_related (keeps (fun _ _ => rfl) fun _ => rfl)
      | setTools tools =>
          exact assign_related (keeps (fun _ _ => rfl) fun _ => rfl)
      | setConfirmationHandler attached =>
          exact assign_related (keeps (fun _ _ => rfl) fun _ => rfl)
      | configureProvider provider apiKey watch =>
          exact configureProvider_related provider watch Iff.rfl
      | configureType type apiKey watch =>
          simp only [SessionCommands.perform]
          cases createProvider type with
          | none => exact .pure rfl
          | some kind => exact configureProvider_related _ watch Iff.rfl
      | setProvider provider apiKey =>
          exact assign_related fun _ _ same =>
            supply_sameMembers provider same Iff.rfl
      | availableModels => exact inspect_related (blind fun _ _ => rfl)
      | preferredModel => exact inspect_related (blind fun _ _ => rfl)
      | selectModel model =>
          exact assign_related (keeps (fun _ _ => rfl) fun _ => rfl)
      | activeModel => exact inspect_related (blind fun _ _ => rfl)
      | modelCapabilities => exact onSession_related modelCapabilities_alike
      | prompt input text progress watch =>
          simp only [SessionCommands.perform]
          apply onSession_related
          intro session other sessions
          exact prompt_alike sessions
            ⟨fun _ _ _ => .refl sameButKey_exact _,
              fun _ _ _ => .refl sameButKey_exact _⟩
            (fun _ _ => .refl sameButKey_exact _) input
      | cancelActiveRequest => exact onSession_related cancelSession_alike
      | resetSession => exact onSession_related resetSession_alike
      | sessionEntries => exact inspect_related (blind fun _ _ => rfl)
      | activeProvider => exact inspect_related (blind fun _ _ => rfl)

end Calls

/-! ## Sequences of calls -/

/-- Calls that end in the same way; what they do differs in the key only. -/
structure SameEntry (entry other : Entry) : Prop where
  command : SameCommand entry.command other.command
  history : List.Forall₂ sameButKey.Events entry.history other.history
  outcome : entry.outcome = other.outcome

section Sequences

variable {json : JsonText} {errorText : HttpError → String}

theorem exists_step
    {before after state : SessionState} {entry : Entry} {command : Command}
    (members : SameMembers before state)
    (same : SameCommand entry.command command)
    (step : Step json errorText before entry after) :
    ∃ other reached, Step json errorText state other reached ∧
      other.command = command ∧ SameEntry entry other ∧
      SameMembers after reached := by
  obtain ⟨history, ⟨outcome, reached⟩, run, events, outcomes, kept⟩ :=
    (perform_related same before state members).exists_finishes
      sameButKey_answerable step
  refine ⟨⟨command, history, outcome⟩, reached, run, rfl,
    ⟨same, events, ?_⟩, kept⟩
  cases entry with
  | mk command history ended =>
      cases outcomes with
      | returns equal => exact congrArg Except.ok equal
      | throws equal => exact congrArg Except.error equal

/--
A host makes any sequence of calls on a session, whatever the network answers.
With other keys in the same calls, which are missing where the keys were, the
session can go through the same sequence: every call returns or throws the same,
the history of the provider and the other members are the same, and what the
calls do is the same apart from the credentials in the headers of requests.
-/
theorem session_confines_keys
    {config : AgentConfig} {log : List Entry} {state : SessionState}
    {commands : List Command}
    (execution : Execution (Step json errorText) (.created config) log state)
    (same : List.Forall₂ (fun entry : Entry => SameCommand entry.command) log
      commands) :
    ∃ matching after,
      Execution (Step json errorText) (.created config) matching after ∧
        matching.map Entry.command = commands ∧
        List.Forall₂ SameEntry log matching ∧ SameMembers state after := by
  induction execution generalizing commands with
  | start =>
      cases same
      exact ⟨[], _, .start, rfl, .nil, rfl, Iff.rfl⟩
  | extend past last induction =>
      rcases List.eq_nil_or_concat commands with rfl | ⟨earlier, command, rfl⟩
      · simp at same
      · rw [List.concat_eq_append] at same ⊢
        obtain ⟨before, ends⟩ := forall₂_concat same
        obtain ⟨matching, reached, execution, named, entries, members⟩ :=
          induction before
        obtain ⟨other, after, step, rfl, alike, kept⟩ :=
          exists_step members ends last
        refine ⟨matching ++ [other], after, execution.extend step, ?_,
          List.rel_append entries (.cons alike .nil), kept⟩
        rw [List.map_append, named, List.map_singleton]

end Sequences

/-- The provider is configured with another key and prompted. -/
theorem session_confines_keys_promptedCall :
    ∃ matching after,
      Execution (Step ModelDiscovery.knownCatalog fun _ => "error")
          (.created {}) matching after ∧
        matching.map Entry.command =
          [.configureProvider (some { kind := .chat (.openRouter {}) })
              "other" false,
            .prompt "Hello" false false false] ∧
        List.Forall₂ SameEntry [configuredCall.1, promptedCall.1] matching ∧
        SameMembers promptedCall.2 after :=
  session_confines_keys execution_promptedCall
    (.cons (.configureProvider _ false (by decide)) (.cons (.same _) .nil))

end ArnCore.Provider.SessionKeys
