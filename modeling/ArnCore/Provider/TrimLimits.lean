import ArnCore.Provider.SystemInstruction

/-!
# The limits of trimmed histories

`trim_history` keeps a leading system message by erasing behind it, while its
guard compares the whole history with the limit.  The position and the guard
agree for every limit but zero: there the loop goes on with the system message
alone, behind which no entry is left.
-/

namespace ArnCore.Provider.TrimLimits

open ArnCore.Agent.Environment
open ArnCore.Interaction
open ArnCore.Interaction.Action
open ArnCore.Net
open ArnCore.Provider.BuiltInTurn
open ArnCore.Provider.FailedStart
open ArnCore.Provider.HistoryTrim
open ArnCore.Provider.ProviderSession
open ArnCore.Provider.SingleAttempt
open ArnCore.Provider.StreamedCalls
open ArnCore.Provider.SystemInstruction
open ArnCore.Tool

/-! ## The histories of a provider -/

/-- The states of a provider: whatever its member functions left behind. -/
inductive Reached (kind : BuiltIn) : Conversation → Prop where
  | created : Reached kind {}
  | listed {conversation after : Conversation} {config : OpenRouterConfig}
      {endpoint : Endpoint agents} {apiKey : String}
      {cancel : CancelFlag agents} {history : List AgentEvent}
      {outcome : Except Exception ApiResult}
      (isOpenRouter : kind = .chat (.openRouter config))
      (before : Reached kind conversation)
      (run : Finishes
        (OpenRouterProvider.listModels endpoint config apiKey cancel)
        conversation history outcome after) :
      Reached kind after
  | started {conversation after : Conversation}
      {endpoint : Endpoint agents}
      {apiKey model systemInstruction userPrompt : String}
      {tools : ToolRegistry agents Conversation}
      {callbacks : StreamCallbacks agents} {cancel : CancelFlag agents}
      {history : List AgentEvent} {outcome : Except Exception ModelTurn}
      (before : Reached kind conversation)
      (run : Finishes
        ((kind.provider endpoint).startTurn apiKey model systemInstruction
          userPrompt tools callbacks cancel)
        conversation history outcome after) :
      Reached kind after
  | continued {conversation after : Conversation}
      {endpoint : Endpoint agents}
      {apiKey model systemInstruction : String}
      {responses : List ToolResponse}
      {tools : ToolRegistry agents Conversation}
      {callbacks : StreamCallbacks agents} {cancel : CancelFlag agents}
      {history : List AgentEvent} {outcome : Except Exception ModelTurn}
      (before : Reached kind conversation)
      (run : Finishes
        ((kind.provider endpoint).continueTurn apiKey model systemInstruction
          responses tools callbacks cancel)
        conversation history outcome after) :
      Reached kind after
  | trimmed {conversation after : Conversation}
      {endpoint : Endpoint agents} {maxEntries : Nat}
      {history : List AgentEvent} {outcome : Except Exception Unit}
      (before : Reached kind conversation)
      (run : Finishes ((kind.provider endpoint).trimHistory maxEntries)
        conversation history outcome after) :
      Reached kind after
  | cleared {conversation after : Conversation}
      {endpoint : Endpoint agents} {history : List AgentEvent}
      {outcome : Except Exception Unit}
      (before : Reached kind conversation)
      (run : Finishes (kind.provider endpoint).resetSession conversation
        history outcome after) :
      Reached kind after

section Roles

variable {kind : BuiltIn} {endpoint : Endpoint agents}
  {callbacks : StreamCallbacks agents} {cancel : CancelFlag agents}

/-- However the action is left, every entry still names its role. -/
abbrev KeepsRoles {Value : Type}
    (action : Action agents Conversation Value) : Prop :=
  Maintains (fun _ => True) (fun _ => True)
    (fun conversation => HaveRoles conversation.entries) action

/-- A call of the environment changes no variables. -/
theorem maintains_host
    {Locals Value : Type} {kept : Locals → Prop}
    (computation : Host agents Value) :
    Maintains (fun _ => True) (fun _ => True) kept (ofHost computation) :=
  .ofHost fun _ _ _ _ _ => trivial

theorem maintains_isSet
    {Locals : Type} {kept : Locals → Prop} :
    Maintains (fun _ => True) (fun _ => True) kept
      (isSet cancel : Action agents Locals Bool) := by
  cases cancel with
  | none => exact .pure false
  | some load => exact maintains_host load

theorem maintains_waitUntil
    {Locals : Type} {kept : Locals → Prop} (polls : Nat) :
    Maintains (fun _ => True) (fun _ => True) kept
      (waitUntil cancel polls : Action agents Locals Bool) := by
  induction polls with
  | zero => exact .pure false
  | succ polls induction =>
      refine .bind maintains_isSet fun stop => ?_
      cases stop with
      | true => exact .pure true
      | false => exact induction

theorem maintains_retryDelay
    {Locals : Type} {kept : Locals → Prop} {transport : Transport agents}
    (response : HttpResult) (attempt : Nat) :
    Maintains (fun _ => True) (fun _ => True) kept
      (retryDelay transport response attempt : Action agents Locals Nat) := by
  unfold retryDelay
  cases retryAfterSeconds response with
  | some seconds => exact .pure _
  | none => exact .bind (maintains_host _) fun jitter => .pure _

/-- Retries change no variables. -/
theorem maintains_executeWithRetry
    {Locals : Type} {kept : Locals → Prop} {transport : Transport agents}
    {request : Host agents HttpResult} {maxAttempts : Int} {attempt : Nat} :
    Maintains (fun _ => True) (fun _ => True) kept
      (executeWithRetry transport cancel request maxAttempts attempt :
        Action agents Locals HttpResult) := by
  induction remaining : (maxAttempts - attempt).toNat
    using Nat.strong_induction_on generalizing attempt with
  | _ remaining induction =>
      rw [executeWithRetry]
      refine .bind (maintains_host _) fun response =>
        .bind maintains_isSet fun stop => ?_
      by_cases final : (stop || !shouldRetry response "" ||
          decide ((attempt : Int) + 1 ≥ maxAttempts)) = true
      · rw [dif_pos final]
        exact .pure response
      · rw [dif_neg final]
        simp only [Bool.or_eq_true, decide_eq_true_eq, not_or] at final
        refine .bind (maintains_retryDelay response attempt) fun delay =>
          .bind (maintains_host _) fun polls =>
            .bind (maintains_waitUntil polls) fun cancelled => ?_
        cases cancelled with
        | true => exact .pure response
        | false => exact induction _ (by omega) rfl

theorem keepsRoles_concludeListing
    (received : HttpResult) :
    KeepsRoles (OpenRouterProvider.concludeListing endpoint received) := by
  unfold OpenRouterProvider.concludeListing
  cases received with
  | error error => exact .pure _
  | ok response =>
      dsimp only
      split_ifs
      · unfold OpenRouterProvider.readCatalog
        split
        · exact .bind (.modify fun _ roles => roles) fun _ => .pure _
        · exact .pure _
        · exact .throw _
      · exact .pure _

theorem keepsRoles_listModels
    {config : OpenRouterConfig} {apiKey : String} :
    KeepsRoles
      (OpenRouterProvider.listModels endpoint config apiKey cancel) := by
  refine .bind maintains_isSet fun stop => ?_
  cases stop with
  | true => exact .pure _
  | false =>
      cases endpoint.client with
      | none => exact .pure _
      | some transport =>
          refine .bind maintains_executeWithRetry fun received =>
            .bind maintains_isSet fun stop => ?_
          cases stop with
          | true => exact .pure _
          | false => exact keepsRoles_concludeListing received

theorem keepsRoles_pushEntry
    {entry : Json} {role : String}
    (named : entry.find? "role" = some (.string role)) :
    KeepsRoles (pushEntry entry) :=
  .modify fun _ roles => List.forall_mem_append.mpr
    ⟨roles, List.forall_mem_singleton.mpr ⟨role, named⟩⟩

theorem keepsRoles_readTurn
    (parts : TurnParts) :
    KeepsRoles (tryCatch (kind.readTurn endpoint parts) unreadable) := by
  intro conversation roles history outcome after run permitted
  obtain ⟨rfl, ends⟩ := BuiltIn.finishes_readTurn run
  refine ⟨by simp, ?_⟩
  cases records : kind.answerRecord? parts with
  | none =>
      rw [records] at ends
      obtain ⟨-, rfl⟩ := ends
      exact roles
  | some entry =>
      rw [records] at ends
      obtain ⟨-, rfl⟩ := ends
      exact haveRoles_append roles
        (List.forall_mem_singleton.mpr (spoken_of_answerRecord records))

theorem keepsRoles_concludeTurn
    (received : HttpResult × Streaming TurnParts) :
    KeepsRoles
      (concludeTurn endpoint kind.name (kind.readTurn endpoint) received) := by
  rcases received with ⟨failure | response, streaming⟩
  · exact .pure _
  · unfold concludeTurn
    dsimp only
    split_ifs
    · exact keepsRoles_readTurn streaming.parts
    · exact .pure _

theorem keepsRoles_executeTurnRequest
    {apiKey model systemInstruction : String}
    {tools : ToolRegistry agents Conversation} :
    KeepsRoles
      (kind.executeTurnRequest endpoint apiKey model systemInstruction tools
        callbacks cancel) := by
  rw [BuiltIn.executeTurnRequest_eq, executeTurn]
  cases endpoint.client with
  | none => exact .pure _
  | some transport =>
      refine .bind maintains_isSet fun stop => ?_
      cases stop with
      | true => exact .pure _
      | false =>
          refine .bind .get fun conversation =>
            .bind (.withLocals (.any _)) fun received =>
              .bind maintains_isSet fun stop => ?_
          cases stop with
          | true => exact .pure _
          | false => exact keepsRoles_concludeTurn received

theorem keepsRoles_afterCheck
    {body : Action agents Conversation ModelTurn}
    (keeps : KeepsRoles body) : KeepsRoles (kind.afterCheck cancel body) := by
  unfold BuiltIn.afterCheck
  split_ifs
  · refine .bind maintains_isSet fun stop => ?_
    cases stop with
    | true => exact .pure _
    | false => exact keeps
  · exact keeps

theorem keepsRoles_startTurn
    {apiKey model systemInstruction userPrompt : String}
    {tools : ToolRegistry agents Conversation} :
    KeepsRoles
      ((kind.provider endpoint).startTurn apiKey model systemInstruction
        userPrompt tools callbacks cancel) := by
  rw [BuiltIn.startTurn_eq]
  refine keepsRoles_afterCheck (.bind (.modify ?_) fun _ =>
    keepsRoles_executeTurnRequest)
  exact fun _ roles =>
    List.forall_mem_append.mpr ⟨roles, haveRoles_promptEntries⟩

theorem keepsRoles_pushToolMessages
    (responses : List ToolResponse) :
    KeepsRoles (pushToolMessages endpoint responses) := by
  induction responses with
  | nil => exact .pure ()
  | cons response responses induction =>
      refine .bind (.ofExcept _) fun content => ?_
      obtain ⟨role, named, -⟩ := spoken_toolMessage response.callId content
      exact .bind (keepsRoles_pushEntry named) fun _ => induction

theorem keepsRoles_continueTurn
    {apiKey model systemInstruction : String}
    {responses : List ToolResponse}
    {tools : ToolRegistry agents Conversation} :
    KeepsRoles
      ((kind.provider endpoint).continueTurn apiKey model systemInstruction
        responses tools callbacks cancel) := by
  rcases kind with ⟨_ | config⟩ | _
  · exact .bind (keepsRoles_pushToolMessages responses) fun _ =>
      @keepsRoles_executeTurnRequest (.chat .deepSeek) _ _ _ _ _
        systemInstruction _
  · refine .bind maintains_isSet fun stop => ?_
    cases stop with
    | true => exact .pure _
    | false =>
        exact .bind (keepsRoles_pushToolMessages responses) fun _ =>
          @keepsRoles_executeTurnRequest (.chat (.openRouter config)) _ _ _ _ _
            systemInstruction _
  · exact .bind (keepsRoles_pushEntry (role_contentEntry _ _)) fun _ =>
      @keepsRoles_executeTurnRequest .gemini _ _ _ _ _ _ _

theorem entries_of_resetSession
    {conversation after : Conversation} {history : List AgentEvent}
    {outcome : Except Exception Unit}
    (run : Finishes (kind.provider endpoint).resetSession conversation
      history outcome after) :
    after.entries = [] := by
  have clears : (kind.provider endpoint).resetSession = clearEntries := by
    rcases kind with ⟨_ | config⟩ | _
    all_goals rfl
  rw [clears] at run
  rw [(finishes_modify.mp run).2.2]

/-- Every entry of every history names its role. -/
theorem haveRoles_of_reached
    {conversation : Conversation} (reached : Reached kind conversation) :
    HaveRoles conversation.entries := by
  have left : ∀ {Value : Type} {action : Action agents Conversation Value}
      {before after : Conversation} {history : List AgentEvent}
      {outcome : Except Exception Value},
      KeepsRoles action → HaveRoles before.entries →
        Finishes action before history outcome after →
          HaveRoles after.entries :=
    fun keeps roles run => (keeps _ roles run fun _ _ => trivial).2
  induction reached with
  | created => simp [HaveRoles]
  | listed isOpenRouter before run induction =>
      exact left keepsRoles_listModels induction run
  | started before run induction =>
      exact left keepsRoles_startTurn induction run
  | continued before run induction =>
      exact left keepsRoles_continueTurn induction run
  | trimmed before run induction =>
      obtain ⟨-, ⟨-, -, rfl⟩ | ⟨-, rfl⟩⟩ :=
        trimEnds_of_trimHistory induction run
      · exact induction
      · refine List.forall_mem_append.mpr ⟨?_, ?_⟩
        · exact fun entry member => induction entry (List.mem_of_mem_take member)
        · exact fun entry member => induction entry (List.mem_of_mem_drop member)
  | cleared before run induction =>
      rw [entries_of_resetSession run]
      simp [HaveRoles]

end Roles

/-! ## The loop -/

/-- The histories the loop passes through; every entry it erases exists. -/
inductive Passes (keepFrom maxEntries : Nat) (entries : List Json) :
    List Json → Prop where
  | entered : Passes keepFrom maxEntries entries entries
  | erased {reached : List Json}
      (before : Passes keepFrom maxEntries entries reached)
      (exceeds : maxEntries < reached.length)
      (existing : keepFrom < reached.length) :
      Passes keepFrom maxEntries entries (reached.eraseIdx keepFrom)

section Loop

variable {keepFrom maxEntries : Nat} {entries reached : List Json}

/-- An iteration does not change what the loop leaves in the end. -/
theorem Passes.eraseDown_eq
    (passes : Passes keepFrom maxEntries entries reached) :
    eraseDown keepFrom maxEntries reached =
      eraseDown keepFrom maxEntries entries := by
  induction passes with
  | entered => rfl
  | @erased reached before exceeds existing induction =>
      rw [← induction, eraseDown.eq_def keepFrom maxEntries reached,
        if_neg (by omega), if_pos existing]

/-- The loop comes to the end of its guard, or to a position without entry. -/
theorem Passes.exists_end
    (passes : Passes keepFrom maxEntries entries reached) :
    ∃ final, Passes keepFrom maxEntries entries final ∧
      (final.length ≤ maxEntries ∨
        maxEntries < final.length ∧ final.length ≤ keepFrom) := by
  induction reached using eraseDown.induct keepFrom maxEntries with
  | case1 reached fits => exact ⟨reached, passes, Or.inl fits⟩
  | case2 reached exceeds inside induction =>
      exact induction (passes.erased (by omega) inside)
  | case3 reached exceeds outside =>
      exact ⟨reached, passes, Or.inr ⟨by omega, by omega⟩⟩

end Loop

/-! ## Safe and exact trimming -/

/-- The system message in front of the messages of chat completions. -/
def LeadsWithSystem (kind : BuiltIn) (entries : List Json) : Prop :=
  match kind with
  | .chat _ => ∃ system, entries.head? = some system ∧ IsSystemMessage system
  | .gemini => False

/--
What is left is the leading system message and the longest suffix of the other
entries that fits.
-/
structure LongestKept (kind : BuiltIn) (maxEntries : Nat)
    (entries kept : List Json) : Prop where
  fits : kept.length ≤ max maxEntries (keptFrom kind entries)
  suffix : ∃ rest, rest <:+ entries.drop (keptFrom kind entries) ∧
    kept = entries.take (keptFrom kind entries) ++ rest ∧
    ∀ other, other <:+ entries.drop (keptFrom kind entries) →
      (entries.take (keptFrom kind entries) ++ other).length ≤
        max maxEntries (keptFrom kind entries) →
      other <:+ rest

/-- Trimming the history of a provider to a limit. -/
structure TrimsExactly (kind : BuiltIn) (endpoint : Endpoint agents)
    (maxEntries : Nat) (locals : Conversation) : Prop where
  /-- Wherever the guard lets the loop go on, there is an entry to erase. -/
  existing : ∀ reached,
    Passes (keptFrom kind locals.entries) maxEntries locals.entries reached →
      maxEntries < reached.length →
        keptFrom kind locals.entries < reached.length
  terminates : ∃ final,
    Passes (keptFrom kind locals.entries) maxEntries locals.entries final ∧
      final.length ≤ maxEntries
  exact : ∃ kept, LongestKept kind maxEntries locals.entries kept ∧
    ∀ history outcome after,
      Finishes ((kind.provider endpoint).trimHistory maxEntries) locals
          history outcome after ↔
        history = [] ∧ outcome = .ok () ∧
          after = { locals with entries := kept }

section Trimming

variable {kind : BuiltIn} {endpoint : Endpoint agents} {maxEntries : Nat}
  {locals : Conversation} {entries : List Json}

theorem keptFrom_eq_one_iff :
    keptFrom kind entries = 1 ↔ LeadsWithSystem kind entries := by
  cases kind with
  | gemini => simp [keptFrom, LeadsWithSystem]
  | chat chatProvider =>
      cases entries with
      | nil => simp [keptFrom, LeadsWithSystem]
      | cons first rest =>
          rcases @keptFrom_eq chatProvider first rest with
            ⟨system, kept⟩ | ⟨other, kept⟩
          · simp [kept, LeadsWithSystem, system]
          · simp [kept, LeadsWithSystem, other]

theorem keptFrom_le_length (kind : BuiltIn) (entries : List Json) :
    keptFrom kind entries ≤ entries.length := by
  cases entries with
  | nil => cases kind <;> simp [keptFrom]
  | cons first rest =>
      have few := keptFrom_le_one kind (first :: rest)
      rw [List.length_cons]
      omega

theorem longestKept_trimmed
    (within : keptFrom kind entries ≤ maxEntries) :
    LongestKept kind maxEntries entries (trimmed kind maxEntries entries) := by
  have inside := keptFrom_le_length kind entries
  rw [trimmed, ← List.drop_drop]
  have front : (entries.take (keptFrom kind entries)).length =
      keptFrom kind entries :=
    List.length_take_of_le inside
  constructor
  case fits =>
    rw [List.length_append, List.length_drop, List.length_drop, front]
    omega
  case suffix =>
    refine ⟨_, List.drop_suffix _ _, rfl, ?_⟩
    intro other isSuffix fits
    refine List.suffix_of_suffix_length_le isSuffix (List.drop_suffix _ _) ?_
    have shorter := isSuffix.length_le
    rw [List.length_append, front] at fits
    rw [List.length_drop] at shorter
    rw [List.length_drop, List.length_drop]
    omega

theorem trimsExactly_of_within
    (roles : HaveRoles locals.entries)
    (within : keptFrom kind locals.entries ≤ maxEntries) :
    TrimsExactly kind endpoint maxEntries locals where
  existing := by
    intro reached passes exceeds
    by_contra outside
    have kept := eraseDown_eq within locals.entries
    rw [← passes.eraseDown_eq, eraseDown, if_neg (by omega),
      if_neg outside] at kept
    cases kept
  terminates := by
    obtain ⟨final, passes, fits | ⟨exceeds, outside⟩⟩ :=
      (Passes.entered : Passes (keptFrom kind locals.entries) maxEntries
        locals.entries locals.entries).exists_end
    · exact ⟨final, passes, fits⟩
    · omega
  exact := by
    refine ⟨_, longestKept_trimmed within, ?_⟩
    intro history outcome after
    rw [finishes_trimHistory_iff roles, trimEntries, finishes_get_bind,
      eraseDown_eq within]
    exact finishes_modify

/-- Nothing but a system message has to be kept by a limit of zero. -/
theorem TrimsExactly.limited
    (trims : TrimsExactly kind endpoint maxEntries locals) :
    1 ≤ maxEntries ∨ ¬ LeadsWithSystem kind locals.entries := by
  rw [← keptFrom_eq_one_iff]
  by_contra unlimited
  have inside := keptFrom_le_length kind locals.entries
  obtain ⟨final, passes, fits⟩ := trims.terminates
  have none := @eraseDown_eq_none (keptFrom kind locals.entries) maxEntries
    (by omega) locals.entries (by omega)
  rw [← passes.eraseDown_eq, eraseDown, if_pos fits] at none
  cases none

/--
Trimming is safe and exact for every limit but zero, and for zero where no
system message stands in front.
-/
theorem trim_exact_iff
    (reached : Reached kind locals) :
    TrimsExactly kind endpoint maxEntries locals ↔
      1 ≤ maxEntries ∨ ¬ LeadsWithSystem kind locals.entries := by
  refine ⟨TrimsExactly.limited, fun limited => ?_⟩
  have few := keptFrom_le_one kind locals.entries
  rw [← keptFrom_eq_one_iff] at limited
  exact trimsExactly_of_within (haveRoles_of_reached reached) (by omega)

end Trimming

/-! ## A limit of zero -/

/-- A start of DeepSeek with an instruction; its request fails. -/
def instructedRun : List AgentEvent ×
    (Except Exception ModelTurn × Conversation) :=
  Program.scripted unreachable
    (((BuiltIn.provider (.chat .deepSeek)
      (networked knownDocuments fun _ => "error")).startTurn "key" "model"
      "Be brief." "Hello" {} (hostCallbacks false false)
      (callerFlag false)).run.run {})
    []

theorem reached_instructedRun :
    Reached (.chat .deepSeek) instructedRun.2.2 :=
  .started .created (finishes_scripted unreachable _ _)

theorem leads_instructedRun :
    LeadsWithSystem (.chat .deepSeek) instructedRun.2.2.entries := by
  rw [← keptFrom_eq_one_iff]
  decide +kernel

/-- The loop erases the prompt, and then the entry behind the last one. -/
theorem system_message_not_trimmed :
    ¬ ∀ (kind : BuiltIn) (endpoint : Endpoint agents) (maxEntries : Nat)
      (locals : Conversation), Reached kind locals →
      TrimsExactly kind endpoint maxEntries locals := by
  intro always
  have trims := always _ (networked knownDocuments fun _ => "error") 0 _
    reached_instructedRun
  rcases trims.limited with limited | other
  · cases limited
  · exact other leads_instructedRun

/-- With room for one entry the system message is left. -/
theorem trim_exact_iff_instructedRun :
    TrimsExactly (.chat .deepSeek) (networked knownDocuments fun _ => "error")
      1 instructedRun.2.2 :=
  (trim_exact_iff reached_instructedRun).mpr (Or.inl (by decide))

end ArnCore.Provider.TrimLimits
