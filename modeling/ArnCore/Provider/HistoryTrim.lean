import ArnCore.Collections.Groups
import ArnCore.Provider.BuiltInTurn

/-!
# Trimmed histories

A history consists of groups: an entry that calls tools is followed by the
entries that answer the calls.  `trim_history` erases entries by their number
only, so the first entry that is kept decides whether a group was cut.
-/

namespace ArnCore.Provider.HistoryTrim

open ArnCore.Agent.Environment
open ArnCore.Collections
open ArnCore.Interaction
open ArnCore.Provider.BuiltInTurn
open ArnCore.Provider.ChatStream

/-! ## Erasing entries -/

/-- The loop keeps what is in front of the position, and the last entries. -/
theorem eraseDown_eq
    {keepFrom maxEntries : Nat} (within : keepFrom ≤ maxEntries)
    (entries : List Json) :
    eraseDown keepFrom maxEntries entries =
      some (entries.take keepFrom ++
        entries.drop (keepFrom + (entries.length - maxEntries))) := by
  induction entries using eraseDown.induct keepFrom maxEntries with
  | case1 entries fits =>
      rw [eraseDown, if_pos fits, Nat.sub_eq_zero_of_le fits, Nat.add_zero,
        List.take_append_drop]
  | case2 entries exceeds inside induction =>
      rw [eraseDown, if_neg exceeds, if_pos inside, induction]
      have shorter : (entries.eraseIdx keepFrom).length = entries.length - 1 :=
        List.length_eraseIdx_of_lt inside
      have split := List.eraseIdx_eq_take_drop_succ entries keepFrom
      have front : (entries.take keepFrom).length = keepFrom :=
        List.length_take_of_le inside.le
      rw [shorter, split]
      congr 2
      · rw [List.take_append_of_le_length front.ge, List.take_take,
          Nat.min_self]
      · rw [List.drop_append, List.drop_eq_nil_of_le (by omega),
          List.nil_append, List.drop_drop, front]
        congr 1
        omega
  | case3 entries exceeds outside => omega

/-- Past the end nothing can be erased. -/
theorem eraseDown_eq_none
    {keepFrom maxEntries : Nat} (beyond : maxEntries < keepFrom)
    (entries : List Json) (exceeds : maxEntries < entries.length) :
    eraseDown keepFrom maxEntries entries = none := by
  induction entries using eraseDown.induct keepFrom maxEntries with
  | case1 entries fits => omega
  | case2 entries exceeds inside induction =>
      rw [eraseDown, if_neg (by omega), if_pos inside]
      apply induction
      rw [List.length_eraseIdx_of_lt inside]
      omega
  | case3 entries exceeds outside =>
      rw [eraseDown, if_neg (by omega), if_neg outside]

/-- What the loop leaves, when it ends. -/
theorem eq_of_eraseDown
    {keepFrom maxEntries : Nat} {entries kept : List Json}
    (erased : eraseDown keepFrom maxEntries entries = some kept) :
    kept = entries.take keepFrom ++
      entries.drop (keepFrom + (entries.length - maxEntries)) := by
  by_cases within : keepFrom ≤ maxEntries
  · rw [eraseDown_eq within] at erased
    exact (Option.some.inj erased).symm
  by_cases fits : entries.length ≤ maxEntries
  · rw [eraseDown, if_pos fits] at erased
    cases erased
    rw [Nat.sub_eq_zero_of_le fits, Nat.add_zero, List.take_append_drop]
  · rw [eraseDown_eq_none (by omega) entries (by omega)] at erased
    cases erased

/-! ## Histories of chat completions -/

/-- The calls of an assistant message. -/
def toolCallsOf (entry : Json) : List Json :=
  match entry.find? "role", entry.find? "tool_calls" with
  | some (.string "assistant"), some (.array calls) => calls
  | _, _ => []

def IsToolMessage (entry : Json) : Prop :=
  entry.find? "role" = some (.string "tool")

def IsSystemMessage (entry : Json) : Prop :=
  entry.find? "role" = some (.string "system")

/-- A tool message answers a call by its id. -/
def AnswersCall (call answer : Json) : Prop :=
  answer.find? "tool_call_id" = call.find? "id"

/-- The calls of a message are answered one by one, in their order. -/
def ChatAnswered (entry : Json) (answers : List Json) : Prop :=
  List.Forall₂ AnswersCall (toolCallsOf entry) answers

/-- The messages of a well-paired history; only the first may be a system one. -/
structure PairedMessages (entries : List Json) : Prop where
  roles : ∀ entry ∈ entries, ∃ role, entry.find? "role" = some (.string role)
  systems : ∀ entry ∈ entries.tail, ¬ IsSystemMessage entry
  grouped : Grouped IsToolMessage ChatAnswered entries

/-! ## Histories of Gemini -/

/-- The members of the parts of an entry under a key. -/
def partMembers (key : String) (entry : Json) : List Json :=
  match entry.find? "parts" with
  | some (.array parts) => parts.filterMap (·.find? key)
  | _ => []

/-- The function calls of a model entry. -/
def functionCallsOf (entry : Json) : List Json :=
  match entry.find? "role" with
  | some (.string "model") => partMembers "functionCall" entry
  | _ => []

def functionResponsesOf (entry : Json) : List Json :=
  partMembers "functionResponse" entry

def IsFunctionResponse (entry : Json) : Prop :=
  functionResponsesOf entry ≠ []

/-- A response carries the name of its call. -/
def RespondsTo (call response : Json) : Prop :=
  response.find? "name" = call.find? "name"

/-- One entry responds to all function calls of a model entry. -/
def GeminiAnswered (entry : Json) (answers : List Json) : Prop :=
  (functionCallsOf entry = [] ∧ answers = []) ∨
    functionCallsOf entry ≠ [] ∧ ∃ answer, answers = [answer] ∧
      List.Forall₂ RespondsTo (functionCallsOf entry)
        (functionResponsesOf answer)

/-! ## Every built-in provider -/

/-- An entry that answers calls. -/
def IsAnswer : BuiltIn → Json → Prop
  | .chat _ => IsToolMessage
  | .gemini => IsFunctionResponse

/-- A well-paired history. -/
def Paired : BuiltIn → List Json → Prop
  | .chat _ => PairedMessages
  | .gemini => Grouped IsFunctionResponse GeminiAnswered

/-- What trimming has to keep: the system message, or a proper beginning. -/
def Preserved (kind : BuiltIn) (before after : List Json) : Prop :=
  match kind with
  | .chat _ => ∀ system, before.head? = some system →
      IsSystemMessage system → after.head? = some system
  | .gemini => ∀ entry, after.head? = some entry → ¬ IsFunctionResponse entry

/-- The position behind the system message. -/
def keptFrom (kind : BuiltIn) (entries : List Json) : Nat :=
  match kind, entries with
  | .chat _, first :: _ =>
      match first.find? "role" with
      | some (.string "system") => 1
      | _ => 0
  | _, _ => 0

/-- The entries that are kept of a history. -/
def trimmed (kind : BuiltIn) (maxEntries : Nat) (entries : List Json) :
    List Json :=
  entries.take (keptFrom kind entries) ++
    entries.drop (keptFrom kind entries + (entries.length - maxEntries))

theorem keptFrom_le_one
    (kind : BuiltIn) (entries : List Json) : keptFrom kind entries ≤ 1 := by
  unfold keptFrom
  split
  · split <;> omega
  · omega

section Trimming

variable {kind : BuiltIn} {endpoint : Endpoint agents} {maxEntries : Nat}
  {locals after : Conversation} {history : List AgentEvent}
  {outcome : Except Exception Unit}

theorem finishes_trimEntries
    {keepFrom : Nat}
    (run : Action.Finishes (trimEntries keepFrom maxEntries) locals history
      outcome after) :
    history = [] ∧
      (outcome = .error .foreign ∧ maxEntries < keepFrom ∧ after = locals ∨
        outcome = .ok () ∧
        after =
          { locals with
            entries := locals.entries.take keepFrom ++
              locals.entries.drop
                (keepFrom + (locals.entries.length - maxEntries)) }) := by
  have trims := Action.finishes_get_bind.mp run
  cases erased : eraseDown keepFrom maxEntries locals.entries with
  | none =>
      rw [erased] at trims
      obtain ⟨rfl, rfl, rfl⟩ := Action.finishes_throw.mp trims
      refine ⟨rfl, Or.inl ⟨rfl, ?_, rfl⟩⟩
      by_contra within
      rw [eraseDown_eq (by omega)] at erased
      cases erased
  | some kept =>
      rw [erased] at trims
      obtain ⟨rfl, rfl, rfl⟩ := Action.finishes_modify.mp trims
      rw [eq_of_eraseDown erased]
      exact ⟨rfl, Or.inr ⟨rfl, rfl⟩⟩

/-- How `trim_history` ends: nothing can be erased, or the rest is kept. -/
def TrimEnds (kind : BuiltIn) (maxEntries : Nat) (locals : Conversation)
    (history : List AgentEvent) (outcome : Except Exception Unit)
    (after : Conversation) : Prop :=
  history = [] ∧
    (outcome = .error .foreign ∧ maxEntries < 1 ∧ after = locals ∨
      outcome = .ok () ∧
      after =
        { locals with entries := trimmed kind maxEntries locals.entries })

/-- The first entry decides from where on entries are erased. -/
theorem finishes_trimHistory_iff
    (roles : ∀ entry ∈ locals.entries, ∃ role,
      entry.find? "role" = some (.string role)) :
    Action.Finishes ((kind.provider endpoint).trimHistory maxEntries) locals
        history outcome after ↔
      Action.Finishes (trimEntries (keptFrom kind locals.entries) maxEntries)
        locals history outcome after := by
  have messages : ∀ chatProvider : ChatProvider,
      Action.Finishes (trimMessages maxEntries) locals history outcome
          after ↔
        Action.Finishes
          (trimEntries (keptFrom (.chat chatProvider) locals.entries)
            maxEntries) locals history outcome after := by
    intro chatProvider
    rw [trimMessages, Action.finishes_get_bind]
    cases recorded : locals.entries with
    | nil => rfl
    | cons first rest =>
        obtain ⟨role, named⟩ :=
          roles first (recorded ▸ List.mem_cons_self)
        have read : first.valueOr Json.getString "role" "" = .ok role := by
          cases first with
          | object members =>
              rw [Json.find?_object] at named
              simp only [Json.valueOr, named, Json.getString_string]
          | _ => cases named
        have position : (if role = "system" then 1 else 0) =
            keptFrom (.chat chatProvider) (first :: rest) := by
          rw [keptFrom, named]
          split_ifs with system
          · simp [system]
          · split
            · rename_i same
              cases same
              exact absurd rfl system
            · rfl
        dsimp only
        rw [read, Action.finishes_ofExcept_bind, position]
  rcases kind with ⟨_ | config⟩ | _
  · exact messages .deepSeek
  · exact messages (.openRouter config)
  · rfl

/-- Trimming keeps the entry at the front and the last ones, or throws. -/
theorem trimEnds_of_trimHistory
    (roles : ∀ entry ∈ locals.entries, ∃ role,
      entry.find? "role" = some (.string role))
    (run : Action.Finishes ((kind.provider endpoint).trimHistory maxEntries)
      locals history outcome after) :
    TrimEnds kind maxEntries locals history outcome after := by
  have few := keptFrom_le_one kind locals.entries
  obtain ⟨rfl, ⟨thrown, beyond, unchanged⟩ | kept⟩ :=
    finishes_trimEntries ((finishes_trimHistory_iff roles).mp run)
  · exact ⟨rfl, Or.inl ⟨thrown, by omega, unchanged⟩⟩
  · exact ⟨rfl, Or.inr kept⟩

theorem finishes_trimHistory
    (roles : ∀ entry ∈ locals.entries, ∃ role,
      entry.find? "role" = some (.string role))
    (limit : 1 ≤ maxEntries)
    (run : Action.Finishes ((kind.provider endpoint).trimHistory maxEntries)
      locals history outcome after) :
    history = [] ∧ outcome = .ok () ∧
      after = { locals with entries := trimmed kind maxEntries locals.entries }
    := by
  obtain ⟨silent, ⟨-, none, -⟩ | kept⟩ := trimEnds_of_trimHistory roles run
  · omega
  · exact ⟨silent, kept⟩

/-- The system message of a history is its first entry that is kept. -/
theorem keptFrom_eq
    {chatProvider : ChatProvider} {first : Json} {rest : List Json} :
    (IsSystemMessage first ∧
        keptFrom (.chat chatProvider) (first :: rest) = 1) ∨
      ¬ IsSystemMessage first ∧
        keptFrom (.chat chatProvider) (first :: rest) = 0 := by
  rw [IsSystemMessage]
  simp only [keptFrom]
  split
  · rename_i system
    exact Or.inl ⟨system, rfl⟩
  · rename_i other
    exact Or.inr ⟨fun system => other system, rfl⟩

theorem not_isToolMessage_of_system
    {system : Json} (isSystem : IsSystemMessage system) :
    ¬ IsToolMessage system := by
  unfold IsToolMessage
  rw [isSystem]
  simp

/-- A system message calls no tools. -/
theorem chatAnswered_system
    {system : Json} (isSystem : IsSystemMessage system)
    (answers : List Json) : ChatAnswered system answers ↔ answers = [] := by
  have none : toolCallsOf system = [] := by
    unfold toolCallsOf
    rw [isSystem]
    split
    · rename_i same _
      simp at same
    · rfl
  rw [ChatAnswered, none, List.forall₂_nil_left_iff]

/-- What trimming makes of the messages of a well-paired history. -/
theorem pairedMessages_trimmed_iff
    {chatProvider : ChatProvider} {entries : List Json}
    (paired : PairedMessages entries) :
    (PairedMessages (trimmed (.chat chatProvider) maxEntries entries) ∧
        Preserved (.chat chatProvider) entries
          (trimmed (.chat chatProvider) maxEntries entries)) ↔
      ∀ entry,
        entries[keptFrom (.chat chatProvider) entries +
          (entries.length - maxEntries)]? = some entry →
        ¬ IsToolMessage entry := by
  have members : ∀ count,
      ∀ entry ∈ entries.drop count, ∃ role,
        entry.find? "role" = some (.string role) :=
    fun count entry member => paired.roles entry (List.mem_of_mem_drop member)
  cases entries with
  | nil => simp [trimmed, Preserved, paired]
  | cons first rest =>
      rcases @keptFrom_eq chatProvider first rest with
        ⟨system, kept⟩ | ⟨other, kept⟩
      · have alone := chatAnswered_system system
        have starts := not_isToolMessage_of_system system
        have grouped := (Grouped.cons_iff starts alone).mp paired.grouped
        rw [trimmed, kept, Nat.add_comm 1, List.take_succ_cons, List.take_zero,
          List.drop_succ_cons, List.getElem?_cons_succ, List.singleton_append,
          ← grouped.drop_iff]
        constructor
        · intro kept
          exact (Grouped.cons_iff starts alone).mp kept.1.grouped
        · intro remaining
          refine ⟨⟨?_, ?_, (Grouped.cons_iff starts alone).mpr remaining⟩, ?_⟩
          · intro entry member
            rcases List.mem_cons.mp member with rfl | later
            · exact ⟨_, system⟩
            · exact paired.roles entry
                (List.mem_cons_of_mem _ (List.mem_of_mem_drop later))
          · intro entry member
            exact paired.systems entry (List.mem_of_mem_drop member)
          · rintro same ⟨⟩ -
            rfl
      · rw [trimmed, kept, Nat.zero_add, List.take_zero, List.nil_append,
          ← paired.grouped.drop_iff]
        constructor
        · intro kept
          exact kept.1.grouped
        · intro remaining
          refine ⟨⟨members _, ?_, remaining⟩, ?_⟩
          · intro entry member
            rw [List.tail_drop] at member
            exact paired.systems entry (List.mem_of_mem_drop member)
          · rintro same ⟨⟩ system
            exact absurd system other

/--
Trimming keeps a well-paired history well paired, with its system message,
exactly when the first entry that is kept behind the system message answers no
call.
-/
theorem trim_keeps_pairs_iff
    (paired : Paired kind locals.entries) (limit : 1 ≤ maxEntries)
    (run : (((kind.provider endpoint).trimHistory
      maxEntries).run.run locals).Runs history (.done (outcome, after))) :
    (Paired kind after.entries ∧
        Preserved kind locals.entries after.entries) ↔
      ∀ entry,
        locals.entries[keptFrom kind locals.entries +
          (locals.entries.length - maxEntries)]? = some entry →
        ¬ IsAnswer kind entry := by
  have finished : Action.Finishes
      ((kind.provider endpoint).trimHistory maxEntries) locals history outcome
      after := Program.runs_done_iff.mp run
  cases kind with
  | chat chatProvider =>
      obtain ⟨-, -, rfl⟩ := finishes_trimHistory paired.roles limit finished
      exact pairedMessages_trimmed_iff paired
  | gemini =>
      obtain ⟨-, ⟨-, none, -⟩ | ⟨-, rfl⟩⟩ := finishes_trimEntries finished
      · omega
      simp only [keptFrom, Nat.zero_add, List.take_zero, List.nil_append]
      have remaining : Grouped IsFunctionResponse GeminiAnswered
          (locals.entries.drop (locals.entries.length - maxEntries)) ↔ _ :=
        Grouped.drop_iff paired _
      refine Iff.trans ?_ remaining
      exact ⟨fun kept => kept.1, fun kept => ⟨kept, kept.starts⟩⟩

end Trimming

/-! ## A group that is cut -/

/-- A message that calls one tool. -/
def callingMessage : Json :=
  .object
    [("content", .null), ("role", .string "assistant"),
      ("tool_calls",
        .array
          [.object
            [("function",
              .object
                [("arguments", .string "{}"), ("name", .string "f")]),
              ("id", .string "call_1"), ("type", .string "function")]])]

/-- A prompt, a call with its answer, and the reply. -/
def calledOnce : Conversation where
  entries :=
    [chatMessage "user" "Hello", callingMessage, toolMessage "call_1" "1",
      chatMessage "assistant" "One"]

theorem role_chatMessage (role text : String) :
    (chatMessage role text).find? "role" = some (.string role) := by
  rw [chatMessage, Json.find?_ofMembers]
  simp

theorem isToolMessage_toolMessage (callId content : String) :
    IsToolMessage (toolMessage callId content) := by
  rw [IsToolMessage, toolMessage, Json.find?_ofMembers]
  simp

theorem not_isToolMessage_chatMessage
    {role text : String} (other : role ≠ "tool") :
    ¬ IsToolMessage (chatMessage role text) := by
  rw [IsToolMessage, role_chatMessage]
  simpa using other

theorem paired_calledOnce : Paired (.chat .deepSeek) calledOnce.entries where
  roles := by
    intro entry member
    simp only [calledOnce, List.mem_cons, List.not_mem_nil, or_false]
      at member
    rcases member with rfl | rfl | rfl | rfl
    · exact ⟨"user", role_chatMessage _ _⟩
    · exact ⟨"assistant", rfl⟩
    · exact ⟨"tool", isToolMessage_toolMessage _ _⟩
    · exact ⟨"assistant", role_chatMessage _ _⟩
  systems := by
    intro entry member system
    simp only [calledOnce, List.tail_cons, List.mem_cons, List.not_mem_nil,
      or_false] at member
    rcases member with rfl | rfl | rfl
    · simp [IsSystemMessage, callingMessage] at system
    · exact not_isToolMessage_of_system system (isToolMessage_toolMessage _ _)
    · simp [IsSystemMessage, role_chatMessage] at system
  grouped := by
    have calling : ¬ IsToolMessage callingMessage := by
      simp [IsToolMessage, callingMessage]
    have answered : ChatAnswered callingMessage [toolMessage "call_1" "1"] := by
      refine .cons ?_ .nil
      rw [AnswersCall, toolMessage, Json.find?_ofMembers]
      simp
    have silent : ∀ role text, ChatAnswered (chatMessage role text) [] := by
      intro role text
      rw [ChatAnswered, toolCallsOf, role_chatMessage]
      simp [chatMessage, Json.find?_ofMembers]
    have answering : ∀ answer ∈ [toolMessage "call_1" "1"],
        IsToolMessage answer :=
      List.forall_mem_singleton.mpr (isToolMessage_toolMessage _ _)
    exact .group (not_isToolMessage_chatMessage (by decide)) (silent _ _)
      (by simp)
      (.group calling answered answering
        (.group (not_isToolMessage_chatMessage (by decide)) (silent _ _)
          (by simp) .nil))

/-- An endpoint; trimming does not use it. -/
def anyEndpoint : Endpoint agents where
  json := .knowing []
  client := none
  errorText _ := "error"

def undisturbed : List AgentEvent → (op : AgentOp) → agents.Answer op :=
  fun _ => quiet

/-- Trimming to some number of entries. -/
def trimRun (maxEntries : Nat) :
    List AgentEvent × (Except Exception Unit × Conversation) :=
  Program.scripted undisturbed
    (((BuiltIn.provider (.chat .deepSeek) anyEndpoint).trimHistory
      maxEntries).run.run calledOnce)
    []

theorem runs_trimRun (maxEntries : Nat) :
    (((BuiltIn.provider (.chat .deepSeek) anyEndpoint).trimHistory
      maxEntries).run.run calledOnce).Runs (trimRun maxEntries).1
        (.done ((trimRun maxEntries).2.1, (trimRun maxEntries).2.2)) :=
  Program.runs_scripted_pair undisturbed _

/-- Two entries are kept: the answer without its call, and the reply. -/
theorem trim_cuts_group :
    ¬ ∀ (kind : BuiltIn) (endpoint : Endpoint agents) (maxEntries : Nat)
      (locals after : Conversation) (history : List AgentEvent)
      (outcome : Except Exception Unit),
      Paired kind locals.entries → 1 ≤ maxEntries →
      (((kind.provider endpoint).trimHistory
        maxEntries).run.run locals).Runs history (.done (outcome, after)) →
      Paired kind after.entries ∧
        Preserved kind locals.entries after.entries := by
  intro keeps
  have run := runs_trimRun 2
  have kept := keeps _ _ _ _ _ _ _ paired_calledOnce (by decide) run
  obtain ⟨-, -, same⟩ := finishes_trimHistory paired_calledOnce.roles
    (by decide) (Program.runs_done_iff.mp run)
  rw [same] at kept
  exact kept.1.grouped.starts _ rfl (isToolMessage_toolMessage "call_1" "1")

/-- One entry is kept: the reply. -/
theorem trim_keeps_pairs_iff_trimRun :
    Paired (.chat .deepSeek) (trimRun 1).2.2.entries := by
  refine ((trim_keeps_pairs_iff paired_calledOnce (by decide)
    (runs_trimRun 1)).mpr ?_).1
  rintro entry ⟨⟩
  exact not_isToolMessage_chatMessage (by decide)

end ArnCore.Provider.HistoryTrim
