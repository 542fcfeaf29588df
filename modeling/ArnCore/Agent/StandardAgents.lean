import ArnCore.Agent.StagePermissions

/-!
# The standard agents

Four profiles with fixed tools and permissions: three of them only read, and
the coder may also write and delete files, each time with an approval.  What
the profiles say is carried to every call of an orchestrator over them.
-/

namespace ArnCore.Agent.StandardAgents

open ArnCore.Interaction
open ArnCore.Provider
open ArnCore.Tool
open ArnCore.Agent.AgentOrchestrator
open ArnCore.Agent.ConductedStages
open ArnCore.Agent.Environment
open ArnCore.Agent.ExposedTools
open ArnCore.Agent.LockDiscipline
open ArnCore.Agent.OrchestratorProtocol
open ArnCore.Agent.RuntimePermission
open ArnCore.Agent.SharedMemory
open ArnCore.Agent.StagePermissions
open ArnCore.Agent.WorkflowProtocol
open ArnCore.Agent.WorkflowSteps

/-! ## The profiles -/

def kListFilesTool : String := "list_files"
def kReadFileTool : String := "read_file"
def kSearchFilesTool : String := "search_files"
def kWriteFileTool : String := "write_file"
def kDeleteFileTool : String := "delete_file"

/-- `read_only_permissions` -/
def readOnlyPermissions : AgentPermissions :=
  (AgentPermissions.empty.setDecision .readFile .allow).2

/-- `read_only_tools` -/
def readOnlyTools : List String :=
  [kListFilesTool, kReadFileTool, kSearchFilesTool]

/-- `make_read_only_profile` -/
def makeReadOnlyProfile
    (id displayName description instructions : String) : AgentProfile where
  id := id
  displayName := displayName
  description := description
  instructions := instructions
  allowedTools := readOnlyTools
  permissions := readOnlyPermissions

/-- `standard_agents::explorer` -/
def explorer : AgentProfile :=
  makeReadOnlyProfile explorerId "Explorer"
    "Inspects a project and reports relevant facts without changing it."
    "Explore the project, locate relevant files and symbols, and report evidence. Do not modify files or run mutating operations."

/-- `standard_agents::planner` -/
def planner : AgentProfile :=
  makeReadOnlyProfile plannerId "Planner"
    "Produces implementation plans from project evidence without changing files."
    "Inspect the project as needed, identify constraints and dependencies, and produce a concrete implementation plan. Do not modify files."

/-- The decisions of the coder, set one after the other. -/
def coderPermissions : AgentPermissions :=
  let reads := (AgentPermissions.empty.setDecision .readFile .allow).2
  let writes := (reads.setDecision .writeFile .askUser).2
  (writes.setDecision .deleteFile .askUser).2

/-- `standard_agents::coder` -/
def coder : AgentProfile where
  id := coderId
  displayName := "Coder"
  description :=
    "Implements focused code changes with explicit approval for file mutations."
  instructions :=
    "Inspect the relevant code, implement the requested change, and verify it. Request approval before writing or deleting files."
  allowedTools := readOnlyTools ++ [kWriteFileTool] ++ [kDeleteFileTool]
  permissions := coderPermissions

/-- `standard_agents::reviewer` -/
def reviewer : AgentProfile :=
  makeReadOnlyProfile reviewerId "Reviewer"
    "Reviews project changes for correctness, safety and regressions without editing them."
    "Inspect the relevant code and changes, prioritize concrete defects, and explain each finding with evidence. Do not modify files."

/-- `standard_agents::make_registry` -/
def makeRegistry : AgentRegistry :=
  let first := (AgentRegistry.empty.registerProfile explorer).2
  let second := (first.registerProfile planner).2
  let third := (second.registerProfile coder).2
  (third.registerProfile reviewer).2

/-! ## What the profiles permit -/

/-- What a tool may do in a stage of a standard profile. -/
def Permitted (profile : AgentProfile) : OperationClass → Prop
  | .readFile => True
  | .writeFile => profile.id = coderId
  | .deleteFile => profile.id = coderId
  | _ => False

/-- The policy all standard profiles keep to. -/
structure Standard (profile : AgentProfile) : Prop where
  permits : ∀ operation, profile.permissions.decisionFor operation ≠ .deny →
    Permitted profile operation
  allows : ∀ operation, profile.permissions.decisionFor operation = .allow →
    operation = .readFile
  names : ∀ name ∈ profile.allowedTools,
    name ∈ readOnlyTools ∨
      (profile.id = coderId ∧
        (name = kWriteFileTool ∨ name = kDeleteFileTool))

theorem makeReadOnlyProfile_standard
    (id displayName description instructions : String) :
    Standard (makeReadOnlyProfile id displayName description instructions) where
  permits := by
    intro operation permitted
    cases operation with
    | readFile => trivial
    | _ => exact (permitted rfl).elim
  allows := by
    intro operation allowed
    cases operation with
    | readFile => rfl
    | _ => cases allowed
  names := fun _ listed => Or.inl listed

theorem coder_standard : Standard coder where
  permits := by
    intro operation permitted
    cases operation with
    | readFile => trivial
    | writeFile => rfl
    | deleteFile => rfl
    | _ => exact (permitted rfl).elim
  allows := by
    intro operation allowed
    cases operation with
    | readFile => rfl
    | _ => cases allowed
  names := by
    intro name listed
    rcases List.mem_append.mp listed with listed | last
    · rcases List.mem_append.mp listed with reads | writes
      · exact Or.inl reads
      · exact Or.inr ⟨rfl, Or.inl (List.mem_singleton.mp writes)⟩
    · exact Or.inr ⟨rfl, Or.inr (List.mem_singleton.mp last)⟩

/-- What is found after a registration was registered then or before. -/
theorem find_registerProfile
    {registry : AgentRegistry} {added found : AgentProfile} {id : String}
    (known : (registry.registerProfile added).2.find id = some found) :
    found = added ∨ registry.find id = some found := by
  unfold AgentRegistry.registerProfile at known
  split at known
  · exact Or.inr known
  · unfold AgentRegistry.find at known ⊢
    rw [Collections.OrderedMap.find?_insert] at known
    split at known
    · exact Or.inl (Option.some.inj known).symm
    · exact Or.inr known

theorem standard_of_find
    {id : String} {profile : AgentProfile}
    (known : makeRegistry.find id = some profile) :
    Standard profile := by
  rcases find_registerProfile known with rfl | known
  · exact makeReadOnlyProfile_standard _ _ _ _
  · rcases find_registerProfile known with rfl | known
    · exact coder_standard
    · rcases find_registerProfile known with rfl | known
      · exact makeReadOnlyProfile_standard _ _ _ _
      · rcases find_registerProfile known with rfl | known
        · exact makeReadOnlyProfile_standard _ _ _ _
        · cases known

/-- The profiles a call awaits were found in the registry. -/
theorem find_of_mem_awaited
    {parts : OrchestratorParts} {call : HostCall} {profile : AgentProfile}
    (waited : profile ∈ awaited parts call) :
    ∃ id, parts.registry.find id = some profile := by
  cases call with
  | execute task started finished continuation text progress attached =>
      cases found : findProfiles parts.registry kStages with
      | error missing =>
          rw [awaited, found] at waited
          cases waited
      | ok stages =>
          rw [awaited, found] at waited
          obtain ⟨entry, member, rfl⟩ := List.mem_map.mp waited
          exact ⟨_, (OrchestrationFlow.findProfiles_spec found).2 entry member⟩
  | executeAgent profileId task text progress attached =>
      exact ⟨profileId, Option.mem_toList.mp waited⟩
  | cancel active => cases waited

/-! ## Confinement -/

/-- A native tool that is called in a stage of a standard profile. -/
structure Confined (profile : AgentProfile) (constraints : TaskConstraints)
    (history : List AgentEvent) (binding : NativeBinding) (name : String)
    (arguments : Json) : Prop where
  named : name ∈ readOnlyTools ∨
    (profile.id = coderId ∧ (name = kWriteFileTool ∨ name = kDeleteFileTool))
  bound : binding.operations ≠ []
  permitted : ∀ operation ∈ binding.operations, Permitted profile operation
  reads : constraints.readOnly = true →
    ∀ operation ∈ binding.operations, operation = .readFile
  approved : (∃ operation ∈ binding.operations, operation ≠ .readFile) →
    Approved history name arguments

theorem confined_of_offered
    {profile : AgentProfile} {constraints : TaskConstraints}
    {history : List AgentEvent} {binding : NativeBinding}
    {definition : ToolDefinition} {confirms : Bool} {arguments : Json}
    (standard : Standard profile)
    (offered : Offered profile constraints binding definition)
    (asked : MustConfirm profile binding confirms →
      Approved history definition.name arguments) :
    Confined profile constraints history binding definition.name
      arguments := by
  obtain ⟨listed, bound, decided, reads⟩ := offered
  refine ⟨standard.names _ listed, bound, ?_, reads, ?_⟩
  · intro operation member
    apply standard.permits
    intro denied
    have decision := decided operation member
    rw [denied] at decision
    rcases decision with decision | decision <;> cases decision
  · rintro ⟨operation, member, changes⟩
    apply asked
    rcases decided operation member with allowed | ask
    · exact absurd (standard.allows operation allowed) changes
    · exact Or.inr ⟨operation, member, ask⟩

/--
Any number of threads execute workflows and single agents over the standard
registry and cancel them, in any interleaving, with any bindings of native
tools.  A native tool is only entered as one of the read-only tools, or for the
coder as the tool that writes or deletes a file.  All its operations are reads,
or for the coder writes and deletions; in a read-only task they are reads.  A
tool that does more than read is entered only right after the host approved
this very call.  No tool is entered that runs a command, uses the network or
changes a repository.
-/
theorem standard_agents_confined
    {Thread : Type} [DecidableEq Thread] {parts : OrchestratorParts}
    (standard : parts.registry = makeRegistry)
    {past since : List (ThreadEvent Thread HostCall OrchestratorReturn agents)}
    {thread : Thread} {name : String} {arguments : Json} {run : NativeRun}
    {system : Threads Thread OrchestratorReturn (Memory Thread) agents}
    (execution : Execution (Threads.Step memoryOf (hostBody parts))
      (Threads.idle {})
      (past ++ .performs thread ⟨.enterTool name arguments, run⟩ :: since)
      system) :
    ∃ call history profile, Threads.current past thread = some (call, history) ∧
      stageProfile history = some profile ∧
        ∃ binding ∈ (parts.runtimes profile).bindings,
          (∃ definition confirms,
            binding.tool = some (definition, confirms) ∧
              definition.name = name) ∧
            Confined profile (constraintsOf call) history binding name
              arguments := by
  obtain ⟨call, history, next, atCall, runs⟩ :=
    Threads.call_of_performs execution
  have gated := ((hostBody_gated parts call).records runs).2.1
  obtain ⟨profile, waited, atStage, _, binding, member, definition, confirms,
    bound, rfl, offered, asked⟩ := gated trivial
  obtain ⟨id, known⟩ := find_of_mem_awaited waited
  rw [standard] at known
  exact ⟨call, history, profile, atCall, atStage, binding, member,
    ⟨definition, confirms, bound, rfl⟩,
    confined_of_offered (standard_of_find known) offered asked⟩

/-! ## A coder that writes -/

/-- Runtimes of the standard agents with one tool that writes. -/
def writingAgents : OrchestratorParts where
  registry := makeRegistry
  hasFactory := true
  json := .knowing []
  runtimes _ :=
    { hasProvider := true
      apiKey := "key"
      model := "model"
      bindings :=
        [{ tool :=
             some
               ({ name := kWriteFileTool
                  description := ""
                  parameterSchema := .null },
                 false)
           operations := [.writeFile] }] }

/-- A provider that asks for one write. -/
def asksToWrite : (op : AgentOp) → agents.Answer op
  | .startTurn _ =>
      .ok
        { ok := true
          toolCalls :=
            [{ id := "call_1", name := kWriteFileTool, arguments := .null }] }
  | op => quiet op

/-- The coder, up to the point where the approved write is entered. -/
def writingRun :
    Threads.Played Caller HostCall OrchestratorReturn (Memory Caller) agents :=
  Threads.play (scheduled fun _ _ => asksToWrite) (hostBody writingAgents) {}
    (.starts .executor (.executeAgent coderId
        { id := "t", objective := "Fix it", workingDirectory := "/w" }
        false false true) ::
      List.replicate 33 (.continues .executor))

/-- The event enters the tool that writes. -/
def entersWrite : ThreadEvent Caller HostCall OrchestratorReturn agents → Bool
  | .performs .executor ⟨.enterTool name _, _⟩ => name = kWriteFileTool
  | _ => false

theorem exists_of_entersWrite
    {log : List (ThreadEvent Caller HostCall OrchestratorReturn agents)}
    (last : log.getLast?.any entersWrite = true) :
    ∃ past arguments run,
      log = past ++
        [.performs .executor ⟨.enterTool kWriteFileTool arguments, run⟩] := by
  obtain ⟨event, ends, enters⟩ := (Option.any_eq_true _ _).mp last
  obtain ⟨past, rfl⟩ := List.getLast?_eq_some_iff.mp ends
  unfold entersWrite at enters
  split at enters
  · rename_i name arguments run
    obtain rfl : name = kWriteFileTool := of_decide_eq_true enters
    exact ⟨past, arguments, run, rfl⟩
  · cases enters

theorem standard_agents_confined_writingRun :
    ∃ past arguments run,
      writingRun.log = past ++
          [.performs .executor ⟨.enterTool kWriteFileTool arguments, run⟩] ∧
        ∃ call history profile,
          Threads.current past .executor = some (call, history) ∧
            stageProfile history = some profile ∧
              ∃ binding ∈ (writingAgents.runtimes profile).bindings,
                (∃ definition confirms,
                  binding.tool = some (definition, confirms) ∧
                    definition.name = kWriteFileTool) ∧
                  Confined profile (constraintsOf call) history binding
                    kWriteFileTool arguments := by
  obtain ⟨past, arguments, run, written⟩ :=
    exists_of_entersWrite (show writingRun.log.getLast?.any entersWrite = true
      by decide +kernel)
  have execution : Execution (Threads.Step memoryOf (hostBody writingAgents))
      (Threads.idle {}) writingRun.log writingRun.system :=
    Threads.play_execution (scheduled_performs fun _ _ => asksToWrite) _
  exact ⟨past, arguments, run, written,
    standard_agents_confined rfl (written ▸ execution)⟩

end ArnCore.Agent.StandardAgents
