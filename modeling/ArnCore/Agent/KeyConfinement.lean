import ArnCore.Agent.AlikeEnvironment

/-!
# The API key stays with the provider

With another key an environment that answers in the same way sees the same
operations, apart from the arguments in which a provider is given the key and
the headers in which a built-in provider sends it.  So no prompt, history, tool,
callback, artifact, result or error carries anything of the key.
-/

namespace ArnCore.Agent.KeyConfinement

open ArnCore.Agent.AlikeAgents
open ArnCore.Agent.AlikeEnvironment
open ArnCore.Agent.Environment
open ArnCore.Agent.LockDiscipline
open ArnCore.Agent.OrchestratorProtocol
open ArnCore.Agent.SharedMemory
open ArnCore.Agent.WorkflowCancellation
open ArnCore.Agent.WorkflowProtocol
open ArnCore.Agent.WorkflowSteps
open ArnCore.Interaction
open ArnCore.Net
open ArnCore.Provider
open ArnCore.Tool

/-! ## What may depend on the key -/

/-- The headers in which the built-in providers send their key. -/
def isCredential (header : String × String) : Bool :=
  header.1 = "Authorization" || header.1 = "x-goog-api-key"

/-- The headers without the values of the credentials. -/
def withoutCredentials (headers : List (String × String)) :
    List (String × String) :=
  headers.map fun header =>
    if isCredential header then (header.1, "") else header

/-- Operations that differ in what is meant to carry the key only. -/
inductive SameButKey : AgentOp → AgentOp → Prop where
  | same (op : AgentOp) : SameButKey op op
  | startTurn (request : StartTurn) (apiKey : String) :
      SameButKey (.startTurn request)
        (.startTurn { request with apiKey := apiKey })
  | continueTurn (request : ContinueTurn) (apiKey : String) :
      SameButKey (.continueTurn request)
        (.continueTurn { request with apiKey := apiKey })
  | send (request : HttpRequest) (headers : List (String × String))
      (same : withoutCredentials request.headers =
        withoutCredentials headers) :
      SameButKey (.send request) (.send { request with headers := headers })

/-- The same answers, and the same exceptions. -/
def sameButKey : Likeness agents where
  ops := SameButKey
  answers _ _ answer other := HEq answer other
  failures := Eq

theorem sameButKey_exact : sameButKey.Exact where
  ops := .same
  answers _ _ _ same := eq_of_heq same
  failures _ := rfl

/-- Corresponding operations are answered in the same way. -/
theorem sameButKey_answerable : sameButKey.Answerable := by
  intro op other answer same
  cases same with
  | same => exact ⟨answer, HEq.rfl⟩
  | startTurn request apiKey => exact ⟨answer, HEq.rfl⟩
  | continueTurn request apiKey => exact ⟨answer, HEq.rfl⟩
  | send request headers same => exact ⟨answer, HEq.rfl⟩

/-- The shared memory has nothing to do with the key. -/
theorem sameButKey_blind {Thread : Type} :
    Threads.Blind sameButKey (memoryOf : Thread → _) := by
  rintro thread before op answer after other ⟨answers, rfl⟩ same
  cases same with
  | same => exact ⟨answer, HEq.rfl, answers, rfl⟩
  | startTurn request apiKey => exact ⟨answer, HEq.rfl, trivial, rfl⟩
  | continueTurn request apiKey => exact ⟨answer, HEq.rfl, trivial, rfl⟩
  | send request headers same => exact ⟨answer, HEq.rfl, trivial, rfl⟩

/-- A call of the environment whose operations correspond. -/
theorem ask_alike
    {Value : Type} {op other : AgentOp}
    {first : agents.Answer op → Except Exception Value}
    {second : agents.Answer other → Except Exception Value}
    (same : SameButKey op other)
    (returned : ∀ answer reply, HEq answer reply →
      first answer = second reply) :
    Host.Alike sameButKey Eq
      (ExceptT.mk (.call op fun answer => .done (first answer)))
      (ExceptT.mk (.call other fun reply => .done (second reply))) := by
  refine ⟨same, fun answer reply answered => ?_⟩
  rw [Program.Alike, returned answer reply answered]
  cases second reply with
  | ok value => exact .returns rfl
  | error failure => exact .throws rfl

/-! ## Workflows -/

/-- A provider is given its key with every turn. -/
theorem anyProvider_alike (apiKey otherKey : String) :
    ProvidersAlike sameButKey apiKey otherKey
      (anyProvider : IModelProvider agents PermissionOutcome)
      anyProvider where
  modelCapabilities _ := .refl sameButKey_exact (fun _ => rfl) _
  startTurn _ _ _ _ _ _ _ _ :=
    .ofHost (ask_alike (.startTurn _ otherKey)
      fun _ _ same => eq_of_heq same)
  continueTurn _ _ _ _ _ _ _ _ :=
    .ofHost (ask_alike (.continueTurn _ otherKey)
      fun _ _ same => eq_of_heq same)
  trimHistory _ := .refl sameButKey_exact (fun _ => rfl) _
  cancelActiveRequest := .refl sameButKey_exact (fun _ => rfl) _
  resetSession := .refl sameButKey_exact (fun _ => rfl) _

/-- What is returned is the same, exceptions included. -/
theorem ReturnsAlike.eq
    {returned other : OrchestratorReturn}
    (alike : ReturnsAlike sameButKey returned other) : returned = other := by
  cases alike with
  | executed result => rfl
  | agentExecuted result => rfl
  | cancelled alike =>
      cases alike with
      | returns same => rw [same]
      | throws same => rw [show _ = _ from same]

theorem hostBody_sameButKey
    {parts : OrchestratorParts} {keys : AgentProfile → String}
    (keyed : ∀ profile, (parts.runtimes profile).apiKey = "" ↔
      keys profile = "") (call : HostCall) :
    (hostBody parts call).Alike sameButKey Eq
      (hostBody (withKeys parts keys) call) := by
  have environment : EnvironmentAlike sameButKey fun _ _ => True :=
    environmentAlike_of_exact sameButKey_exact
      fun apiKey otherKey _ => anyProvider_alike apiKey otherKey
  exact (hostBody_alike environment keyed (fun _ => trivial)
    (fun _ => trivial) call).mono fun _ _ => ReturnsAlike.eq

/--
Any number of threads execute workflows and single agents on one orchestrator
and cancel them, in any interleaving.  With other keys for the runtimes, which
are missing where the keys were, the same interleaving is possible: the same
calls return the same results, and the operations in between are the same, with
the same answers, except that turns of a provider are given the other key.
-/
theorem executions_confine_keys
    {Thread : Type} [DecidableEq Thread] {parts : OrchestratorParts}
    {keys : AgentProfile → String}
    {log : List (ThreadEvent Thread HostCall OrchestratorReturn agents)}
    {system : Threads Thread OrchestratorReturn (Memory Thread) agents}
    (keyed : ∀ profile, (parts.runtimes profile).apiKey = "" ↔
      keys profile = "")
    (execution : Execution (Threads.Step memoryOf (hostBody parts))
      (Threads.idle {}) log system) :
    ∃ matching after,
      Execution (Threads.Step memoryOf (hostBody (withKeys parts keys)))
          (Threads.idle {}) matching after ∧
        List.Forall₂ (Threads.Entries sameButKey Eq) log matching ∧
        after.shared = system.shared ∧
        ∀ thread, system.running thread = none ↔
          after.running thread = none := by
  obtain ⟨matching, after, reached, entries, shared, running⟩ :=
    Threads.exists_execution sameButKey_blind (hostBody_sameButKey keyed)
      execution
  exact ⟨matching, after, reached, entries, shared,
    fun thread => (running thread).idle_iff⟩

/-- The keys that were given to a first turn. -/
def keysGiven :
    List (ThreadEvent Caller HostCall OrchestratorReturn agents) → List String
  | [] => []
  | .performs _ ⟨.startTurn request, _⟩ :: log =>
      request.apiKey :: keysGiven log
  | _ :: log => keysGiven log

/-- An agent whose first turn is given the key, and which then returns. -/
def keyedRun :
    Threads.Played Caller HostCall OrchestratorReturn (Memory Caller) agents :=
  Threads.play (scheduled fun _ _ => quiet) (hostBody fourRuntimes) {}
    (.starts .executor (.executeAgent "explorer"
        { id := "t", objective := "Fix it", workingDirectory := "/w" }
        false false false) ::
      List.replicate 60 (.continues .executor))

theorem executions_confine_keys_keyedRun :
    keysGiven keyedRun.log = ["key"] ∧
      ∃ matching after,
        Execution
            (Threads.Step memoryOf
              (hostBody (withKeys fourRuntimes fun _ => "other")))
            (Threads.idle {}) matching after ∧
          List.Forall₂ (Threads.Entries sameButKey Eq) keyedRun.log
            matching ∧
          after.shared = keyedRun.system.shared ∧
          ∀ thread, keyedRun.system.running thread = none ↔
            after.running thread = none :=
  ⟨by decide +kernel,
    executions_confine_keys
      (fun _ => show "key" = "" ↔ "other" = "" by decide)
      (Threads.play_execution (scheduled_performs fun _ _ => quiet) _)⟩

end ArnCore.Agent.KeyConfinement
