import ArnCore.Agent.RuntimeProtocol

/-!
# The course of an execution

An execution during which nothing throws is refused at a check, or takes one
course: it opens a session, attaches it, prompts it, detaches it, resets it,
reads its flag and closes.  Only the prompt is of unknown length.
-/

namespace ArnCore.Agent.ExecutionCourse

open ArnCore.Interaction
open ArnCore.Provider
open ArnCore.Tool
open ArnCore.Agent.Environment
open ArnCore.Agent.ExposedTools
open ArnCore.Agent.PromptDiscipline
open ArnCore.Agent.RuntimeOutline
open ArnCore.Agent.RuntimeProtocol

/-! ## Calm histories -/

/-- Nothing threw. -/
def Calm (history : List AgentEvent) : Prop :=
  ∀ event ∈ history, ¬ Throws event

theorem Calm.append_iff {first later : List AgentEvent} :
    Calm (first ++ later) ↔ Calm first ∧ Calm later :=
  List.forall_mem_append

theorem Calm.cons_iff {event : AgentEvent} {later : List AgentEvent} :
    Calm (event :: later) ↔ ¬ Throws event ∧ Calm later :=
  List.forall_mem_cons

/-- An observer that was owed an exception has seen one. -/
theorem threw_of_watch
    {history : List AgentEvent} {seen : Watch}
    (threw : (history.foldl watch seen).threw) :
    seen.threw ∨ ∃ event ∈ history, Throws event := by
  induction history generalizing seen with
  | nil => exact Or.inl threw
  | cons event later induction =>
      rcases induction threw with (earlier | now) | ⟨other, member, throws⟩
      · exact Or.inl earlier
      · exact Or.inr ⟨event, List.mem_cons_self, now⟩
      · exact Or.inr ⟨other, List.mem_cons_of_mem _ member, throws⟩

/-- A disciplined action that is not thrown out of returns. -/
theorem Disciplined.returns
    {Locals Value : Type} {action : Action agents Locals Value}
    {locals after : Locals} {history : List AgentEvent}
    {outcome : Except Exception Value}
    (disciplined : Disciplined action)
    (run : Action.Finishes action locals history outcome after)
    (calm : Calm history) :
    (∃ value, outcome = .ok value) ∧
      ∀ event ∈ history, InPrompt event.op := by
  obtain ⟨checked, owed⟩ :=
    (disciplined locals ⟨False, False⟩).runs (Program.runs_done_iff.mpr run)
  constructor
  · cases outcome with
    | ok value => exact ⟨value, rfl⟩
    | error failure =>
        rcases threw_of_watch (owed failure rfl) with ⟨⟨⟩⟩ | ⟨event, member, threw⟩
        exact absurd threw (calm event member)
  · intro event member
    obtain ⟨before, after, split⟩ := List.append_of_mem member
    exact (checked before event after split).1

/-! ## The parts of an execution -/

def asking (model : String) (capabilities : ModelCapabilities) :
    List AgentEvent :=
  [⟨.lock .session, ()⟩, ⟨.modelCapabilities model, .ok capabilities⟩,
    ⟨.unlock .session, ()⟩]

def resetting : List AgentEvent :=
  [⟨.lock .session, ()⟩, ⟨.resetProvider, .ok ()⟩, ⟨.unlock .session, ()⟩]

def attaching : List AgentEvent :=
  [⟨.lock .runtime, ()⟩, ⟨.publish .activeSession, ()⟩,
    ⟨.publish .activeCancel, ()⟩, ⟨.unlock .runtime, ()⟩]

def detaching : List AgentEvent :=
  [⟨.lock .runtime, ()⟩, ⟨.clear .activeSession, ()⟩,
    ⟨.clear .activeCancel, ()⟩, ⟨.unlock .runtime, ()⟩]

/-- What precedes the attachment of the session. -/
def opening (model : String) (capabilities : ModelCapabilities) :
    List AgentEvent :=
  ⟨.exchange .runtimeExecuting true, false⟩ :: ⟨.construct .session, ()⟩ ::
    (asking model capabilities ++ resetting ++
      [⟨.construct .cancelled, ()⟩, ⟨.store .cancelled false, ()⟩])

/-- The flag is read unless the session already reported a cancellation. -/
def checking (result : ApiResult) (stop : Bool) : List AgentEvent :=
  if result.cancelled then [] else [⟨.load .cancelled, stop⟩]

/-- What follows the last check. -/
def closing : List AgentEvent :=
  [⟨.destroy .cancelled, ()⟩, ⟨.destroy .session, ()⟩,
    ⟨.store .runtimeExecuting false, ()⟩]

/-- The result of an execution whose session returned. -/
def conclusion (profile : AgentProfile) (result : ApiResult) (stop : Bool)
    (permission : PermissionOutcome) : AgentResult :=
  if result.cancelled || stop then
    { status := .cancelled, summary := "Execution cancelled." }
  else if !result.ok then
    failure "session_failed" result.message
  else if permission.needsConfirmation then
    failure "confirmation_required"
      "A tool requires a confirmation handler." .needsConfirmation
  else if permission.declined then
    failure "permission_denied" "A tool operation was declined."
  else
    { status := .completed
      summary := result.message
      artifacts :=
        [{ type := .generic
           producer := profile.id
           content := result.message }] }

section Parts

variable {apiKey model : String} {bindings : List NativeBinding}
  {registry : ToolRegistry agents PermissionOutcome}
  {config : AgentConfig} {attached text progress : Bool}
  {history : List AgentEvent} {locals after : PermissionOutcome}

theorem modelCapabilities_course
    {outcome : Except Exception ModelCapabilities}
    (run : Action.Finishes
      (promptedSession apiKey model bindings attached config
        registry).modelCapabilities locals history outcome after)
    (calm : Calm history) :
    ∃ capabilities, history = asking model capabilities ∧
      outcome = .ok capabilities ∧ after = locals := by
  obtain ⟨inner, rfl, asked⟩ := finishes_guarded.mp run
  obtain ⟨⟨answer, later, rfl, rfl, rfl⟩, rfl⟩ :=
    Action.finishes_ofHost.mp asked
  cases answer with
  | ok capabilities => exact ⟨capabilities, rfl, rfl, rfl⟩
  | error failure =>
      exact absurd trivial (calm ⟨.modelCapabilities model, .error failure⟩
        (List.mem_cons_of_mem _ List.mem_cons_self))

theorem resetSession_course
    {outcome : Except Exception Unit}
    (run : Action.Finishes
      (promptedSession apiKey model bindings attached config
        registry).resetSession locals history outcome after)
    (calm : Calm history) :
    history = resetting ∧ outcome = .ok () ∧ after = locals := by
  obtain ⟨inner, rfl, reset⟩ := finishes_guarded.mp run
  obtain ⟨⟨answer, later, rfl, rfl, rfl⟩, rfl⟩ :=
    Action.finishes_ofHost.mp reset
  cases answer with
  | ok value => exact ⟨rfl, rfl, rfl⟩
  | error failure =>
      exact absurd trivial (calm ⟨.resetProvider, .error failure⟩
        (List.mem_cons_of_mem _ List.mem_cons_self))

/-- A critical section of two pointer operations. -/
theorem finishes_pair
    {Locals : Type} {locals after : Locals} {first second : AgentOp}
    {rest : agents.Answer first → Action agents Locals
      (agents.Answer second)}
    {outcome : Except Exception (agents.Answer second)}
    (same : ∀ answer, rest answer = Action.ofHost (always second))
    (run : Action.Finishes
      ((mutex .runtime).guarded (Action.ofHost (always first) >>= rest))
      locals history outcome after) :
    ∃ answer last,
      history = [⟨.lock .runtime, ()⟩, ⟨first, answer⟩, ⟨second, last⟩,
        ⟨.unlock .runtime, ()⟩] ∧
      outcome = .ok last ∧ after = locals := by
  obtain ⟨inner, rfl, both⟩ := finishes_guarded.mp run
  obtain ⟨answer, later, rfl, rest⟩ := finishes_always_bind.mp both
  rw [same] at rest
  obtain ⟨last, rfl, rfl, rfl⟩ := finishes_always.mp rest
  exact ⟨answer, last, rfl, rfl, rfl⟩

/-- `SessionGuard::finish` -/
theorem finish_course
    {outcome : Except Exception Unit}
    (run : Action.Finishes
      ((anyRuntime true apiKey model bindings).finish
        (promptedSession apiKey model bindings attached config registry))
      locals history outcome after)
    (calm : Calm history) :
    history = detaching ++ resetting ∧ outcome = .ok () ∧
      after = locals := by
  rcases Action.finishes_bind.mp run with
    ⟨failure, rfl, detached⟩ |
      ⟨first, later, value, between, rfl, detached, reset⟩
  · obtain ⟨_, _, rfl, returned, _⟩ := finishes_pair (fun _ => rfl) detached
    cases returned
  · obtain ⟨⟨⟩, ⟨⟩, rfl, _, rfl⟩ := finishes_pair (fun _ => rfl) detached
    obtain ⟨rfl, rfl, rfl⟩ :=
      resetSession_course reset (Calm.append_iff.mp calm).2
    exact ⟨rfl, rfl, rfl⟩

/-- The session was attached, prompted, detached and reset. -/
structure Prompts (apiKey model : String) (bindings : List NativeBinding)
    (attached text progress : Bool) (config : AgentConfig)
    (registry : ToolRegistry agents PermissionOutcome) (input : String)
    (prompted : List AgentEvent) (result : ApiResult)
    (permission : PermissionOutcome) : Prop where
  inPrompt : ∀ event ∈ prompted, InPrompt event.op
  run : Action.Finishes
    ((promptedSession apiKey model bindings attached config
      registry).prompt (hostCallbacks text progress) (callerFlag true)
      input) {} prompted (.ok result) permission

/-- The attached part of an execution, up to the explicit detachment. -/
theorem attempt_course
    {json : JsonText} {context : AgentContext} {input : String}
    {outcome : Except Exception ApiResult}
    (native : OfNativeTools registry)
    (serialized : json.dump (promptJson context) = .ok input)
    (run : Action.Finishes
      (do
        (mutex .runtime).guarded do
          Action.ofHost (pointer .activeSession).publish
          Action.ofHost (pointer .activeCancel).publish
        let input ← Action.ofExcept (json.dump (promptJson context))
        let result ←
          (promptedSession apiKey model bindings attached config
            registry).prompt (hostCallbacks text progress)
            (some (flag .cancelled).load) input
        (anyRuntime true apiKey model bindings).finish
          (promptedSession apiKey model bindings attached config registry)
        pure result)
      {} history outcome after)
    (calm : Calm history) :
    ∃ prompted result,
      history = attaching ++ prompted ++ (detaching ++ resetting) ∧
      outcome = .ok result ∧
      Prompts apiKey model bindings attached text progress config registry
        input prompted result after := by
  rcases Action.finishes_bind.mp run with
    ⟨failure, rfl, published⟩ |
      ⟨first, later, value, between, rfl, published, run⟩
  · obtain ⟨_, _, rfl, returned, _⟩ := finishes_pair (fun _ => rfl) published
    cases returned
  · obtain ⟨⟨⟩, ⟨⟩, rfl, _, rfl⟩ := finishes_pair (fun _ => rfl) published
    rw [serialized, Action.finishes_ofExcept_bind] at run
    have calmPrompt := (Calm.append_iff.mp calm).2
    rcases Action.finishes_bind.mp run with
      ⟨failure, rfl, prompts⟩ |
        ⟨prompted, rest, result, between, rfl, prompts, run⟩
    · obtain ⟨⟨_, returned⟩, _⟩ := Disciplined.returns
        (prompt_disciplined native config input) prompts calmPrompt
      cases returned
    · have calmRest := Calm.append_iff.mp calmPrompt
      obtain ⟨_, inPrompt⟩ := Disciplined.returns
        (prompt_disciplined native config input) prompts calmRest.1
      rcases Action.finishes_bind.mp run with
        ⟨failure, rfl, finished⟩ |
          ⟨ending, nothing, value, _, rfl, finished, returned⟩
      · obtain ⟨_, returned, _⟩ := finish_course finished calmRest.2
        cases returned
      · obtain ⟨rfl, _, rfl⟩ := finish_course finished
          (Calm.append_iff.mp calmRest.2).1
        obtain ⟨rfl, rfl, rfl⟩ := Action.finishes_pure.mp returned
        exact ⟨prompted, result, by simp [attaching], rfl, inPrompt, prompts⟩

/-- The attached part of an execution whose context can be serialized. -/
theorem promptAttached_course
    {json : JsonText} {context : AgentContext} {input : String}
    {outcome : Except Exception ApiResult}
    (native : OfNativeTools registry)
    (serialized : json.dump (promptJson context) = .ok input)
    (run : Action.Finishes
      ((anyRuntime true apiKey model bindings).promptAttached json
        (promptedSession apiKey model bindings attached config registry)
        (hostCallbacks text progress) context)
      {} history outcome after)
    (calm : Calm history) :
    ∃ prompted result,
      history = attaching ++ prompted ++ (detaching ++ resetting) ∧
      outcome = .ok result ∧
      Prompts apiKey model bindings attached text progress config registry
        input prompted result after := by
  rcases Action.finishes_tryCatch.mp run with
    ⟨result, rfl, returned⟩ |
      ⟨first, later, failure, between, rfl, threw, _⟩
  · exact attempt_course native serialized returned calm
  · obtain ⟨_, _, _, returned, _⟩ := attempt_course native serialized threw
      (Calm.append_iff.mp calm).1
    cases returned

theorem conclude_course
    {profile : AgentProfile} {result : ApiResult}
    {outcome : Except Exception AgentResult}
    (run : Action.Finishes
      ((anyRuntime true apiKey model bindings).conclude profile result)
      locals history outcome after) :
    ∃ stop, history = checking result stop ∧
      outcome = .ok (conclusion profile result stop locals) := by
  have concluded : ∀ (stop : Bool) (history : List AgentEvent),
      Action.Finishes
        (if stop then
          pure { status := .cancelled, summary := "Execution cancelled." }
        else if result.ok then do
          let permission ← get
          if permission.needsConfirmation then
            pure (failure "confirmation_required"
              "A tool requires a confirmation handler." .needsConfirmation)
          else if permission.declined then
            pure (failure "permission_denied"
              "A tool operation was declined.")
          else
            pure
              { status := .completed
                summary := result.message
                artifacts :=
                  [{ type := .generic
                     producer := profile.id
                     content := result.message }] }
        else
          pure (failure "session_failed" result.message))
        locals history outcome after →
      history = [] ∧
        outcome = .ok (conclusion profile { result with cancelled := false }
          stop locals) := by
    intro stop history run
    unfold conclusion
    cases stop with
    | true =>
        obtain ⟨rfl, rfl, _⟩ := Action.finishes_pure.mp run
        exact ⟨rfl, rfl⟩
    | false =>
        cases ok : result.ok with
        | false =>
            simp only [ok, Bool.false_eq_true, if_false] at run
            obtain ⟨rfl, rfl, _⟩ := Action.finishes_pure.mp run
            exact ⟨rfl, rfl⟩
        | true =>
            simp only [ok, Bool.false_eq_true, if_false, if_true,
              Action.finishes_get_bind] at run
            simp only [Bool.or_self, Bool.false_eq_true, if_false,
              Bool.not_true]
            split at run
            · rename_i needs
              obtain ⟨rfl, rfl, _⟩ := Action.finishes_pure.mp run
              exact ⟨rfl, by rw [if_pos needs]⟩
            · rename_i needless
              rw [if_neg needless]
              split at run
              · rename_i declined
                obtain ⟨rfl, rfl, _⟩ := Action.finishes_pure.mp run
                exact ⟨rfl, by rw [if_pos declined]⟩
              · rename_i approved
                obtain ⟨rfl, rfl, _⟩ := Action.finishes_pure.mp run
                exact ⟨rfl, by rw [if_neg approved]⟩
  cases cancelled : result.cancelled with
  | true =>
      unfold AgentRuntime.conclude at run
      simp only [cancelled, if_true] at run
      obtain ⟨rfl, rfl⟩ := concluded true history run
      refine ⟨false, ?_, ?_⟩
      · simp [checking, cancelled]
      · simp [conclusion, cancelled]
  | false =>
      unfold AgentRuntime.conclude at run
      simp only [cancelled, Bool.false_eq_true, if_false] at run
      obtain ⟨stop, later, rfl, rest⟩ := finishes_always_bind.mp run
      obtain ⟨rfl, rfl⟩ := concluded stop later rest
      refine ⟨stop, ?_, ?_⟩
      · simp [checking, cancelled]
      · simp [conclusion, cancelled]

end Parts

/-! ## Whole executions -/

/-- The checks an execution has to pass before it attaches a session. -/
inductive Refused (hasProvider : Bool) (apiKey model : String)
    (bindings : List NativeBinding) (context : AgentContext)
    (history : List AgentEvent) : AgentResult → Prop where
  | runtimeBusy
      (executing : ⟨.exchange .runtimeExecuting true, true⟩ ∈ history) :
      Refused hasProvider apiKey model bindings context history busy
  | invalidTask (invalid : context.task.valid = false) :
      Refused hasProvider apiKey model bindings context history
        (failure "invalid_task"
          "Task requires an ID, objective, working directory and positive budget.")
  | invalidProfile
      (invalid : hasText context.profile.id = false ∨
        context.profile.maxSteps = 0) :
      Refused hasProvider apiKey model bindings context history
        (failure "invalid_profile"
          "Profile requires an ID and positive budget.")
  | invalidBudget (exceeds : stepBudget context > 2 ^ 31 - 1) :
      Refused hasProvider apiKey model bindings context history
        (failure "invalid_budget"
          "Step budget exceeds the supported session range.")
  | invalidEnvironment
      (missing : hasProvider = false ∨ apiKey = "" ∨ model = "") :
      Refused hasProvider apiKey model bindings context history
        (failure "invalid_environment"
          "An explicit provider, credential and model are required.")
  | invalidTools
      (invalid : exposeTools context.profile context.task.constraints
        (anyRuntime hasProvider apiKey model bindings).tools [] {} = none) :
      Refused hasProvider apiKey model bindings context history
        (failure "invalid_tools"
          "Tool bindings must be non-null with unique non-empty names.")
  | modelIncompatible (registry : ToolRegistry agents PermissionOutcome)
      (capabilities : ModelCapabilities)
      (exposed : exposeTools context.profile context.task.constraints
        (anyRuntime hasProvider apiKey model bindings).tools [] {} =
          some registry)
      (answered : ⟨.modelCapabilities model, .ok capabilities⟩ ∈ history)
      (lacks : capabilities.supportsSystemInstruction = false ∨
        (registry.empty = false ∧ capabilities.supportsTools = false)) :
      Refused hasProvider apiKey model bindings context history
        (failure "model_incompatible"
          "Configured model cannot support the required system instructions or exposed tools.")

theorem Refused.mono
    {hasProvider : Bool} {apiKey model : String}
    {bindings : List NativeBinding} {context : AgentContext}
    {history longer : List AgentEvent} {result : AgentResult}
    (refused : Refused hasProvider apiKey model bindings context history
      result)
    (contained : history ⊆ longer) :
    Refused hasProvider apiKey model bindings context longer result := by
  cases refused with
  | runtimeBusy executing => exact .runtimeBusy (contained executing)
  | invalidTask invalid => exact .invalidTask invalid
  | invalidProfile invalid => exact .invalidProfile invalid
  | invalidBudget exceeds => exact .invalidBudget exceeds
  | invalidEnvironment missing => exact .invalidEnvironment missing
  | invalidTools invalid => exact .invalidTools invalid
  | modelIncompatible registry capabilities exposed answered lacks =>
      exact .modelIncompatible registry capabilities exposed
        (contained answered) lacks

/-- The course of an execution that attached its session and prompted it. -/
inductive Course (apiKey model : String) (bindings : List NativeBinding)
    (context : AgentContext) (input : String)
    (text progress attached : Bool) :
    List AgentEvent → AgentResult → Prop where
  | completes {capabilities : ModelCapabilities}
      {registry : ToolRegistry agents PermissionOutcome}
      {prompted : List AgentEvent} {result : ApiResult}
      {permission : PermissionOutcome} (stop : Bool)
      (exposed : exposeTools context.profile context.task.constraints
        (anyRuntime true apiKey model bindings).tools [] {} = some registry)
      (prompts : Prompts apiKey model bindings attached text progress
        (sessionConfig context) registry input prompted result permission) :
      Course apiKey model bindings context input text progress attached
        (opening model capabilities ++ attaching ++ prompted ++ detaching ++
          resetting ++ checking result stop ++ closing)
        (conclusion context.profile result stop permission)

section Whole

variable {apiKey model : String} {bindings : List NativeBinding}
  {json : JsonText} {context : AgentContext} {input : String}
  {attached text progress : Bool} {history : List AgentEvent}

/-- From the construction of the session to the result. -/
theorem runSession_course
    {registry : ToolRegistry agents PermissionOutcome}
    {after : PermissionOutcome} {outcome : Except Exception AgentResult}
    (exposed : exposeTools context.profile context.task.constraints
      (anyRuntime true apiKey model bindings).tools [] {} = some registry)
    (serialized : json.dump (promptJson context) = .ok input)
    (run : Action.Finishes
      ((anyRuntime true apiKey model bindings).runSession json registry
        context (hostCallbacks text progress) (hostHandler attached))
      {} history outcome after)
    (calm : Calm history) :
    (∃ capabilities,
      ⟨.modelCapabilities model, .ok capabilities⟩ ∈ history ∧
      (capabilities.supportsSystemInstruction = false ∨
        (registry.empty = false ∧ capabilities.supportsTools = false)) ∧
      ⟨.publish .activeCancel, ()⟩ ∉ history ∧
      outcome = .ok (failure "model_incompatible"
        "Configured model cannot support the required system instructions or exposed tools.")) ∨
    ∃ capabilities prompted result permission stop,
      ⟨.exchange .runtimeExecuting true, false⟩ ::
          (history ++ [⟨.store .runtimeExecuting false, ()⟩]) =
        opening model capabilities ++ attaching ++ prompted ++ detaching ++
          resetting ++ checking result stop ++ closing ∧
      outcome = .ok (conclusion context.profile result stop permission) ∧
      Prompts apiKey model bindings attached text progress
        (sessionConfig context) registry input prompted result permission := by
  have native := ofNativeTools_exposed exposed
  obtain ⟨inner, rfl, body⟩ := finishes_scoped.mp run
  have calmBody := (Calm.append_iff.mp (Calm.cons_iff.mp calm).2).1
  rcases Action.finishes_bind.mp body with
    ⟨failure, rfl, asked⟩ |
      ⟨first, later, capabilities, between, rfl, asked, rest⟩
  · obtain ⟨_, _, returned, _⟩ := modelCapabilities_course asked calmBody
    cases returned
  · have calmRest := Calm.append_iff.mp calmBody
    obtain ⟨_, rfl, returned, rfl⟩ :=
      modelCapabilities_course asked calmRest.1
    cases returned
    split at rest
    · rename_i lacks
      obtain ⟨rfl, rfl, _⟩ := Action.finishes_pure.mp rest
      refine Or.inl ⟨capabilities, by simp [asking], ?_, nofun, rfl⟩
      simpa using lacks
    · refine Or.inr ?_
      rcases Action.finishes_bind.mp rest with
        ⟨failure, rfl, reset⟩ |
          ⟨again, last, value, between, rfl, reset, remaining⟩
      · obtain ⟨_, returned, _⟩ := resetSession_course reset calmRest.2
        cases returned
      · have calmScope := Calm.append_iff.mp calmRest.2
        obtain ⟨rfl, _, rfl⟩ := resetSession_course reset calmScope.1
        obtain ⟨flagged, rfl, created⟩ := finishes_scoped.mp remaining
        obtain ⟨⟨⟩, attempt, rfl, attempted⟩ :=
          finishes_always_bind.mp created
        have calmAttempt := (Calm.cons_iff.mp (Calm.append_iff.mp
          (Calm.cons_iff.mp calmScope.2).2).1).2
        rcases Action.finishes_bind.mp attempted with
          ⟨failure, rfl, threw⟩ |
            ⟨prompting, ending, result, permission, rfl, prompts,
              concluded⟩
        · obtain ⟨_, _, _, returned, _⟩ :=
            promptAttached_course native serialized threw calmAttempt
          cases returned
        · obtain ⟨prompted, _, rfl, returned, course⟩ :=
            promptAttached_course native serialized prompts
              (Calm.append_iff.mp calmAttempt).1
          cases returned
          obtain ⟨stop, rfl, rfl⟩ := conclude_course concluded
          refine ⟨capabilities, prompted, result, permission, stop, ?_, rfl,
            course⟩
          simp [opening, closing]

/-- An execution that nothing throws at is refused or takes its course. -/
theorem executeContext_course
    {hasProvider : Bool} {outcome : Except Exception AgentResult}
    (serialized : json.dump (promptJson context) = .ok input)
    (run : Action.Finishes
      ((anyRuntime hasProvider apiKey model bindings).executeContext json
        context (hostCallbacks text progress) (hostHandler attached) :
          Action agents Unit AgentResult)
      () history outcome ())
    (calm : Calm history) :
    ∃ result, outcome = .ok result ∧
      ((Refused hasProvider apiKey model bindings context history result ∧
          ⟨.publish .activeCancel, ()⟩ ∉ history) ∨
        (hasProvider = true ∧
          Course apiKey model bindings context input text progress attached
            (⟨.exchange .runtimeExecuting true, false⟩ ::
              (history ++ [⟨.store .runtimeExecuting false, ()⟩]))
            result)) := by
  unfold AgentRuntime.executeContext at run
  split at run
  · rename_i invalid
    obtain ⟨rfl, rfl, _⟩ := Action.finishes_pure.mp run
    exact ⟨_, rfl, Or.inl ⟨.invalidTask (by simpa using invalid), nofun⟩⟩
  · split at run
    · rename_i invalid
      obtain ⟨rfl, rfl, _⟩ := Action.finishes_pure.mp run
      exact ⟨_, rfl,
        Or.inl ⟨.invalidProfile (by simpa using invalid), nofun⟩⟩
    · split at run
      · rename_i exceeds
        obtain ⟨rfl, rfl, _⟩ := Action.finishes_pure.mp run
        exact ⟨_, rfl, Or.inl ⟨.invalidBudget exceeds, nofun⟩⟩
      · split at run
        · rename_i missing
          obtain ⟨rfl, rfl, _⟩ := Action.finishes_pure.mp run
          refine ⟨_, rfl, Or.inl ⟨.invalidEnvironment ?_, nofun⟩⟩
          cases hasProvider with
          | false => exact Or.inl rfl
          | true => exact Or.inr (by simpa [anyRuntime] using missing)
        · rename_i present
          split at run
          · rename_i invalid
            obtain ⟨rfl, rfl, _⟩ := Action.finishes_pure.mp run
            exact ⟨_, rfl, Or.inl ⟨.invalidTools invalid, nofun⟩⟩
          · rename_i registry exposed
            cases hasProvider with
            | false => simp [anyRuntime] at present
            | true =>
                obtain ⟨_, permission, session⟩ :=
                  Action.finishes_withLocals.mp run
                rcases runSession_course exposed serialized session calm with
                  ⟨capabilities, answered, lacks, silent, rfl⟩ |
                    ⟨capabilities, prompted, result, permission, stop, same,
                      rfl, prompts⟩
                · exact ⟨_, rfl, Or.inl ⟨.modelIncompatible registry
                    capabilities exposed answered lacks, silent⟩⟩
                · refine ⟨_, rfl, Or.inr ⟨rfl, ?_⟩⟩
                  rw [same]
                  exact .completes stop exposed prompts

/-- A call of `execute` that nothing throws at. -/
theorem execute_course
    {hasProvider : Bool} {value : RuntimeReturn}
    (serialized : json.dump (promptJson context) = .ok input)
    (run : (body hasProvider apiKey model bindings
      (.execute json context text progress attached)).Finishes history value)
    (calm : Calm history) :
    ∃ result, value = .executed (.ok result) ∧
      ((Refused hasProvider apiKey model bindings context history result ∧
          ⟨.publish .activeCancel, ()⟩ ∉ history) ∨
        (hasProvider = true ∧
          Course apiKey model bindings context input text progress attached
            history result)) := by
  obtain ⟨all, _, ⟨outcome, ⟨⟩⟩, rfl, executed, rfl, rfl⟩ :=
    Program.finishes_bind_iff.mp run
  rw [List.append_nil] at calm ⊢
  obtain ⟨refused, later, rfl, rest⟩ := finishes_always_bind.mp executed
  cases refused with
  | true =>
      obtain ⟨rfl, rfl, _⟩ := Action.finishes_pure.mp rest
      exact ⟨busy, rfl, Or.inl ⟨.runtimeBusy List.mem_cons_self, nofun⟩⟩
  | false =>
      obtain ⟨inner, last, between, released, rfl, caught, opened⟩ :=
        Action.finishes_scopeGuard.mp rest
      obtain ⟨⟨⟩, rfl, _, rfl⟩ := finishes_always.mp opened
      have calmInner :=
        (Calm.append_iff.mp (Calm.cons_iff.mp calm).2).1
      rcases Action.finishes_tryCatch.mp caught with
        ⟨result, rfl, returned⟩ |
          ⟨first, handling, failure, between, rfl, threw, _⟩
      · obtain ⟨_, same, ends⟩ :=
          executeContext_course serialized returned calmInner
        cases same
        refine ⟨result, rfl, ?_⟩
        rcases ends with ⟨refused, silent⟩ | course
        · refine Or.inl ⟨refused.mono fun event member => ?_, ?_⟩
          · exact List.mem_cons_of_mem _ (List.mem_append_left _ member)
          · rintro (_ | ⟨_, member⟩)
            rcases List.mem_append.mp member with inside | last
            · exact silent inside
            · exact absurd last nofun
        · exact Or.inr course
      · obtain ⟨_, same, _⟩ := executeContext_course serialized threw
          (Calm.append_iff.mp calmInner).1
        cases same

end Whole

end ArnCore.Agent.ExecutionCourse
