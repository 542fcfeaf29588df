import ArnCore.Agent.EnvironmentSteps
import ArnCore.Agent.ExposedTools

/-!
# Proof outlines of the runtime

A condition on `AgentRuntime::execute` is stated by an assertion for every
point that an execution passes.  The session is detached by the guard of the
source or by its destructor, and either way the history is reset once more; the
prompt itself is a single step of the outline.
-/

namespace ArnCore.Agent.RuntimeOutline

open ArnCore.Interaction
open ArnCore.Provider
open ArnCore.Tool
open ArnCore.Agent.Environment
open ArnCore.Agent.EnvironmentSteps
open ArnCore.Agent.ExposedTools

/-- Where an execution stands between two of its calls. -/
inductive Point where
  | entering
  | refused
  | claimed
  | opened
  | asked
  | emptied
  | flagged
  | lowered
  | attached
  | prompted
  | detached
  | finished
  | closing
  | closed
  | released

/-- What follows the exchange at the gate. -/
def Point.entered (busy : Bool) : Point :=
  if busy then .refused else .claimed

/-! ## The configuration of an execution -/

/-- A context whose budget passes the checks of an execution. -/
structure Accepted (context : AgentContext) : Prop where
  task : context.task.valid = true
  profile : context.profile.maxSteps ≠ 0
  budget : stepBudget context ≤ 2 ^ 31 - 1

/-- A budget that is accepted allows a turn. -/
theorem Accepted.pos
    {context : AgentContext} (accepted : Accepted context) :
    0 < stepBudget context := by
  have task := accepted.task
  have profile := accepted.profile
  rw [AgentTask.valid, Bool.and_eq_true] at task
  have steps := task.2
  unfold TaskConstraints.stepsValid at steps
  unfold stepBudget
  cases limit : context.task.constraints.maxSteps with
  | none => simp; omega
  | some limit' =>
      rw [limit] at steps
      simp at steps ⊢
      omega

/-- The configuration of the session of an execution. -/
def sessionConfig (context : AgentContext) : AgentConfig where
  maxToolRounds := (stepBudget context : Int) - 1
  systemInstruction := systemInstruction context.profile

/-! ## Outlines -/

variable {State : Type}

/-- The triples of an execution past its checks. -/
abbrev SessionTriple {Value : Type} (world : World agents State)
    (allowed : State → AgentOp → Prop) (before : State → Prop)
    (action : Action agents PermissionOutcome Value)
    (after : Except Exception Value → State → Prop) : Prop :=
  Triple world allowed before action after

/-- The session of the provider under its mutex. -/
def provided {Value : Type} (action : Action agents PermissionOutcome Value) :
    Action agents PermissionOutcome Value :=
  (mutex .session).guarded action

/-- An operation on the session, when the states of an observer are known. -/
theorem provided_at
    {observe : State → AgentEvent → State} {allowed : State → AgentOp → Prop}
    {start : State} {Value : Type} (op : AgentOp)
    {next : agents.Answer op → Except Exception Value}
    {after : Except Exception Value → State → Prop}
    (locks : allowed start (.lock .session))
    (enters : observe start ⟨.lock .session, ()⟩ = start)
    (permitted : allowed start op)
    (unlocks : ∀ answer,
      allowed (observe start ⟨op, answer⟩) (.unlock .session))
    (leaves : ∀ answer, after (next answer)
      (observe (observe start ⟨op, answer⟩) ⟨.unlock .session, ()⟩)) :
    SessionTriple (monitored observe) allowed (· = start)
      (provided (Action.ofHost (.call op fun answer => .done (next answer))))
      after := by
  rintro locals _ rfl
  apply Action.holds_bind.mpr
  apply (holds_op (.lock .session)).mpr
  refine ⟨locks, ?_⟩
  rintro ⟨⟩ locked rfl
  rw [enters]
  apply Action.holds_scopeGuard.mpr
  refine ⟨permitted, ?_⟩
  rintro answer reached rfl
  refine ⟨unlocks answer, ?_⟩
  rintro ⟨⟩ unlocked rfl
  exact leaves answer

/-- The pointers to the session and to the flag under their mutex. -/
def assigned (assign : Pointer agents → Host agents Unit) :
    Action agents PermissionOutcome Unit :=
  (mutex .runtime).guarded do
    Action.ofHost (assign (pointer .activeSession))
    Action.ofHost (assign (pointer .activeCancel))

/-- The conditions on the calls of an execution. -/
structure ExecutionOutline (world : World agents State)
    (allowed : State → AgentOp → Prop) (hasProvider : Bool)
    (apiKey model : String) (bindings : List NativeBinding) (json : JsonText)
    (context : AgentContext) (text progress attached : Bool)
    (assertion : Point → State → Prop) : Prop where
  claims : Step world allowed (assertion .entering)
    (.exchange .runtimeExecuting true) fun busy => assertion (.entered busy)
  refuses : ∀ state, assertion .claimed state → assertion .closed state
  opens : Step world allowed (assertion .claimed) (.construct .session)
    fun _ => assertion .opened
  asks : SessionTriple world allowed (assertion .opened)
    (provided (Action.ofHost (ask (.modelCapabilities model))))
    fun outcome => assertion
      (match outcome with
      | .ok _ => .asked
      | .error _ => .closing)
  incompatible : ∀ state, assertion .asked state → assertion .closing state
  empties : SessionTriple world allowed (assertion .asked)
    (provided (Action.ofHost (ask .resetProvider)))
    fun outcome => assertion
      (match outcome with
      | .ok _ => .emptied
      | .error _ => .closing)
  flags : Step world allowed (assertion .emptied) (.construct .cancelled)
    fun _ => assertion .flagged
  lowers : Step world allowed (assertion .flagged) (.store .cancelled false)
    fun _ => assertion .lowered
  attaches : SessionTriple world allowed (assertion .lowered)
    (assigned Pointer.publish) (Returning fun _ => assertion .attached)
  prompts : Accepted context → ∀ registry input,
    exposeTools context.profile context.task.constraints
        (anyRuntime hasProvider apiKey model bindings).tools [] {} =
      some registry →
    json.dump (promptJson context) = .ok input →
      SessionTriple world allowed (assertion .attached)
        ((promptedSession apiKey model bindings attached
          (sessionConfig context) registry).prompt
            (hostCallbacks text progress) (callerFlag true) input)
        fun _ => assertion .prompted
  unprompted : ∀ state, assertion .attached state → assertion .prompted state
  detaches : SessionTriple world allowed (assertion .prompted)
    (assigned Pointer.clear) (Returning fun _ => assertion .detached)
  resets : SessionTriple world allowed (assertion .detached)
    (provided (Action.ofHost (ask .resetProvider)))
    fun _ => assertion .finished
  again : ∀ state, assertion .finished state → assertion .prompted state
  checks : Step world allowed (assertion .finished) (.load .cancelled)
    fun _ => assertion .finished
  unflags : Step world allowed (assertion .finished) (.destroy .cancelled)
    fun _ => assertion .closing
  closes : Step world allowed (assertion .closing) (.destroy .session)
    fun _ => assertion .closed
  releases : Step world allowed (assertion .closed)
    (.store .runtimeExecuting false) fun _ => assertion .released

namespace ExecutionOutline

variable {world : World agents State} {allowed : State → AgentOp → Prop}
  {hasProvider : Bool} {apiKey model : String} {bindings : List NativeBinding}
  {json : JsonText} {context : AgentContext} {text progress attached : Bool}
  {assertion : Point → State → Prop}
  (outline : ExecutionOutline world allowed hasProvider apiKey model
    bindings json context text progress attached assertion)

include outline

/-- `SessionGuard::finish` -/
theorem finish
    (config : AgentConfig) (registry : ToolRegistry agents PermissionOutcome) :
    SessionTriple world allowed (assertion .prompted)
      ((anyRuntime true apiKey model bindings).finish
        (promptedSession apiKey model bindings attached config registry))
      fun _ => assertion .finished :=
  outline.detaches.bind fun _ => outline.resets

variable (accepted : Accepted context)
  {registry : ToolRegistry agents PermissionOutcome}
  (exposed : exposeTools context.profile context.task.constraints
    (anyRuntime hasProvider apiKey model bindings).tools [] {} = some registry)

include accepted exposed

/-- The prompt of an attached session, up to the explicit detachment. -/
theorem attempt :
    SessionTriple world allowed (assertion .lowered)
      (do
        assigned Pointer.publish
        let input ← Action.ofExcept (json.dump (promptJson context))
        let result ←
          (promptedSession apiKey model bindings attached
            (sessionConfig context) registry).prompt
              (hostCallbacks text progress) (callerFlag true) input
        (anyRuntime true apiKey model bindings).finish
          (promptedSession apiKey model bindings attached
            (sessionConfig context) registry)
        pure result)
      fun outcome => assertion
        (match outcome with
        | .ok _ => .finished
        | .error _ => .prompted) := by
  refine outline.attaches.bind fun _ => ?_
  cases serialized : json.dump (promptJson context) with
  | error failure => exact fun _ state => outline.unprompted state
  | ok input =>
      refine (outline.prompts accepted registry input exposed
        serialized).sequence (fun result => ?_) fun _ _ found => found
      refine (outline.finish _ registry).sequence (fun _ => ?_)
        fun _ state found => outline.again state found
      exact fun _ _ found => found

/-- However the prompt is left, the session is detached and reset. -/
theorem promptAttached :
    SessionTriple world allowed (assertion .lowered)
      ((anyRuntime true apiKey model bindings).promptAttached json
        (promptedSession apiKey model bindings attached
          (sessionConfig context) registry)
        (hostCallbacks text progress) context)
      fun _ => assertion .finished := by
  refine (outline.attempt accepted exposed).onException
    (fun _ _ found => found) fun failure => ?_
  exact (outline.finish _ registry).tryCatch (fun _ _ found => found)
    fun _ => fun _ _ found => found

omit accepted exposed in
theorem conclude (profile : AgentProfile) (result : ApiResult) :
    SessionTriple world allowed (assertion .finished)
      ((anyRuntime true apiKey model bindings).conclude profile result)
      fun _ => assertion .finished := by
  have stays : ∀ value : AgentResult, SessionTriple world allowed
      (assertion .finished) (pure value) fun _ => assertion .finished :=
    fun _ _ _ found => found
  have reads : SessionTriple world allowed (assertion .finished)
      (if result.cancelled then pure true
        else Action.ofHost (flag .cancelled).load)
      (Returning fun _ => assertion .finished) := by
    split
    · exact fun _ _ found => found
    · exact triple_always outline.checks
  refine reads.bind fun stop => ?_
  split
  · exact stays _
  · split
    · refine Triple.get.bind fun permission => ?_
      split_ifs <;> exact stays _
    · exact stays _

/-- From the construction of the flag to its destruction. -/
theorem flagged :
    SessionTriple world allowed (assertion .emptied)
      ((lifetime .cancelled).scoped (do
        Action.ofHost ((flag .cancelled).store false)
        let result ← (anyRuntime true apiKey model bindings).promptAttached
          json
          (promptedSession apiKey model bindings attached
            (sessionConfig context) registry)
          (hostCallbacks text progress) context
        (anyRuntime true apiKey model bindings).conclude context.profile
          result))
      fun _ => assertion .closing := by
  refine triple_scoped outline.flags ?_ fun _ => outline.unflags
  refine (triple_always outline.lowers).bind fun _ => ?_
  exact (outline.promptAttached accepted exposed).sequence
    (outline.conclude context.profile) fun _ _ found => found

theorem runSession :
    SessionTriple world allowed (assertion .claimed)
      ((anyRuntime true apiKey model bindings).runSession json registry
        context (hostCallbacks text progress) (hostHandler attached))
      fun _ => assertion .closed := by
  refine triple_scoped outline.opens ?_ fun _ => outline.closes
  refine outline.asks.sequence (fun capabilities => ?_) fun _ _ found => found
  show SessionTriple world allowed (assertion .asked) (if _ then _ else _) _
  split
  · exact fun _ => outline.incompatible
  · refine outline.empties.sequence (fun _ => ?_) fun _ _ found => found
    exact outline.flagged accepted exposed

omit accepted exposed in
theorem executeContext {Locals : Type} :
    Triple world allowed (assertion .claimed)
      ((anyRuntime hasProvider apiKey model bindings).executeContext json
        context (hostCallbacks text progress) (hostHandler attached) :
        Action agents Locals AgentResult)
      fun _ => assertion .closed := by
  unfold AgentRuntime.executeContext
  split_ifs with badTask badProfile badBudget noEnvironment
  · exact fun _ => outline.refuses
  · exact fun _ => outline.refuses
  · exact fun _ => outline.refuses
  · exact fun _ => outline.refuses
  · split
    · exact fun _ => outline.refuses
    · rename_i registry known
      cases hasProvider with
      | false => simp [anyRuntime] at noEnvironment
      | true =>
          rw [Bool.not_eq_true', Bool.not_eq_false] at badTask
          rw [Bool.or_eq_true, decide_eq_true_eq, not_or] at badProfile
          have accepted : Accepted context :=
            ⟨badTask, badProfile.2, Nat.le_of_not_lt badBudget⟩
          exact (outline.runSession accepted known).withLocals

omit accepted exposed in
/-- An execution is refused at the gate, or it returns and opens the gate. -/
theorem execute {Locals : Type} :
    Triple world allowed (assertion .entering)
      ((anyRuntime hasProvider apiKey model bindings).execute json context
        (hostCallbacks text progress) (hostHandler attached) :
        Action agents Locals AgentResult)
      (Returning fun result state =>
        (result = failure "runtime_busy"
          "This runtime is already executing a task." ∧
            assertion .refused state) ∨
          assertion .released state) := by
  refine (triple_always outline.claims).bind fun busy => ?_
  cases busy with
  | true => exact fun _ _ refused => Or.inl ⟨rfl, refused⟩
  | false =>
      have returns : Triple world allowed (assertion .claimed)
          (tryCatch
            ((anyRuntime hasProvider apiKey model bindings).executeContext json
              context (hostCallbacks text progress) (hostHandler attached) :
              Action agents Locals AgentResult)
            fun _ => pure (failure "execution_exception"
              "Execution failed in the provider, tool or callback."))
          (Returning fun _ => assertion .closed) :=
        outline.executeContext.tryCatch (fun _ _ found => found)
          fun _ => fun _ _ found => found
      refine returns.guard fun _ => ?_
      exact (triple_always outline.releases).imp (by
        rintro (failure | ⟨⟩) state found
        · exact found
        · exact Or.inr found)

end ExecutionOutline

/-! ## A condition that only the prompt changes -/

/-- Everything but turns, callbacks and tools. -/
def Outside : AgentOp → Prop
  | .startTurn _ => False
  | .continueTurn _ => False
  | .trimHistory _ => False
  | .onText _ => False
  | .onProgress _ => False
  | .confirm _ => False
  | .enterTool _ _ => False
  | _ => True

/-- One condition up to the prompt, and one behind it. -/
def uniform (idle done : State → Prop) : Point → State → Prop
  | .prompted => done
  | .detached => done
  | .finished => done
  | .closing => done
  | .closed => done
  | .released => done
  | _ => idle

section Uniform

variable {world : World agents State} {allowed : State → AgentOp → Prop}
  {keeps idle done : State → Prop}

theorem provided_uniform
    {Value : Type} (op : AgentOp)
    {next : agents.Answer op → Except Exception Value}
    (steps : ∀ op, Outside op → Step world allowed keeps op fun _ => keeps)
    (outside : Outside op) :
    SessionTriple world allowed keeps
      (provided (Action.ofHost (.call op fun answer => .done (next answer))))
      fun _ => keeps :=
  triple_section (steps _ trivial) (triple_ask (steps op outside))
    fun _ => steps _ trivial

theorem assigned_uniform
    (steps : ∀ op, Outside op → Step world allowed keeps op fun _ => keeps) :
    SessionTriple world allowed keeps (assigned Pointer.publish)
        (Returning fun _ => keeps) ∧
      SessionTriple world allowed keeps (assigned Pointer.clear)
        (Returning fun _ => keeps) :=
  ⟨triple_assigned (steps _ trivial) (steps (.publish .activeSession) trivial)
      (steps (.publish .activeCancel) trivial) (steps _ trivial),
    triple_assigned (steps _ trivial) (steps (.clear .activeSession) trivial)
      (steps (.clear .activeCancel) trivial) (steps _ trivial)⟩

/-- An execution whose operations outside the prompt keep both conditions. -/
theorem uniform_outline
    {hasProvider : Bool} {apiKey model : String}
    {bindings : List NativeBinding} {json : JsonText}
    {context : AgentContext} {text progress attached : Bool}
    (idles : ∀ op, Outside op → Step world allowed idle op fun _ => idle)
    (stays : ∀ op, Outside op → Step world allowed done op fun _ => done)
    (ends : ∀ state, idle state → done state)
    (prompts : Accepted context → ∀ registry input,
      exposeTools context.profile context.task.constraints
          (anyRuntime hasProvider apiKey model bindings).tools [] {} =
        some registry →
      json.dump (promptJson context) = .ok input →
        SessionTriple world allowed idle
          ((promptedSession apiKey model bindings attached
            (sessionConfig context) registry).prompt
              (hostCallbacks text progress) (callerFlag true) input)
          fun _ => done) :
    ExecutionOutline world allowed hasProvider apiKey model bindings json
      context text progress attached (uniform idle done) where
  claims := by
    intro state before
    have exchanged := idles (.exchange .runtimeExecuting true) trivial state
      before
    refine ⟨exchanged.1, ?_⟩
    rintro (_ | _) reached performed
    · exact exchanged.2 false reached performed
    · exact exchanged.2 true reached performed
  refuses := ends
  opens := idles _ trivial
  asks := by
    apply (provided_uniform (.modelCapabilities model) idles trivial).imp
    rintro (failure | capabilities) state found
    · exact ends state found
    · exact found
  incompatible := ends
  empties := by
    apply (provided_uniform .resetProvider idles trivial).imp
    rintro (failure | ⟨⟩) state found
    · exact ends state found
    · exact found
  flags := idles _ trivial
  lowers := idles _ trivial
  attaches := (assigned_uniform idles).1
  prompts := prompts
  unprompted := ends
  detaches := (assigned_uniform stays).2
  resets := provided_uniform .resetProvider stays trivial
  again _ found := found
  checks := stays _ trivial
  unflags := stays _ trivial
  closes := stays _ trivial
  releases := stays _ trivial

end Uniform

end ArnCore.Agent.RuntimeOutline
