import ArnCore.Interaction.Action
import ArnCore.Interaction.Completion
import ArnCore.Interaction.Ownership
import Mathlib.Order.WellFounded

/-!
# Deadlock freedom by lock order

Locks are ordered, and a program takes a lock only while all locks it holds are
smaller.  A thread that waits for a lock then waits for a thread which, if it
waits itself, waits for a greater lock.  Where the order has no infinite
ascending chain, some thread inside a call can always make a step.
-/

namespace ArnCore.Interaction.LockOrder

open ArnCore.Interaction.Ownership

variable {signature : Signature} {Lock Thread Call Value Shared : Type}

/-- What an operation does to the locks. -/
inductive LockUse (Lock : Type) where
  | takes (lock : Lock)
  | frees (lock : Lock)
  | neither

/-! ## Programs that keep the order -/

section Programs

variable [DecidableEq Lock] (uses : signature.Op → LockUse Lock)

/-- The locks a program holds after an event. -/
def after (held : Lock → Bool) (event : Event signature) : Lock → Bool :=
  match uses event.op with
  | .takes lock => Function.update held lock true
  | .frees lock => Function.update held lock false
  | .neither => held

/-- A lock is taken above all locks that are held, and freed while it is. -/
def Ordered [LT Lock] (held : Lock → Bool) (op : signature.Op) : Prop :=
  match uses op with
  | .takes lock => ∀ other, held other = true → other < lock
  | .frees lock => held lock = true
  | .neither => True

/-- Nothing is held. -/
def nothing : Lock → Bool := fun _ => false

/-- An action that keeps the order and ends with the locks it started with. -/
abbrev Keeps [LT Lock] {Locals : Type} (held : Lock → Bool)
    (action : Action signature Locals Value) : Prop :=
  Action.Leads (after uses) (Ordered uses) (· = held) (· = held) action

variable {uses} {Locals : Type} {held : Lock → Bool} {lock : Lock}

theorem after_takes
    {event : Event signature} (takes : uses event.op = .takes lock) :
    after uses held event = Function.update held lock true := by
  simp only [after, takes]

theorem after_frees
    {event : Event signature} (frees : uses event.op = .frees lock) :
    after uses held event = Function.update held lock false := by
  simp only [after, frees]

theorem after_neither
    {event : Event signature} (neither : uses event.op = .neither) :
    after uses held event = held := by
  simp only [after, neither]

/-- An action that uses no lock. -/
theorem keeps_of_neither
    [LT Lock] {action : Action signature Locals Value}
    (safe : Action.Safe (monitored (after uses))
      (fun _ op => uses op = .neither) action) :
    Keeps uses held action := by
  refine .of_safe safe ?_ ?_
  · intro state op neither _
    simp only [Ordered, neither]
  · rintro state event neither rfl
    exact after_neither neither

theorem keeps_pure [LT Lock] (value : Value) :
    Keeps uses held (pure value : Action signature Locals Value) :=
  .pure (fun _ same => same) value

theorem keeps_bind
    [LT Lock] {Result : Type} {action : Action signature Locals Value}
    {continuation : Value → Action signature Locals Result}
    (first : Keeps uses held action)
    (rest : ∀ value, Keeps uses held (continuation value)) :
    Keeps uses held (action >>= continuation) :=
  .bind first rest fun _ same => same

/-- Freeing a lock that was not held before it was taken. -/
theorem leads_frees
    [LT Lock] (op : signature.Op) (frees : uses op = .frees lock)
    (free : held lock = false) :
    Action.Leads (after uses) (Ordered uses)
      (· = Function.update held lock true) (· = held)
      (Action.perform op : Action signature Locals _) := by
  rintro locals state rfl
  apply Action.holds_perform.mpr
  constructor
  · simp only [Ordered, frees, Function.update_self]
  · rintro answer reached rfl
    rw [after_frees frees, Function.update_idem, ← free,
      Function.update_eq_self]

/-- A critical section of a lock above all locks that are held. -/
theorem keeps_section
    [Preorder Lock] (op : signature.Op) {body : Action signature Locals Value}
    {release : Action signature Locals Unit}
    (takes : uses op = .takes lock)
    (above : ∀ other, held other = true → other < lock)
    (runs : Keeps uses (Function.update held lock true) body)
    (frees : held lock = false → Action.Leads (after uses) (Ordered uses)
      (· = Function.update held lock true) (· = held) release) :
    Keeps uses held
      (Action.perform op >>= fun _ => Action.scopeGuard body release) := by
  rintro locals state rfl
  apply Action.holds_bind.mpr
  apply Action.holds_perform.mpr
  constructor
  · simp only [Ordered, takes]
    exact above
  · rintro answer reached rfl
    have free : state lock = false := by
      by_contra held
      exact lt_irrefl lock (above lock (by simpa using held))
    exact (runs.scopeGuard (frees free)) locals _ (after_takes takes)

end Programs

/-! ## Threads that share the locks -/

section Locks

variable {uses : signature.Op → LockUse Lock}
  {worlds : Thread → World signature Shared}
  {holder : Shared → Lock → Option Thread}

/-- The shared state knows the holder of each lock, and only locks block. -/
structure Guards [DecidableEq Lock] (uses : signature.Op → LockUse Lock)
    (worlds : Thread → World signature Shared)
    (holder : Shared → Lock → Option Thread) : Prop where
  takes : ∀ {thread shared op lock answer after},
    (worlds thread).perform shared op answer after → uses op = .takes lock →
      holder shared lock = none ∧
        holder after = Function.update (holder shared) lock (some thread)
  frees : ∀ {thread shared op lock answer after},
    (worlds thread).perform shared op answer after → uses op = .frees lock →
      holder after = Function.update (holder shared) lock none
  neither : ∀ {thread shared op answer after},
    (worlds thread).perform shared op answer after → uses op = .neither →
      holder after = holder shared
  ready : ∀ thread shared op,
    (∀ lock, uses op = .takes lock → holder shared lock = none) →
      ∃ answer after, (worlds thread).perform shared op answer after

/-- The next operation of the thread takes a lock that another one holds. -/
def WaitsFor (uses : signature.Op → LockUse Lock)
    (holder : Shared → Lock → Option Thread)
    (system : Threads Thread Value Shared signature) (thread : Thread)
    (lock : Lock) : Prop :=
  ∃ op next, system.running thread = some (.call op next) ∧
    uses op = .takes lock ∧ holder system.shared lock ≠ none

variable [DecidableEq Lock] [DecidableEq Thread]
  {program : Call → Program signature Value} {shared : Shared}
  {log : List (ThreadEvent Thread Call Value signature)}
  {system : Threads Thread Value Shared signature}

/-- The thread is inside a call and can go on with it. -/
def CanStep (worlds : Thread → World signature Shared)
    (program : Call → Program signature Value)
    (system : Threads Thread Value Shared signature) (thread : Thread) :
    Prop :=
  system.running thread ≠ none ∧
    ∃ event after, event.thread = thread ∧
      Threads.Step worlds program system event after

/-- A thread inside a call waits for a lock or can go on. -/
theorem waits_or_canStep
    (guards : Guards uses worlds holder) {thread : Thread}
    (inCall : system.running thread ≠ none) :
    (∃ lock, WaitsFor uses holder system thread lock) ∨
      CanStep worlds program system thread := by
  cases runs : system.running thread with
  | none => exact absurd runs inCall
  | some rest =>
      cases rest with
      | done value =>
          exact Or.inr ⟨inCall, _, _, rfl, .returns thread runs⟩
      | call op next =>
          by_cases free : ∀ lock, uses op = .takes lock →
              holder system.shared lock = none
          · obtain ⟨answer, after, performed⟩ :=
              guards.ready thread system.shared op free
            exact Or.inr ⟨inCall, _, _, rfl, .performs thread runs performed⟩
          · obtain ⟨lock, blocked⟩ := not_forall.mp free
            obtain ⟨takes, taken⟩ := Classical.not_imp.mp blocked
            exact Or.inl ⟨lock, op, next, runs, takes, taken⟩

variable [Preorder Lock]

/-- Every call keeps the order and returns without a lock. -/
def Verified (uses : signature.Op → LockUse Lock)
    (program : Call → Program signature Value) : Prop :=
  ∀ call, (program call).Holds (monitored (after uses)) (Ordered uses)
    (fun held _ => held = nothing) nothing

/-- The locks each thread holds. -/
abbrev holding (uses : signature.Op → LockUse Lock)
    (log : List (ThreadEvent Thread Call Value signature)) :
    Thread → Option (Lock → Bool) :=
  Threads.phases (fun _ => nothing) (after uses) log

/-- The holder of a lock is the thread that has taken and not freed it. -/
def Accounts (holder : Shared → Lock → Option Thread)
    (phases : Thread → Option (Lock → Bool)) (shared : Shared) : Prop :=
  ∀ lock, HeldBy (fun held : Lock → Bool => held lock) phases
    (holder shared lock)

/-- A step of one thread keeps the account of the locks. -/
theorem Accounts.performs
    (guards : Guards uses worlds holder)
    {phases : Thread → Option (Lock → Bool)} {before next : Shared}
    {thread : Thread} {phase : Lock → Bool} {op : signature.Op}
    {answer : signature.Answer op}
    (accounts : Accounts holder phases before)
    (atPhase : phases thread = some phase)
    (allowed : Ordered uses phase op)
    (performed : (worlds thread).perform before op answer next) :
    Accounts holder
      (Function.update phases thread (some (after uses phase ⟨op, answer⟩)))
      next := by
  intro lock
  have held := accounts lock
  cases used : uses op with
  | neither =>
      rw [after_neither used, guards.neither performed used]
      refine held.kept ?_
      rw [atPhase]
  | takes other =>
      obtain ⟨free, taken⟩ := guards.takes performed used
      rw [after_takes used, taken]
      by_cases same : lock = other
      · subst same
        rw [free] at held
        rw [Function.update_self]
        exact held.taken (Function.update_self ..)
      · rw [Function.update_of_ne same]
        refine held.kept ?_
        simp [atPhase, Function.update_of_ne same]
  | frees other =>
      simp only [Ordered, used] at allowed
      rw [after_frees used, guards.frees performed used]
      by_cases same : lock = other
      · subst same
        rw [Function.update_self]
        exact held.released ⟨phase, atPhase, allowed⟩
          (Function.update_self ..)
      · rw [Function.update_of_ne same]
        refine held.kept ?_
        simp [atPhase, Function.update_of_ne same]

theorem accounts
    (guards : Guards uses worlds holder) (verified : Verified uses program)
    (unheld : ∀ lock, holder shared lock = none)
    (execution : Execution (Threads.Step worlds program)
      (Threads.idle shared) log system) :
    Accounts holder (holding uses log) system.shared := by
  refine Threads.invariant verified ?_ ?_ ?_ ?_ execution
  · intro lock
    rw [unheld lock]
    exact .idle
  · intro phases shared thread call accounts idle lock
    refine (accounts lock).kept ?_
    simp [idle, nothing]
  · intro phases shared thread phase op answer next accounts atPhase allowed
      performed
    exact accounts.performs guards atPhase allowed performed
  · rintro phases shared thread phase value accounts atPhase rfl lock
    refine (accounts lock).kept ?_
    simp [atPhase, nothing]

/-- The holder of a lock, if it waits, waits for a greater one. -/
theorem holder_waits_above
    (guards : Guards uses worlds holder) (verified : Verified uses program)
    (unheld : ∀ lock, holder shared lock = none)
    (execution : Execution (Threads.Step worlds program)
      (Threads.idle shared) log system)
    {lock : Lock} {owner : Thread}
    (held : holder system.shared lock = some owner) :
    system.running owner ≠ none ∧
      ∀ other, WaitsFor uses holder system owner other → lock < other := by
  obtain ⟨phase, atPhase, holds⟩ :=
    (accounts guards verified unheld execution lock owner).mp held
  constructor
  · intro idle
    rw [holding, Threads.phases_of_idle execution idle] at atPhase
    cases atPhase
  · rintro other ⟨op, next, runs, takes, -⟩
    obtain ⟨current, found, ordered⟩ :=
      Threads.allowed_of_performs verified execution runs
    cases found.symm.trans atPhase
    simp only [Ordered, takes] at ordered
    exact ordered lock holds

/-- Where some thread is inside a call, some thread inside a call can go on. -/
theorem exists_canStep
    [WellFoundedGT Lock]
    (guards : Guards uses worlds holder) (verified : Verified uses program)
    (unheld : ∀ lock, holder shared lock = none)
    (execution : Execution (Threads.Step worlds program)
      (Threads.idle shared) log system)
    {thread : Thread} (inCall : system.running thread ≠ none) :
    ∃ other, CanStep worlds program system other := by
  have waiting : ∀ lock, ∀ thread,
      WaitsFor uses holder system thread lock →
        ∃ other, CanStep worlds program system other := by
    intro lock
    -- The locks that are waited for ascend along the chain of holders.
    induction lock using WellFoundedGT.induction with
    | ind lock induction =>
        rintro thread ⟨op, next, runs, takes, taken⟩
        obtain ⟨owner, held⟩ := Option.ne_none_iff_exists'.mp taken
        obtain ⟨ownerInCall, above⟩ :=
          holder_waits_above guards verified unheld execution held
        rcases waits_or_canStep guards ownerInCall with ⟨other, waits⟩ | steps
        · exact induction other (above other waits) owner waits
        · exact ⟨owner, steps⟩
  rcases waits_or_canStep guards inCall with ⟨lock, waits⟩ | steps
  · exact waiting lock thread waits
  · exact ⟨thread, steps⟩

/-- All calls can be brought to return. -/
theorem calls_complete
    [WellFoundedGT Lock]
    (guards : Guards uses worlds holder) (verified : Verified uses program)
    (unheld : ∀ lock, holder shared lock = none)
    (execution : Execution (Threads.Step worlds program)
      (Threads.idle shared) log system) :
    ∃ more after,
      Execution (Threads.Step worlds program) (Threads.idle shared)
          (log ++ more) after ∧
        (∀ thread call, .calls thread call ∉ more) ∧
        ∀ thread, after.running thread = none := by
  refine Threads.completes ?_ execution
  intro log system reached thread inCall
  obtain ⟨other, running, event, after, rfl, step⟩ :=
    exists_canStep guards verified unheld reached inCall
  exact ⟨after, event, step, running⟩

end Locks

end ArnCore.Interaction.LockOrder
