import ArnCore.Agent.Environment
import ArnCore.Interaction.Threads

/-!
# The shared memory of the agent layer

What the threads share: the atomic flags, the mutexes, the published pointers
and the local objects that pointers may refer to.  A pointer is known by the
thread whose object it refers to.  The answers of all other operations are
left open.
-/

namespace ArnCore.Agent.SharedMemory

open ArnCore.Interaction
open ArnCore.Agent.Environment

variable {Thread : Type}

structure Memory (Thread : Type) where
  flags : Flag → Bool := fun _ => false
  holder : MutexName → Option Thread := fun _ => none
  pointers : PointerName → Option Thread := fun _ => none
  alive : ObjectName → Option Thread := fun _ => none

namespace Memory

/-- The answers an operation may receive; a mutex is taken when it is free. -/
def Answers (memory : Memory Thread) :
    (op : AgentOp) → agents.Answer op → Prop
  | .load flag, value => value = memory.flags flag
  | .exchange flag _, value => value = memory.flags flag
  | .lock mutex, _ => memory.holder mutex = none
  | .present pointer, found => found = (memory.pointers pointer).isSome
  | _, _ => True

/-- What an operation of a thread does to the memory. -/
def update (memory : Memory Thread) (thread : Thread) : AgentOp → Memory Thread
  | .store flag value =>
      { memory with flags := Function.update memory.flags flag value }
  | .exchange flag value =>
      { memory with flags := Function.update memory.flags flag value }
  | .lock mutex =>
      { memory with
        holder := Function.update memory.holder mutex (some thread) }
  | .unlock mutex =>
      { memory with holder := Function.update memory.holder mutex none }
  | .publish pointer =>
      { memory with
        pointers := Function.update memory.pointers pointer (some thread) }
  | .clear pointer =>
      { memory with
        pointers := Function.update memory.pointers pointer none }
  | .construct object =>
      { memory with
        alive := Function.update memory.alive object (some thread) }
  | .destroy object =>
      { memory with alive := Function.update memory.alive object none }
  | _ => memory

/-- Closing a closed gate changes nothing. -/
theorem update_exchange_self
    {memory : Memory Thread} {gate : Flag} {value : Bool}
    (thread : Thread) (same : memory.flags gate = value) :
    memory.update thread (.exchange gate value) = memory := by
  subst same
  rw [update, Function.update_eq_self]

end Memory

/-- The memory as the world of one thread. -/
def memoryOf (thread : Thread) : World agents (Memory Thread) where
  perform memory op answer after :=
    memory.Answers op answer ∧ after = memory.update thread op

/-! ## Scheduled environments -/

section Scheduled

variable {Call Value : Type}

/-- The memory answers for itself, and a script for everything else. -/
def scheduled
    (script : List (ThreadEvent Thread Call Value agents) → Thread →
      (op : AgentOp) → agents.Answer op) :
    Threads.Responses Thread Call Value (Memory Thread) agents :=
  fun log thread memory op =>
    match op with
    | .load flag =>
        some (memory.flags flag, memory.update thread (.load flag))
    | .exchange flag value =>
        some (memory.flags flag, memory.update thread (.exchange flag value))
    | .present pointer =>
        some ((memory.pointers pointer).isSome,
          memory.update thread (.present pointer))
    | .lock mutex =>
        if (memory.holder mutex).isNone then
          some ((), memory.update thread (.lock mutex))
        else
          none
    | op => some (script log thread op, memory.update thread op)

theorem scheduled_performs
    (script : List (ThreadEvent Thread Call Value agents) → Thread →
      (op : AgentOp) → agents.Answer op)
    (log : List (ThreadEvent Thread Call Value agents))
    (thread : Thread) (memory : Memory Thread) (op : AgentOp)
    (answer : agents.Answer op) (after : Memory Thread)
    (responded : scheduled script log thread memory op =
      some (answer, after)) :
    (memoryOf thread).perform memory op answer after := by
  cases op with
  | lock mutex =>
      simp only [scheduled] at responded
      split at responded
      · rename_i free
        injection responded with same
        injection same with _ updated
        exact ⟨Option.isNone_iff_eq_none.mp free, updated.symm⟩
      · cases responded
  | load flag =>
      injection responded with same
      injection same with answered updated
      exact ⟨answered.symm, updated.symm⟩
  | exchange flag value =>
      injection responded with same
      injection same with answered updated
      exact ⟨answered.symm, updated.symm⟩
  | present pointer =>
      injection responded with same
      injection same with answered updated
      exact ⟨answered.symm, updated.symm⟩
  | _ =>
      injection responded with same
      injection same with answered updated
      exact ⟨trivial, updated.symm⟩

end Scheduled

/-! ## Gates and objects -/

/-- A pointer or object that exists exactly when the owner has set it. -/
def owned (thread : Thread) (present : Bool) : Option Thread :=
  if present then some thread else none

theorem owned_eq_some {thread owner : Thread} {present : Bool} :
    owned thread present = some owner ↔ present = true ∧ thread = owner := by
  cases present <;> simp [owned]

/-- The local objects that an operation uses. -/
def Uses : AgentOp → ObjectName → Prop
  | .load .cancelled, object => object = .cancelled
  | .store .cancelled _, object => object = .cancelled
  | .publish .activeCancel, object => object = .cancelled
  | .publish .activeSession, object => object = .session
  | .lock .session, object => object = .session
  | .unlock .session, object => object = .session
  | .publish .activeProvider, object => object = .session
  | .clear .activeProvider, object => object = .session
  | .present .activeProvider, object => object = .session
  | .publish .activeRuntime, object => object = .runtime
  | .executeRuntime _, object => object = .runtime
  | .cancelRuntime, object => object = .runtime
  | _, _ => False

/-- The thread passed the gate of a flag and has not opened it again. -/
def PastGate {Call Value : Type} (gate : Flag)
    (log : List (ThreadEvent Thread Call Value agents))
    (thread : Thread) : Prop :=
  Threads.Within (⟨.exchange gate true, false⟩ : AgentEvent)
    ⟨.store gate false, ()⟩ log thread

end ArnCore.Agent.SharedMemory
