import ArnCore.Interaction.Action

/-!
# Objects shared between threads

An atomic flag, a mutex and a pointer that is only tested are known through
their operations.  Whether another thread interferes, and what a load returns,
is decided by the world the operations run in.
-/

namespace ArnCore.Interaction

variable {signature : Signature} {Locals Value : Type}

/-- `std::atomic_bool` -/
structure AtomicBool (signature : Signature) where
  load : Host signature Bool
  store : Bool → Host signature Unit
  exchange : Bool → Host signature Bool

/-- `std::mutex` -/
structure Mutex (signature : Signature) where
  lock : Host signature Unit
  unlock : Host signature Unit

/-- A pointer that is set to its object, cleared, and tested for null. -/
structure Pointer (signature : Signature) where
  publish : Host signature Unit
  clear : Host signature Unit
  present : Host signature Bool

/-- A local object: it is constructed where its scope begins. -/
structure Lifetime (signature : Signature) where
  construct : Host signature Unit
  destroy : Host signature Unit

/-- Run `body` in the scope of the object, which dies however it is left. -/
def Lifetime.scoped (lifetime : Lifetime signature)
    (body : Action signature Locals Value) :
    Action signature Locals Value := do
  Action.ofHost lifetime.construct
  Action.scopeGuard body (Action.ofHost lifetime.destroy)

/-- Run `body` under `std::lock_guard`. -/
def Mutex.guarded (mutex : Mutex signature)
    (body : Action signature Locals Value) :
    Action signature Locals Value := do
  Action.ofHost mutex.lock
  Action.scopeGuard body (Action.ofHost mutex.unlock)

theorem Mutex.guarded_safe
    {State : Type} {world : World signature State}
    {allowed : State → signature.Op → Prop} {mutex : Mutex signature}
    {body : Action signature Locals Value}
    (locks : Action.Safe world allowed
      (Action.ofHost mutex.lock : Action signature Locals Unit))
    (runs : Action.Safe world allowed body)
    (unlocks : Action.Safe world allowed
      (Action.ofHost mutex.unlock : Action signature Locals Unit)) :
    Action.Safe world allowed (mutex.guarded body) :=
  .bind locks fun _ => .scopeGuard runs unlocks

end ArnCore.Interaction
