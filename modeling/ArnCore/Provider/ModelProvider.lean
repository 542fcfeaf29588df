import ArnCore.Tool.Tool

/-!
# The provider interface

`IModelProvider` and the values exchanged with it.  The callbacks of the host
run on the environment's side and may throw.
-/

namespace ArnCore.Provider

open ArnCore.Interaction
open ArnCore.Tool

structure ApiResult where
  ok : Bool := false
  message : String := ""
  models : List String := []
  cancelled : Bool := false
deriving DecidableEq, Repr

structure ToolCall where
  id : String
  name : String
  arguments : Json

structure ToolResponse where
  callId : String
  name : String
  result : Json

structure ModelTurn where
  ok : Bool := false
  text : String := ""
  toolCalls : List ToolCall := []
  errorMessage : String := ""
  cancelled : Bool := false

structure ModelCapabilities where
  supportsTools : Bool := true
  supportsStreaming : Bool := true
  supportsSystemInstruction : Bool := true

/-- The streaming callbacks of the host; empty functions are absent. -/
structure StreamCallbacks (signature : Signature) where
  onText : Option (String → Host signature Unit) := none
  onProgress : Option (String → Host signature Unit) := none

variable {signature : Signature} {Locals : Type}

/-- `if (callback) callback(message)` -/
def notify (callback : Option (String → Host signature Unit))
    (message : String) : Action signature Locals Unit :=
  match callback with
  | none => pure ()
  | some callback => Action.ofHost (callback message)

/-- The interface `IModelProvider`, as far as a session in use calls it. -/
structure IModelProvider (signature : Signature) (Locals : Type) where
  modelCapabilities : String → Action signature Locals ModelCapabilities
  startTurn :
    (apiKey model systemInstruction userPrompt : String) →
      ToolRegistry signature Locals → StreamCallbacks signature →
        CancelFlag signature → Action signature Locals ModelTurn
  continueTurn :
    (apiKey model systemInstruction : String) → List ToolResponse →
      ToolRegistry signature Locals → StreamCallbacks signature →
        CancelFlag signature → Action signature Locals ModelTurn
  trimHistory : Nat → Action signature Locals Unit
  cancelActiveRequest : Action signature Locals Unit
  resetSession : Action signature Locals Unit

end ArnCore.Provider
