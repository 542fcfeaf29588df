import ArnCore.Provider.ModelProvider

/-!
# Permissions, profiles, tasks and results

The value types of the agent layer.  Enumerations that the host can fill by a
cast carry a case for the values outside the enumeration.
-/

namespace ArnCore.Agent

open ArnCore.Collections

/-- `find_first_not_of(" \t\r\n") != npos` -/
def hasText (text : String) : Bool :=
  text.toList.any fun character =>
    character ∉ [' ', '\t', '\r', '\n']

/-! ## Permissions -/

inductive PermissionDecision where
  | allow
  | deny
  | askUser
  | invalid (value : Int)
deriving DecidableEq, Repr

inductive OperationClass where
  | readFile
  | writeFile
  | deleteFile
  | runCommand
  | network
  | gitCommit
  | gitPush
  | unknown (value : Int)
deriving DecidableEq, Repr

namespace OperationClass

/-- The operations listed in the enumeration. -/
def isKnown : OperationClass → Bool
  | .unknown _ => false
  | _ => true

end OperationClass

namespace PermissionDecision

/-- The decisions listed in the enumeration. -/
def isValid : PermissionDecision → Bool
  | .invalid _ => false
  | _ => true

end PermissionDecision

/-- `AgentPermissions`: only known operations and valid decisions are stored. -/
structure AgentPermissions where
  decisions : OperationClass → Option PermissionDecision := fun _ => none
  stored_valid : ∀ operation decision,
    decisions operation = some decision →
      operation.isKnown = true ∧ decision.isValid = true := by
    intro operation decision stored; cases stored

namespace AgentPermissions

/-- No operation has a decision. -/
def empty : AgentPermissions := {}

/-- `decision_for`: unset and unknown operations are denied. -/
def decisionFor (permissions : AgentPermissions)
    (operation : OperationClass) : PermissionDecision :=
  if operation.isKnown then
    (permissions.decisions operation).getD .deny
  else
    .deny

/-- `set_decision`: whether the pair was accepted, and the permissions. -/
def setDecision (permissions : AgentPermissions)
    (operation : OperationClass) (decision : PermissionDecision) :
    Bool × AgentPermissions :=
  if accepted : decision.isValid ∧ operation.isKnown then
    (true,
      { decisions := fun other =>
          if other = operation then some decision
          else permissions.decisions other
        stored_valid := by
          intro other stored found
          by_cases same : other = operation
          · simp only [same, if_true, Option.some.injEq] at found
            rw [same, ← found]
            exact ⟨accepted.2, accepted.1⟩
          · rw [if_neg same] at found
            exact permissions.stored_valid other stored found })
  else
    (false, permissions)

/-- A decision is always one of the three of the enumeration. -/
theorem decisionFor_isValid
    (permissions : AgentPermissions) (operation : OperationClass) :
    (permissions.decisionFor operation).isValid = true := by
  unfold decisionFor
  split_ifs
  · cases stored : permissions.decisions operation with
    | none => rfl
    | some decision => exact (permissions.stored_valid _ _ stored).2
  · rfl

/-- What is not denied is allowed or has to be asked for. -/
theorem decisionFor_of_ne_deny
    {permissions : AgentPermissions} {operation : OperationClass}
    (permitted : permissions.decisionFor operation ≠ .deny) :
    permissions.decisionFor operation = .allow ∨
      permissions.decisionFor operation = .askUser := by
  have valid := permissions.decisionFor_isValid operation
  cases decided : permissions.decisionFor operation with
  | allow => exact Or.inl rfl
  | deny => exact absurd decided permitted
  | askUser => exact Or.inr rfl
  | invalid value =>
      rw [decided] at valid
      cases valid

end AgentPermissions

/-! ## Artifacts, profiles and tasks -/

inductive ArtifactType where
  | userRequest
  | explorationReport
  | implementationPlan
  | changeSummary
  | testResult
  | errorReport
  | reviewReport
  | generic
deriving DecidableEq, Repr

/-- `static_cast<int>(type)` -/
def ArtifactType.toInt : ArtifactType → Int
  | .userRequest => 0
  | .explorationReport => 1
  | .implementationPlan => 2
  | .changeSummary => 3
  | .testResult => 4
  | .errorReport => 5
  | .reviewReport => 6
  | .generic => 7

structure ContextArtifact where
  type : ArtifactType := .generic
  producer : String
  content : String
deriving DecidableEq, Repr

/-- `AgentProfile`, without the policy and skill metadata no code reads. -/
structure AgentProfile where
  id : String
  displayName : String := ""
  description : String := ""
  instructions : String := ""
  allowedTools : List String := []
  permissions : AgentPermissions := .empty
  maxSteps : Nat := 12

structure TaskConstraints where
  maxSteps : Option Nat := none
  readOnly : Bool := false
  notes : String := ""
deriving DecidableEq, Repr

/-- `AgentTask`; the directory is its generic UTF-8 spelling. -/
structure AgentTask where
  id : String
  objective : String
  workingDirectory : String
  inputs : List ContextArtifact := []
  constraints : TaskConstraints := {}
deriving DecidableEq, Repr

/-- A step limit is absent or positive. -/
def TaskConstraints.stepsValid (constraints : TaskConstraints) : Bool :=
  match constraints.maxSteps with
  | none => true
  | some steps => 0 < steps

/-- `AgentTask::valid` -/
def AgentTask.valid (task : AgentTask) : Bool :=
  hasText task.id && hasText task.objective &&
    task.workingDirectory ≠ "" && task.constraints.stepsValid

structure AgentContext where
  profile : AgentProfile
  task : AgentTask
  artifacts : List ContextArtifact := []

/-! ## Results -/

inductive AgentStatus where
  | completed
  | failed
  | cancelled
  | needsInput
  | needsConfirmation
deriving DecidableEq, Repr

structure AgentError where
  code : String
  message : String
deriving DecidableEq, Repr

structure AgentResult where
  status : AgentStatus := .needsInput
  summary : String := ""
  artifacts : List ContextArtifact := []
  error : Option AgentError := none
deriving DecidableEq, Repr

end ArnCore.Agent
