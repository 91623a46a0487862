import AkesoDlp.Agent.StdString

/-!
# Policies, detections and violations of the agent

The data types of `policy_evaluator.h`, with the defaults of the header.
Counts are `int` in the source and far below its range (a detection holds one
record per match), so they are `Int` here.
-/

namespace AkesoDlp.Agent

inductive Severity
  | info
  | low
  | medium
  | high
  | critical
deriving DecidableEq, Repr

/-- The underlying value of the `enum class`, which `>` compares. -/
def Severity.toNat : Severity → Nat
  | .info => 0
  | .low => 1
  | .medium => 2
  | .high => 3
  | .critical => 4

inductive ConditionType
  | regex
  | keyword
  | dataIdentifier
  | fileType
  | fingerprint
deriving DecidableEq, Repr

inductive ConditionOperator
  | «matches»
  | notMatches
  | countGTE
  | countLTE
deriving DecidableEq, Repr

inductive ExceptionScope
  | entireMessage
  | matchedComponent
deriving DecidableEq, Repr

inductive ResponseAction
  | allow
  | block
  | notify
  | userCancel
  | ttd
deriving DecidableEq, Repr

structure DetectionMatch where
  patternId : Nat
  analyzerName : StdString
  label : StdString
  matchedText : StdString
  offset : Nat := 0
  component : StdString := []
deriving DecidableEq, Repr

structure DetectionResult where
  «matches» : List DetectionMatch := []
  fileType : StdString := []
  filename : StdString := []
  fileSize : Nat := 0
deriving DecidableEq, Repr

structure RuleCondition where
  type : ConditionType
  op : ConditionOperator := .matches
  analyzerName : StdString := []
  patternLabel : StdString := []
  matchCountMin : Int := 1
  matchCountMax : Int := 0
  component : StdString := []
deriving DecidableEq, Repr

structure DetectionRule where
  name : StdString
  conditions : List RuleCondition := []
deriving DecidableEq, Repr

structure SeverityThreshold where
  severity : Severity
  minMatches : Int
deriving DecidableEq, Repr

/-- `condition` is the optional `std::function` of the exception. -/
structure PolicyException where
  name : StdString
  scope : ExceptionScope
  analyzerName : StdString := []
  component : StdString := []
  matchLabel : StdString := []
  condition : Option (DetectionResult → Bool) := none

structure Policy where
  id : Nat := 0
  name : StdString := []
  active : Bool := true
  defaultSeverity : Severity := .medium
  response : ResponseAction := .block
  detectionRules : List DetectionRule := []
  exceptions : List PolicyException := []
  severityThresholds : List SeverityThreshold := []
  ttdFallback : ResponseAction := .allow

structure PolicyViolation where
  triggered : Bool := false
  policyId : Nat := 0
  policyName : StdString := []
  severity : Severity := .info
  response : ResponseAction := .allow
  «matches» : List DetectionMatch := []
  matchCount : Int := 0
  matchedRules : List StdString := []
  exceptionApplied : StdString := []
deriving DecidableEq, Repr

end AkesoDlp.Agent
