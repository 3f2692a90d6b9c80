import FormRules.Graph.Cycle
import FormRules.Hierarchy.Node

/-!
# Issues

What a check can find wrong with a list of nodes or of workflow steps.  Errors
make a list invalid, warnings do not.
-/

namespace FormRules

/-- Why a value cannot be taken as a list of nodes or steps. -/
inductive InputError where
  | notNodes (typeName : String)
  | malformedNode (position : Nat)
  | malformedSteps
deriving DecidableEq, Repr

def InputError.message : InputError → String
  | notNodes typeName => "Expected a list of nodes, got " ++ typeName
  | malformedNode position => "Malformed node at position " ++ Text.natText position
  | malformedSteps => "Malformed workflow step list"

inductive Severity where
  | error
  | warning
deriving DecidableEq, Repr

def Severity.name : Severity → String
  | .error => "error"
  | .warning => "warning"

inductive IssueKind where
  | invalidInput
  | emptyId
  | duplicateId
  | selfReference
  | orphanParent
  | circularReference
  | circularDependency
  | unknownDependency
  | unknownRuleTarget
  | unknownConditionField
  | invalidRule
  | circularStepChain
  | unknownStep
deriving DecidableEq, Repr

namespace IssueKind

/-- The name a kind of issue is reported under. -/
def name : IssueKind → String
  | invalidInput => "invalid_input"
  | emptyId => "empty_id"
  | duplicateId => "duplicate_id"
  | selfReference => "self_reference"
  | orphanParent => "orphan_parent"
  | circularReference => "circular_reference"
  | circularDependency => "circular_dependency"
  | unknownDependency => "unknown_dependency"
  | unknownRuleTarget => "unknown_rule_target"
  | unknownConditionField => "unknown_condition_field"
  | invalidRule => "invalid_rule"
  | circularStepChain => "circular_step_chain"
  | unknownStep => "unknown_step"

def title : IssueKind → String
  | invalidInput => "Invalid Input"
  | emptyId => "Empty Field ID"
  | duplicateId => "Duplicate Field ID"
  | selfReference => "Self Reference"
  | orphanParent => "Orphaned Field"
  | circularReference => "Circular Reference"
  | circularDependency => "Circular Dependency"
  | unknownDependency => "Unknown Dependency"
  | unknownRuleTarget => "Unknown Rule Target"
  | unknownConditionField => "Unknown Condition Field"
  | invalidRule => "Invalid Rule"
  | circularStepChain => "Circular Step Chain"
  | unknownStep => "Unknown Step"

def severity : IssueKind → Severity
  | orphanParent | unknownDependency | unknownRuleTarget | unknownConditionField | unknownStep =>
    .warning
  | _ => .error

end IssueKind

inductive Issue where
  | invalidInput (cause : InputError)
  | emptyId (id : String)
  | duplicateId (id : String) (count : Nat)
  | selfReference (id : String)
  | orphanParent (id parent : String)
  | circularReference (id : String) (path : List String)
  | circularDependency (id : String) (path : List String)
  | unknownDependency (id dependency : String)
  | unknownRuleTarget (id rule target : String)
  | unknownConditionField (id rule field : String)
  | rejectedRule (id : String) (rule : RejectedRule)
  | unsupportedOperator (id rule operator : String)
  | circularStepChain (id : String) (path : List String)
  | unknownStep (id next : String)
deriving DecidableEq, Repr

namespace Issue

def kind : Issue → IssueKind
  | invalidInput _ => .invalidInput
  | emptyId _ => .emptyId
  | duplicateId _ _ => .duplicateId
  | selfReference _ => .selfReference
  | orphanParent _ _ => .orphanParent
  | circularReference _ _ => .circularReference
  | circularDependency _ _ => .circularDependency
  | unknownDependency _ _ => .unknownDependency
  | unknownRuleTarget _ _ _ => .unknownRuleTarget
  | unknownConditionField _ _ _ => .unknownConditionField
  | rejectedRule _ _ => .invalidRule
  | unsupportedOperator _ _ _ => .invalidRule
  | circularStepChain _ _ => .circularStepChain
  | unknownStep _ _ => .unknownStep

def severity (issue : Issue) : Severity := issue.kind.severity

def isError (issue : Issue) : Bool := issue.severity == .error

/-- The id an issue is found at; unusable input has none. -/
def nodeId? : Issue → Option String
  | invalidInput _ => none
  | emptyId id | duplicateId id _ | selfReference id | orphanParent id _
  | circularReference id _ | circularDependency id _ | unknownDependency id _
  | unknownRuleTarget id _ _ | unknownConditionField id _ _ | rejectedRule id _
  | unsupportedOperator id _ _ | circularStepChain id _ | unknownStep id _ => some id

def nodeIds (issue : Issue) : List String := issue.nodeId?.toList

def quotedId (id : String) : String := "'" ++ id ++ "'"

def ruleOnField (id rule : String) : String :=
  "Rule " ++ quotedId rule ++ " on field " ++ quotedId id

def message : Issue → String
  | invalidInput cause => cause.message
  | emptyId _ => "Field has empty ID"
  | duplicateId id count =>
    "Duplicate field ID: " ++ quotedId id ++ " appears " ++ Text.natText count ++ " times"
  | selfReference id => "Field " ++ quotedId id ++ " references itself as parent"
  | orphanParent id parent =>
    "Field " ++ quotedId id ++ " references non-existent parent " ++ quotedId parent
  | circularReference id path =>
    "Circular reference detected involving field " ++ quotedId id ++
      " (" ++ Graph.pathText path ++ ")"
  | circularDependency id path =>
    "Circular dependency detected for field " ++ quotedId id ++
      " (" ++ Graph.pathText path ++ ")"
  | unknownDependency id dependency =>
    "Field " ++ quotedId id ++ " depends on unknown field " ++ quotedId dependency
  | unknownRuleTarget id rule target =>
    ruleOnField id rule ++ " targets unknown field " ++ quotedId target
  | unknownConditionField id rule field =>
    ruleOnField id rule ++ " reads unknown field " ++ quotedId field
  | rejectedRule id rule => rule.text ++ " on field " ++ quotedId id
  | unsupportedOperator id rule operator =>
    ruleOnField id rule ++ " uses unsupported operator " ++ quotedId operator
  | circularStepChain id path =>
    "Workflow loops back from step " ++ quotedId id ++ " (" ++ Graph.pathText path ++ ")"
  | unknownStep id next =>
    "Step " ++ quotedId id ++ " leads to unknown step " ++ quotedId next

def about (issues : List Issue) (id : String) : List Issue :=
  issues.filter fun issue => issue.nodeIds.contains id

/-- A list is valid when none of its issues is an error. -/
def allowed (issues : List Issue) : Bool := !issues.any isError

end Issue

end FormRules
