import FormRules.Text.Spelling

/-!
# Actions

The actions a form carries out when a rule triggers.  Some change one field,
others move through the workflow.  Rules keep their action as text, so that
actions of another form runtime can be stored beside these.
-/

namespace FormRules

inductive Action where
  | show
  | hide
  | enable
  | disable
  | setRequired
  | setOptional
  | skipStep
  | goToStep
  | completeWorkflow
deriving DecidableEq, Repr

namespace Action

def all : List Action :=
  [.show, .hide, .enable, .disable, .setRequired, .setOptional,
   .skipStep, .goToStep, .completeWorkflow]

def name : Action → String
  | .show => "show"
  | .hide => "hide"
  | .enable => "enable"
  | .disable => "disable"
  | .setRequired => "setRequired"
  | .setOptional => "setOptional"
  | .skipStep => "skipStep"
  | .goToStep => "goToStep"
  | .completeWorkflow => "completeWorkflow"

/-- The action some spelling names. -/
def ofName? (s : String) : Option Action := all.find? fun action => Text.sameName action.name s

def description : Action → String
  | .show => "Make the target field visible"
  | .hide => "Hide the target field"
  | .enable => "Make the target field editable"
  | .disable => "Make the target field read-only"
  | .setRequired => "Make the target field required"
  | .setOptional => "Make the target field optional"
  | .skipStep => "Skip the target workflow step"
  | .goToStep => "Navigate to the target workflow step"
  | .completeWorkflow => "Mark the workflow as complete"

inductive Scope where
  | field
  | workflow
deriving DecidableEq, Repr

def Scope.name : Scope → String
  | .field => "field"
  | .workflow => "workflow"

def scope : Action → Scope
  | .skipStep | .goToStep | .completeWorkflow => .workflow
  | _ => .field

end Action

end FormRules
