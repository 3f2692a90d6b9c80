import FormRules.Condition.Stored
import FormRules.Rule.Action

/-!
# Rules

A rule names an action that is carried out when its condition holds, and what
the action is aimed at.  Lower priorities come first.  A stored rule without a
priority takes the default one; when there is no default to take, because the
settings cannot be read, neither can the rule.
-/

namespace FormRules

structure Rule where
  id : String
  description : Option String
  condition : Condition
  action : String
  targetField : Option String
  /-- The step aimed at, counted from one. -/
  targetStep : Option Int
  targetModule : Option String
  priority : Int
  isActive : Bool
  category : Option String
  tags : List String
deriving DecidableEq

namespace Rule

/-- The action of a rule, when it is one of the known ones. -/
def knownAction (rule : Rule) : Option Action := Action.ofName? rule.action

def idKey : FieldKey := .single "id"
def descriptionKey : FieldKey := .single "description"
def conditionKey : FieldKey := .single "condition"
def actionKey : FieldKey := .single "action"
def targetFieldKey : FieldKey := ⟨"targetFieldId", ["target_field_id"]⟩
def targetStepKey : FieldKey := ⟨"targetStepNumber", ["target_step_number"]⟩
def targetModuleKey : FieldKey := ⟨"targetModuleKey", ["target_module_key"]⟩
def priorityKey : FieldKey := .single "priority"
def isActiveKey : FieldKey := ⟨"isActive", ["is_active"]⟩
def categoryKey : FieldKey := .single "category"
def tagsKey : FieldKey := .single "tags"

/-- Reads a rule whose priority is `priority` unless it is stored. -/
def readWith (priority : Int) : Value → Reading Rule
  | .obj fields =>
    Rule.mk <$> Reading.required fields idKey Reading.nonEmptyText
      <*> Reading.nullableField fields descriptionKey Reading.text
      <*> Reading.required fields conditionKey Condition.readEither
      <*> Reading.required fields actionKey Reading.nonEmptyText
      <*> Reading.nullableField fields targetFieldKey Reading.text
      <*> Reading.nullableField fields targetStepKey (Reading.integerFrom 1)
      <*> Reading.nullableField fields targetModuleKey Reading.text
      <*> Reading.optional fields priorityKey priority Reading.integer
      <*> Reading.optional fields isActiveKey true Reading.flag
      <*> Reading.nullableField fields categoryKey Reading.text
      <*> Reading.optional fields tagsKey [] Reading.texts
  | _ => Reading.fault .notAModel

/-- Whether a stored rule has to take the default priority. -/
def takesDefaultPriority : Value → Bool
  | .obj fields => (priorityKey.find? fields).isNone
  | _ => false

/-- Reads a rule.  A default priority that is needed and cannot be read is the
only fault reported. -/
def read (defaultPriority : Reading Int) (v : Value) : Reading Rule :=
  match defaultPriority with
  | .ok priority => readWith priority v
  | .faulty faults => if takesDefaultPriority v then .faulty faults else readWith 0 v

/-- A rule as it is stored, every field written out. -/
def stored (rule : Rule) : Value :=
  .obj [("id", .str rule.id),
    ("description", .ofText? rule.description),
    ("condition", rule.condition.stored),
    ("action", .str rule.action),
    ("targetFieldId", .ofText? rule.targetField),
    ("targetStepNumber", (rule.targetStep.map Value.int).getD .null),
    ("targetModuleKey", .ofText? rule.targetModule),
    ("priority", .int rule.priority),
    ("isActive", .bool rule.isActive),
    ("category", .ofText? rule.category),
    ("tags", .list (rule.tags.map Value.str))]

/-- Whether a rule reads back from its stored form. -/
def survivesStorage (rule : Rule) : Bool := (readWith 0 rule.stored).value? == some rule

end Rule

end FormRules
