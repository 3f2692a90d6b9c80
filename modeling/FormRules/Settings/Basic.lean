import FormRules.Condition.Evaluation
import FormRules.Reading.Scalar
import FormRules.Settings.EnvFile
import FormRules.Text.Spelling

/-!
# Settings

Settings come from environment variables with a common start of their names, in
any case, or from an environment file; a real variable beats the file.  A
variable that is not set leaves the default.
-/

namespace FormRules

structure Settings where
  caseSensitive : Bool
  maxDepth : Int
  defaultModule : String
  defaultPriority : Int
  logLevel : String
deriving DecidableEq, Repr

namespace Settings

/-- What the names of all variables begin with, in lower case. -/
def namesBegin : String := "formlogic_"

/-- A setting from its variable, given the values by lower-case name. -/
def setting {α : Type} (values : Assoc String) (name : String) (default : α)
    (read : Value → Reading α) : Reading α :=
  match values.get? (namesBegin ++ name) with
  | some text => (read (.str text)).within name
  | none => .ok default

/-- Entries by lower-case name; of several spellings the last one counts. -/
def byLoweredName {α : Type} (entries : Assoc α) : Assoc α :=
  Assoc.ofPairs (entries.map fun e => (Text.lowered e.1, e.2))

/-- The values of all variables by lower-case name: those of the environment in
front, then those of the file. -/
def values (environment : Assoc String) (file : Option String) : Assoc String :=
  let fromFile := (file.map (EnvFile.definitions environment)).getD []
  byLoweredName environment ++
    (byLoweredName fromFile).filterMap fun e => e.2.map fun text => (e.1, text)

/-- Reads the settings from the environment and the content of an environment
file. -/
def read (environment : Assoc String) (file : Option String) : Reading Settings :=
  let values := values environment file
  Settings.mk <$> setting values "case_sensitive_comparisons" false Reading.flag
    <*> setting values "max_condition_depth" 64 Reading.integer
    <*> setting values "default_module_key" "current" Reading.text
    <*> setting values "default_rule_priority" 100 Reading.integer
    <*> setting values "log_level" "INFO" Reading.text

/-- The evaluator the settings describe, unless the caller says otherwise. -/
def evaluator (settings : Settings) (caseSensitive : Option Bool) (maxDepth : Option Int) :
    Evaluator where
  mode := .ofSensitive (caseSensitive.getD settings.caseSensitive)
  maxDepth := maxDepth.getD settings.maxDepth
  defaultModule := settings.defaultModule

end Settings

structure Product where
  name : String
  tagline : String
  version : String

def product : Product where
  name := "FormLogic"
  tagline := "Conditional rules and field hierarchy checks for dynamic forms."
  version := "1.0.0"

end FormRules
