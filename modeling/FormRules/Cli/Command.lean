import FormRules.Cli.Arguments
import FormRules.Cli.Files

/-!
# Commands

The commands of the command line and how arguments name them.  A path that no
file can have names no command.
-/

namespace FormRules

namespace Cli

inductive Command where
  | version
  | evaluateRules (rules data : String) (module : Option String) (showErrors : Bool)
  | listRules (rules : String) (all : Bool)
  | validateNodes (nodes : String) (structureOnly : Bool)
  | validateSteps (steps : String)
  | fixNodes (nodes : String) (output : Option String)
  | showMetrics (nodes : String)
  | showTree (nodes : String)
deriving DecidableEq

/-- What arguments come to: a command, a request for help, or neither. -/
inductive Parsed (α : Type) where
  | found (a : α)
  | help
  | misuse

def moduleOption : OptionSpec := ⟨"module", some 'm', "module", .value⟩
def showErrorsOption : OptionSpec := ⟨"show-errors", none, "show-errors", .flag true⟩
def hideErrorsOption : OptionSpec := ⟨"hide-errors", none, "show-errors", .flag false⟩
def allOption : OptionSpec := ⟨"all", some 'a', "all", .flag true⟩
def structureOption : OptionSpec := ⟨"structure-only", some 's', "structure-only", .flag true⟩
def outputOption : OptionSpec := ⟨"output", some 'o', "output", .value⟩
def verboseOption : OptionSpec := ⟨"verbose", some 'v', "verbose", .flag true⟩

/-- Reads the arguments of a command, which takes options anywhere. -/
def parseWith {α : Type} (options : List OptionSpec) (args : List String)
    (build : Arguments → Option α) : Parsed α :=
  match readArguments (helpOption :: options) true args with
  | none => .misuse
  | some arguments =>
    if arguments.flag "help" false then .help
    else
      match build arguments with
      | some a => .found a
      | none => .misuse

def onFile {α : Type} (build : String → α) (arguments : Arguments) : Option α :=
  match arguments.operands with
  | [file] => if isPath file then some (build file) else none
  | _ => none

def parseRulesCommand (name : String) (args : List String) : Parsed Command :=
  if name = "evaluate" then
    parseWith [moduleOption, showErrorsOption, hideErrorsOption] args fun a =>
      match a.operands with
      | [rules, data] =>
        if isPath rules && isPath data then
          some (.evaluateRules rules data (a.value? "module") (a.flag "show-errors" true))
        else none
      | _ => none
  else if name = "list" then
    parseWith [allOption] args fun a => onFile (.listRules · (a.flag "all" false)) a
  else .misuse

def parseHierarchyCommand (name : String) (args : List String) : Parsed Command :=
  if name = "validate" then
    parseWith [structureOption] args fun a =>
      onFile (.validateNodes · (a.flag "structure-only" false)) a
  else if name = "steps" then parseWith [] args (onFile .validateSteps)
  else if name = "fix" then
    parseWith [outputOption] args fun a =>
      let output := a.value? "output"
      if output.all isPath then onFile (.fixNodes · output) a else none
  else if name = "metrics" then parseWith [] args (onFile .showMetrics)
  else if name = "tree" then parseWith [] args (onFile .showTree)
  else .misuse

/-- Reads the arguments of a group of commands: the name of one and its own
arguments. -/
def parseGroup (parse : String → List String → Parsed Command) (args : List String) :
    Parsed Command :=
  match readArguments [helpOption] false args with
  | none => .misuse
  | some arguments =>
    if arguments.flag "help" false then .help
    else
      match arguments.operands with
      | name :: rest => parse name rest
      | [] => .misuse

/-- Reads the arguments behind the name of a command or group. -/
def parseCommand (name : String) (args : List String) : Parsed Command :=
  if name = "version" then
    parseWith [] args fun a => if a.operands.isEmpty then some .version else none
  else if name = "rules" then parseGroup parseRulesCommand args
  else if name = "hierarchy" then parseGroup parseHierarchyCommand args
  else .misuse

def commandNames : List String := ["version", "rules", "hierarchy"]

/-- The options in front of the first name, that name, and what follows. -/
structure CommandLine where
  verbose : Bool
  name : String
  rest : List String

def parseCommandLine (args : List String) : Parsed CommandLine :=
  match readArguments [helpOption, verboseOption] false args with
  | none => .misuse
  | some arguments =>
    if arguments.flag "help" false then .help
    else
      match arguments.operands with
      | name :: rest =>
        if commandNames.contains name then
          .found ⟨arguments.flag "verbose" false, name, rest⟩
        else .misuse
      | [] => .misuse

end Cli

end FormRules
