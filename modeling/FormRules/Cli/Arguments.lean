import FormRules.Assoc

/-!
# Command line arguments

Options are given by their long name, with a value behind `=` or as the next
argument, or by their letter, with a value behind it or as the next argument;
letters of flags may be joined.  Everything after `--` is an operand.  A command
takes its options anywhere, a group of commands only in front of the name of
the command.
-/

namespace FormRules

namespace Cli

/-- What giving an option means. -/
inductive OptionKind where
  /-- Sets a flag to a fixed value. -/
  | flag (value : Bool)
  | value
deriving DecidableEq

/-- An option: its long name and its letter, what it sets, and how. -/
structure OptionSpec where
  long : String
  letter : Option Char
  setting : String
  kind : OptionKind

inductive Given where
  | flag (setting : String) (value : Bool)
  | value (setting : String) (text : String)
deriving DecidableEq

structure Arguments where
  given : List Given
  operands : List String

namespace Arguments

def flag (args : Arguments) (setting : String) (default : Bool) : Bool :=
  (args.given.reverse.findSome? fun
    | .flag s b => if s = setting then some b else none
    | _ => none).getD default

def value? (args : Arguments) (setting : String) : Option String :=
  args.given.reverse.findSome? fun
    | .value s t => if s = setting then some t else none
    | _ => none

end Arguments

/-- The option every command has. -/
def helpOption : OptionSpec := ⟨"help", none, "help", .flag true⟩

/-- Reads the letters of one argument.  The result tells the options given, and
the option whose value is the next argument, if the last letter needs one. -/
def readLetters (specs : List OptionSpec) :
    List Char → Option (List Given × Option OptionSpec)
  | [] => some ([], none)
  | c :: rest =>
    match specs.find? (·.letter == some c) with
    | none => none
    | some spec =>
      match spec.kind with
      | .flag b =>
        (readLetters specs rest).map fun (given, wants) => (.flag spec.setting b :: given, wants)
      | .value =>
        if rest.isEmpty then some ([], some spec)
        else some ([.value spec.setting (String.ofList rest)], none)

/-- Reads an argument that begins with `-`, like `readLetters`. -/
def readOption (specs : List OptionSpec) (cs : List Char) :
    Option (List Given × Option OptionSpec) :=
  match cs with
  | '-' :: '-' :: rest =>
    let (name, tail) := rest.span (· != '=')
    match specs.find? (·.long == String.ofList name) with
    | none => none
    | some spec =>
      match spec.kind, tail with
      | .flag b, [] => some ([.flag spec.setting b], none)
      | .flag _, _ :: _ => none
      | .value, [] => some ([], some spec)
      | .value, _ :: text => some ([.value spec.setting (String.ofList text)], none)
  | _ :: letters => readLetters specs letters
  | [] => none

/-- Reads arguments; `none` when they fit no command line.  When options may
not follow an operand, everything from the first operand on is operands. -/
def readArguments (specs : List OptionSpec) (interspersed : Bool) :
    List String → Option Arguments
  | [] => some ⟨[], []⟩
  | arg :: rest =>
    if arg = "--" then some ⟨[], rest⟩
    else
      match arg.toList with
      | '-' :: _ :: _ =>
        match readOption specs arg.toList with
        | none => none
        | some (given, none) =>
          (readArguments specs interspersed rest).map fun args =>
            { args with given := given ++ args.given }
        | some (given, some spec) =>
          match rest with
          | [] => none
          | text :: rest =>
            (readArguments specs interspersed rest).map fun args =>
              { args with given := given ++ .value spec.setting text :: args.given }
      | _ =>
        if interspersed then
          (readArguments specs interspersed rest).map fun args =>
            { args with operands := arg :: args.operands }
        else some ⟨[], arg :: rest⟩

end Cli

end FormRules
