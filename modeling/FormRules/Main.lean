import FormRules.Cli.Run

/-!
# The program

Reads the files named by the arguments and the environment, runs the command,
and shows its page.
-/

namespace FormRules

namespace Cli

/-- A row of a table with its cells padded to the widths of their columns. -/
def paddedRow (widths : List Nat) (row : List String) : String :=
  "  ".intercalate ((row.zip widths).map fun (cell, width) =>
    String.ofList (cell.toList ++ List.replicate (width - Text.cells cell.toList) ' '))

def Block.printed : Block → List String
  | .document v => [Json.write v]
  | .table title header rows =>
    let rows := header :: rows.flatMap shownRows
    let widths := (List.range header.length).map fun (i : Nat) =>
      (rows.map fun row => Text.cells ((row[i]?).getD "").toList).foldl max 0
    title :: rows.map (paddedRow widths)
  | .line s => shownLines s
  | .verbatim ls => ls

/-- The variables that can hold settings. -/
def variableNames : List String :=
  ["case_sensitive_comparisons", "max_condition_depth", "default_module_key",
    "default_rule_priority", "log_level"].map (Settings.namesBegin ++ ·)

def readEnvironment : IO (Assoc String) := do
  let mut found := []
  for name in variableNames do
    for spelling in [name, Text.uppered name] do
      if let some text ← IO.getEnv spelling then
        found := found ++ [(spelling, text)]
  return found

def readFile? (path : String) : IO (Option String) := do
  try
    return some (← IO.FS.readFile path)
  catch _ => return none

def readFiles (paths : List String) : IO Files := do
  let mut files := []
  for path in paths do
    if let some content ← readFile? path then
      files := files ++ [(path, content)]
  return files

/-- Shows how a run ended, and gives the exit code. -/
def finish : Outcome → IO UInt32
  | .misuse => do
    IO.eprintln "Usage: formlogic [OPTIONS] COMMAND [ARGS]..."
    return 2
  | .crashed kind => do
    IO.eprintln kind
    return 1
  | .finished exit page written => do
    for (path, content) in written do
      IO.FS.writeFile path content
    for block in page do
      for line in block.printed do
        IO.println line
    return exit.toUInt32

end Cli

end FormRules

open FormRules in
def main (args : List String) : IO UInt32 := do
  let environment ← Cli.readEnvironment
  let settings := Settings.read environment (← Cli.readFile? ".env")
  let files ← Cli.readFiles args
  Cli.finish (Cli.run { settings := settings, files := files } args).value
