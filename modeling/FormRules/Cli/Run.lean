import FormRules.Cli.Command
import FormRules.Cli.Files
import FormRules.Cli.Page
import FormRules.Condition.Description
import FormRules.FormData.Stored
import FormRules.Hierarchy.Check
import FormRules.Json.Reader
import FormRules.Json.Writer
import FormRules.Rule.Evaluation
import FormRules.Settings.Basic

/-!
# Running commands

A command reads its files, computes, and shows a page; only the repair of a
hierarchy can also write a file.  What cannot be read is said on the page and
makes the command fail.  Settings that cannot be used end the program instead.
-/

namespace FormRules

namespace Cli

inductive Outcome where
  /-- The arguments name no command. -/
  | misuse
  /-- The program cannot go on, for a reason of this kind. -/
  | crashed (kind : String)
  | finished (exit : Nat) (page : Page) (written : List (String × String))

structure Setup where
  settings : Reading Settings
  files : Files

/-- Why a command gives up: a page to show, or a crash. -/
inductive GiveUp where
  | showing (page : Page)
  | crash (kind : String)

def GiveUp.outcome : GiveUp → Outcome
  | .showing page => .finished 1 page []
  | .crash kind => .crashed kind

/-- Gives up with a text with styles. -/
def failLine (text : String) : GiveUp := .showing [.line (styled "red" "Error:" ++ " " ++ text)]

/-- A number of faults, as it is said of the reading of something. -/
def faultCount (count : Nat) (what : String) : String :=
  Text.natText count ++
    (if count = 1 then " validation error for " else " validation errors for ") ++ what

namespace Setup

def defaultPriority (setup : Setup) : Reading Int := setup.settings.map Settings.defaultPriority

/-- The JSON value in a file; of an object with the given key, the value under
it. -/
def loadJson (setup : Setup) (path : String) (key : Option String) : Except GiveUp Value :=
  let short := shortPath path
  match setup.files.read path with
  | .error e =>
    .error (failLine ("Cannot read " ++ short ++ ": " ++
      escaped (e.text ++ ": " ++ Text.quoted short)))
  | .ok content =>
    match Json.read content with
    | .error (.malformed e) =>
      .error (failLine (short ++ " is not valid JSON: " ++ escaped e.message))
    | .error .tooDeep => .error (.crash "RecursionError")
    | .ok v =>
      match v, key with
      | .obj fields, some key => .ok ((Assoc.get? fields key).getD v)
      | v, _ => .ok v

/-- What is said of rules that cannot be read. -/
def invalidRules (setup : Setup) (path : String) (items : List Value) (faults : List Fault) :
    GiveUp :=
  let needsSettings := setup.settings.value?.isNone && items.any Rule.takesDefaultPriority
  let (count, what) :=
    if needsSettings then (setup.settings.faults.length, "Settings")
    else (faults.length, "list[ConditionalRule]")
  failLine ("Invalid rules in " ++ shortPath path ++ ":\n" ++ escaped (faultCount count what))

def loadRules (setup : Setup) (path : String) : Except GiveUp (List Rule) := do
  let v ← setup.loadJson path (some "rules")
  let items := v.asList?.getD []
  match (Reading.list v).andThen (Reading.each (Rule.read setup.defaultPriority)) with
  | .ok rules => .ok rules
  | .faulty faults => .error (setup.invalidRules path items faults)

/-- The form data in a file: stored form data, or an object of modules. -/
def loadData (setup : Setup) (path : String) (module : Option String) :
    Except GiveUp FormData := do
  let v ← setup.loadJson path none
  match v with
  | .obj fields =>
    let whole := if Assoc.has fields "modules" then v else .obj [("modules", v)]
    match FormData.read whole with
    | .ok data =>
      match module.filter fun m => !m.isEmpty with
      | some m => .ok (data.setCurrent (.str m))
      | none => .ok data
    | .faulty faults =>
      .error (failLine ("Invalid data context in " ++ shortPath path ++ ":\n" ++
        escaped (faultCount faults.length "DataContext")))
  | _ => .error (failLine (shortPath path ++ " must contain a JSON object"))

def loadNodes (setup : Setup) (path : String) : Except GiveUp (Logged NodeInput) := do
  let v ← setup.loadJson path (some "fields")
  .ok (Nodes.read setup.defaultPriority v)

end Setup

/-- What a rule is aimed at, as a cell of a table. -/
def targetCell (rule : Rule) : String :=
  let target :=
    match rule.targetStep with
    | some step => "step " ++ Text.intText step
    | none => (rule.targetField.filter fun f => !f.isEmpty).getD (styled "dim" "-")
  match rule.targetModule.filter fun m => !m.isEmpty with
  | some m => m ++ ": " ++ target
  | none => target

def resultRow (result : RuleResult) : List String :=
  let rule := result.rule
  [Text.intText rule.priority, rule.id,
    rule.action ++ (if rule.knownAction.isSome then "" else " " ++ styled "yellow" "(custom)"),
    targetCell rule, escaped rule.condition.describe]

def ruleRow (rule : Rule) : List String :=
  [Text.intText rule.priority, rule.id, rule.action,
    if rule.isActive then styled "green" "Yes" else styled "red" "No",
    escaped rule.condition.describe]

def issueRow (issue : Issue) : List String :=
  let ids := ", ".intercalate issue.nodeIds
  [styled (if issue.isError then "red" else "yellow") issue.severity.name, issue.kind.title,
    if ids.isEmpty then "-" else ids, escaped issue.message]

def issueTable (title : String) (issues : List Issue) : Block :=
  .table title ["Severity", "Issue", "Field(s)", "Details"] (issues.map issueRow)

def noIssues : Block := .line (styled "green" "No issues found.")

def noRules : Block := .line (styled "yellow" "No rules found.")

def resultsPage (rules : List Rule) (data : FormData) (triggered failed : List RuleResult)
    (showErrors : Bool) : Page :=
  [.line ("Evaluated " ++ Text.natText rules.length ++ " rule(s) against " ++
      Text.natText data.modules.length ++ " module(s)\n")] ++
    (if triggered.isEmpty then [.line (styled "green" "No rules triggered.")]
     else [.table "Triggered Rules" ["Priority", "Rule", "Action", "Target", "Condition"]
      (triggered.map resultRow)]) ++
    if failed.isEmpty || !showErrors then []
    else
      .line ("\n" ++ styled "bold red" ("FAILED: " ++ Text.natText failed.length ++ " rule(s)")) ::
      failed.map fun r =>
        .line ("  " ++ styled "red" r.rule.id ++ ": " ++ escaped (r.error.getD ""))

/-- What a node is shown as in a tree. -/
def nodeLabel (node : Node) : String :=
  match node.type.filter fun t => !t.isEmpty with
  | some type => styled "cyan" node.id ++ " " ++ styled "dim" ("(" ++ type ++ ")")
  | none => styled "cyan" node.id

/-- The lines of the branches of a tree; a label of several lines goes on under
its first one. -/
def branchLines (forest : Forest) (steps : Nat) (indent : String) (placed : List Placed) :
    List String :=
  match steps with
  | 0 => []
  | steps + 1 =>
    placed.zipIdx.flatMap fun (p, i) =>
      let isLast := i + 1 == placed.length
      let below := indent ++ (if isLast then "    " else "│   ")
      let label := (shownLines (nodeLabel p.node)).zipIdx.map fun (l, k) =>
        (if k = 0 then indent ++ (if isLast then "└── " else "├── ") else below) ++ l
      label ++ branchLines forest steps below (forest.childrenOf p.id)

def metricsPage (m : Metrics) : Page :=
  .table "Hierarchy Metrics" ["Metric", "Value"]
    [["Total fields", Text.natText m.totalNodes],
      ["Root fields", Text.natText m.rootNodes],
      ["Max depth", Text.natText m.maxDepth],
      ["Average depth", m.averageDepth.fixedText],
      ["Fields with rules", Text.natText m.conditionalNodes],
      ["Largest group", Text.natText m.largestGroup],
      ["Complexity score", m.complexity.fixedText]] ::
    if m.typeCounts.isEmpty then []
    else [.table "Field Types" ["Type", "Count"]
      ((m.typeCounts.mergeSort fun a b => decide (a.1 ≤ b.1)).map fun e =>
        [e.1, Text.natText e.2])]

def versionPage : Page :=
  [.line (styled "bold" product.name),
    .line (styled "bold" "Version:" ++ " " ++ product.version),
    .line (styled "bold" "Tagline:" ++ " " ++ product.tagline)]

def usagePage : Page :=
  [.line "Usage: formlogic [OPTIONS] COMMAND [ARGS]...", .line "",
    .line (product.name ++ ": " ++ product.tagline)]

/-- A page that shows issues and fails when one of them is an error. -/
def issuesOutcome (issues : List Issue) (page : Page) : Outcome :=
  if issues.isEmpty then .finished 0 [noIssues] []
  else .finished (if Issue.allowed issues then 0 else 1) page []

namespace Command

/-- Runs a command, giving up when something cannot be read. -/
def attempt (setup : Setup) : Command → Except GiveUp (Logged Outcome)
  | .version => .ok ⟨.finished 0 versionPage [], []⟩
  | .evaluateRules rulesFile dataFile module showErrors => do
    let rules ← setup.loadRules rulesFile
    let data ← setup.loadData dataFile module
    if rules.isEmpty then .ok ⟨.finished 0 [noRules] [], []⟩
    else
      match setup.settings with
      | .faulty _ => .error (.crash "ValidationError")
      | .ok settings =>
        let judge := (settings.evaluator none none).judge
        let triggered := judge.triggered data rules
        let failed := judge.failed data rules
        .ok ⟨.finished (if failed.isEmpty then 0 else 1)
          (resultsPage rules data triggered failed showErrors) [], judge.rulesLog data rules⟩
  | .listRules rulesFile all => do
    let rules ← setup.loadRules rulesFile
    let rules := if all then rules else rules.filter (·.isActive)
    if rules.isEmpty then .ok ⟨.finished 0 [noRules] [], []⟩
    else
      let sorted := rules.mergeSort fun a b => decide (a.priority ≤ b.priority)
      .ok ⟨.finished 0
        [.table "Rules" ["Priority", "Rule", "Action", "Active", "Condition"]
          (sorted.map ruleRow),
        .line ("\n" ++ styled "dim" ("Total rules: " ++ Text.natText rules.length))] [], []⟩
  | .validateNodes file structureOnly => do
    let input ← setup.loadNodes file
    let check := if structureOnly then Nodes.structureIssues else Nodes.allIssues
    let issues := input.value.issues check
    let errors := (issues.filter Issue.isError).length
    .ok ⟨issuesOutcome issues
      [issueTable "Issues" issues,
      .line ("\n" ++ styled "dim" (Text.natText errors ++ " error(s), " ++
        Text.natText (issues.length - errors) ++ " warning(s)"))], input.log⟩
  | .validateSteps file => do
    let v ← setup.loadJson file (some "steps")
    .ok ((Steps.check v).map fun issues =>
      issuesOutcome issues [issueTable "Workflow Issues" issues])
  | .fixNodes file output => do
    let input ← setup.loadNodes file
    match input.value with
    | .error cause => .ok ⟨(failLine (escaped cause.message)).outcome, input.log⟩
    | .ok nodes =>
      let repaired := NodeInput.repaired (.ok nodes)
      let lines :=
        if repaired.fixes.isEmpty then [Block.line (styled "green" "Nothing to fix.")]
        else repaired.fixes.map fun fix =>
          .line (styled "green" "Fixed:" ++ " " ++ escaped fix.text)
      let document : Value := .list (repaired.nodes.map fun node => .obj node.schema)
      let log := input.log ++ NodeInput.repairLog (.ok nodes)
      match output with
      | none => .ok ⟨.finished 0 (lines ++ [.document document]) [], log⟩
      | some path =>
        match setup.files.writeError? path with
        | some e => .ok ⟨.crashed e.crash, log⟩
        | none =>
          .ok ⟨.finished 0
            (lines ++ [.line (styled "dim" ("Wrote " ++ Text.natText repaired.nodes.length ++
              " field(s) to " ++ shortPath path))])
            [(shortPath path, Json.write document ++ "\n")], log⟩
  | .showMetrics file => do
    let input ← setup.loadNodes file
    .ok ⟨.finished 0 (metricsPage input.value.metrics) [], input.log ++ input.value.treeLog⟩
  | .showTree file => do
    let input ← setup.loadNodes file
    let tree := input.value.tree
    let branches := branchLines tree.forest (tree.forest.length + 1) "" tree.forest.roots
    .ok ⟨.finished 0 (.line (styled "bold" (fileName file)) :: .verbatim branches ::
      if tree.issues.isEmpty then [] else [issueTable "Issues" tree.issues]) [],
      input.log ++ input.value.treeLog⟩

def run (setup : Setup) (command : Command) : Logged Outcome :=
  match command.attempt setup with
  | .ok outcome => outcome
  | .error e => ⟨e.outcome, []⟩

end Command

def levelNames : List String :=
  ["CRITICAL", "FATAL", "ERROR", "WARN", "WARNING", "INFO", "DEBUG", "NOTSET"]

/-- Why the program cannot start with its settings, if it cannot. -/
def startFailure? (settings : Reading Settings) (verbose : Bool) : Option String :=
  if verbose then none
  else
    match settings with
    | .faulty _ => some "ValidationError"
    | .ok settings =>
      if levelNames.contains (Text.uppered settings.logLevel) then none else some "ValueError"

def run (setup : Setup) (args : List String) : Logged Outcome :=
  match parseCommandLine args with
  | .misuse => ⟨.misuse, []⟩
  | .help => ⟨.finished 0 usagePage [], []⟩
  | .found line =>
    match startFailure? setup.settings line.verbose with
    | some kind => ⟨.crashed kind, []⟩
    | none =>
      match parseCommand line.name line.rest with
      | .misuse => ⟨.misuse, []⟩
      | .help => ⟨.finished 0 usagePage [], []⟩
      | .found command => command.run setup

end Cli

end FormRules
