import FormRules.Hierarchy.Metrics
import FormRules.Hierarchy.Workflow
import FormRules.Log

/-!
# Checks on stored lists

What callers ask of a list of nodes or steps, given as read or as stored.  A
stored list is read all or none: one malformed node makes every check report
just that, and trees, repairs and metrics come out empty.  Each operation is
paired with the records it makes.
-/

namespace FormRules

namespace Nodes

/-- Reads nodes from a position on, up to the first malformed one, which is
reported with the number of its faults. -/
def readFrom (defaultPriority : Reading Int) (start : Nat) :
    List Value → Except (Nat × Nat) (List Node)
  | [] => .ok []
  | v :: rest =>
    match Node.read defaultPriority v with
    | .ok node => (readFrom defaultPriority (start + 1) rest).map (node :: ·)
    | .faulty faults => .error (start, faults.length)

/-- Reads a stored list of nodes; null stands for no nodes. -/
def read (defaultPriority : Reading Int) (v : Value) : Logged (Except InputError (List Node)) :=
  match v with
  | .null => ⟨.ok [], []⟩
  | .list items =>
    match readFrom defaultPriority 0 items with
    | .ok nodes => ⟨.ok nodes, []⟩
    | .error (position, faults) =>
      ⟨.error (.malformedNode position),
        [⟨.warning, .hierarchy, "Malformed node at position " ++ Text.natText position ++ ": " ++
          Text.natText faults ++ " error(s)"⟩]⟩
  | v => ⟨.error (.notNodes v.typeName), []⟩

def fixNotes (nodes : List Node) : List LogRecord :=
  (fixes nodes).map fun fix => ⟨.warning, .hierarchy, fix.note⟩

end Nodes

/-- A list of nodes as a check receives it. -/
abbrev NodeInput := Except InputError (List Node)

structure Tree where
  forest : Forest
  issues : List Issue

structure Repaired where
  nodes : List Node
  fixes : List Fix

namespace NodeInput

/-- The issues one check finds; unusable input is the only issue of itself. -/
def issues (check : List Node → List Issue) : NodeInput → List Issue
  | .ok nodes => check nodes
  | .error cause => [.invalidInput cause]

def tree : NodeInput → Tree
  | .ok nodes => ⟨Forest.ofNodes nodes, Nodes.structureIssues nodes⟩
  | .error cause => ⟨[], [.invalidInput cause]⟩

def treeLog : NodeInput → List LogRecord
  | .ok nodes =>
    let forest := Forest.ofNodes nodes
    Nodes.fixNotes nodes ++
      [⟨.debug, .hierarchy, "Built hierarchy: " ++ Text.natText forest.length ++ " node(s), " ++
        Text.natText forest.roots.length ++ " root(s), " ++
        Text.natText (Nodes.structureIssues nodes).length ++ " issue(s)"⟩]
  | .error _ => []

def repaired : NodeInput → Repaired
  | .ok nodes => ⟨Nodes.repaired nodes, Nodes.fixes nodes⟩
  | .error _ => ⟨[], []⟩

def repairLog : NodeInput → List LogRecord
  | .ok nodes =>
    let count := (Nodes.fixes nodes).length
    Nodes.fixNotes nodes ++
      (if count = 0 then [⟨.debug, .hierarchy, "No hierarchy issues to fix"⟩]
       else [⟨.info, .hierarchy, "Applied " ++ Text.natText count ++ " hierarchy fix(es)"⟩])
  | .error _ => []

def metrics (input : NodeInput) : Metrics := Metrics.ofForest input.tree.forest

end NodeInput

namespace Steps

/-- The issues of a stored list of steps, and the record of an unusable one. -/
def check (v : Value) : Logged (List Issue) :=
  match read v with
  | .ok steps => ⟨issues steps, []⟩
  | .error cause => ⟨[.invalidInput cause], [⟨.warning, .hierarchy, cause.message⟩]⟩

end Steps

inductive Check where
  | links
  | dependencies
  | rules
  | all
  | tree
  | repair
  | metrics
deriving DecidableEq, Repr

inductive CheckResult where
  | issues (issues : List Issue)
  | tree (tree : Tree)
  | repaired (repaired : Repaired)
  | metrics (metrics : Metrics)

namespace Check

def answer (check : Check) (input : NodeInput) : Logged CheckResult :=
  match check with
  | .links => ⟨.issues (input.issues Nodes.structureIssues), []⟩
  | .dependencies => ⟨.issues (input.issues Nodes.dependencyIssues), []⟩
  | .rules => ⟨.issues (input.issues Nodes.ruleIssues), []⟩
  | .all => ⟨.issues (input.issues Nodes.allIssues), []⟩
  | .tree => ⟨.tree input.tree, input.treeLog⟩
  | .repair => ⟨.repaired input.repaired, input.repairLog⟩
  | .metrics => ⟨.metrics input.metrics, input.treeLog⟩

def answerStored (check : Check) (defaultPriority : Reading Int) (v : Value) :
    Logged CheckResult :=
  (Nodes.read defaultPriority v).andThen check.answer

end Check

end FormRules
