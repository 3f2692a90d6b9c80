import FormRules.Condition.Walk
import FormRules.Distinct
import FormRules.Hierarchy.Issue
import FormRules.Reference

/-!
# Checking lists of nodes

Three checks look at parent links, at the dependencies of computed fields, and
at the rules attached to nodes.  Where an id occurs more than once, the first
node with it counts and the others are only reported as duplicates.
-/

namespace FormRules

namespace Nodes

/-- The first node of each id. -/
def firsts (nodes : List Node) : List Node := distinctBy Node.id nodes

/-- The ids of a list of nodes, in the order of their first occurrence. -/
def ids (nodes : List Node) : List String := (firsts nodes).map Node.id

/-- The ids the nodes name as their parents. -/
def parents (nodes : List Node) : Assoc (Option String) :=
  (firsts nodes).map fun node => (node.id, node.parentId?)

def dependencies (nodes : List Node) : Assoc (List String) :=
  (firsts nodes).map fun node => (node.id, node.dependencies)

def occurrences (nodes : List Node) (id : String) : Nat :=
  (nodes.filter fun node => node.id == id).length

def duplicateIssues (nodes : List Node) : List Issue :=
  (ids nodes).filterMap fun id =>
    if 1 < occurrences nodes id then some (.duplicateId id (occurrences nodes id)) else none

/-- What is wrong with the id of a node, or with its parent link taken by
itself. -/
def linkIssues (ids : List String) (node : Node) : List Issue :=
  (if Text.isBlank node.id then [.emptyId node.id] else []) ++
    if node.parentId? = some node.id then [.selfReference node.id]
    else ((node.strayParent? ids).map (.orphanParent node.id ·)).toList

/-- A node whose chain of parents runs into a cycle; a node that is its own
parent is reported as such instead. -/
def cycleIssue? (links : Graph) (node : Node) : Option Issue :=
  if node.parentId? = some node.id then none
  else (links.findCycle node.id).map fun path => .circularReference node.id path

def structureIssues (nodes : List Node) : List Issue :=
  let links := Graph.ofParents (parents nodes)
  duplicateIssues nodes ++ (firsts nodes).flatMap (linkIssues (ids nodes)) ++
    (firsts nodes).filterMap (cycleIssue? links)

def dependencyIssuesOf (ids : List String) (links : Graph) (id : String)
    (dependencies : List String) : List Issue :=
  if dependencies.isEmpty then []
  else
    (dependencies.filter fun d => !ids.contains d).map (.unknownDependency id ·) ++
      ((links.findCycle id).map (.circularDependency id ·)).toList

def dependencyIssues (nodes : List Node) : List Issue :=
  let links := Graph.ofLists (dependencies nodes)
  (dependencies nodes).flatMap fun e => dependencyIssuesOf (ids nodes) links e.1 e.2

/-- A reference of a rule that names no module and no known field. -/
def unknownField? (ids : List String) (reference : String) : Option String :=
  match Reference.read? reference with
  | some ⟨none, field⟩ => if ids.contains field then none else some field
  | _ => none

def ruleIssuesOf (ids : List String) (id : String) (rule : Rule) : List Issue :=
  rule.condition.unsupportedOperators.map (.unsupportedOperator id rule.id ·) ++
    (match rule.targetField with
      | some target =>
        if target.isEmpty || ids.contains target then []
        else [.unknownRuleTarget id rule.id target]
      | none => []) ++
    (rule.condition.references.filterMap (unknownField? ids)).map
      (.unknownConditionField id rule.id ·)

def ruleIssues (nodes : List Node) : List Issue :=
  (firsts nodes).flatMap fun node =>
    node.rejected.map (.rejectedRule node.id ·) ++
      node.rules.flatMap (ruleIssuesOf (ids nodes) node.id)

def allIssues (nodes : List Node) : List Issue :=
  structureIssues nodes ++ dependencyIssues nodes ++ ruleIssues nodes

end Nodes

end FormRules
