import FormRules.Hierarchy.Validation

/-!
# Repairing parent links

A repair clears the parent links that lead to no node and then breaks cycles:
going through the ids in order, whenever a cycle can still be reached it clears
the link that closes it.  Later searches see the links already cleared, so each
cycle is broken once.  Nothing else of a node changes, and later nodes with an
id that occurred before are left alone.
-/

namespace FormRules

/-- A change a repair makes. -/
inductive Fix where
  /-- The parent of a node is no node of the list. -/
  | clearedOrphan (id parent : String)
  /-- The parent link of a node closes the cycle found on the path. -/
  | brokeCycle (id parent : String) (path : List String)
deriving DecidableEq, Repr

def Fix.text : Fix → String
  | clearedOrphan id parent =>
    "Cleared invalid parent reference '" ++ parent ++ "' from field '" ++ id ++ "'"
  | brokeCycle id parent _ =>
    "Cleared parent '" ++ parent ++ "' from field '" ++ id ++ "' to break circular reference"

/-- A fix as it is noted while it is made. -/
def Fix.note : Fix → String
  | clearedOrphan id parent =>
    "Clearing invalid parent reference '" ++ parent ++ "' from field '" ++ id ++ "'"
  | brokeCycle id _ path =>
    "Breaking circular reference at field '" ++ id ++ "' (" ++ Graph.pathText path ++ ")"

/-- Parent links and the fixes made to them so far. -/
structure Repair where
  parents : Assoc (Option String)
  fixes : List Fix

namespace Repair

def orphanFix? (ids : List String) (node : Node) : Option Fix :=
  (node.strayParent? ids).map (.clearedOrphan node.id ·)

/-- The parent links of nodes, without those that lead to none of them. -/
def clearOrphans (nodes : List Node) : Repair :=
  let ids := nodes.map Node.id
  { parents := nodes.map fun node => (node.id, node.parentId?.filter ids.contains)
    fixes := nodes.filterMap (orphanFix? ids) }

/-- The id whose link closes the cycle a path ends with: the last but one. -/
def closingId (path : List String) : String := path.dropLast.getLast?.getD ""

/-- Breaks the cycle that can be reached from an id, if any. -/
def breakCycleFrom (repair : Repair) (id : String) : Repair :=
  match (Graph.ofParents repair.parents).findCycle id with
  | none => repair
  | some path =>
    let closing := closingId path
    let parent := ((Assoc.get? repair.parents closing).getD none).getD ""
    { parents := repair.parents.set closing none
      fixes := repair.fixes ++ [.brokeCycle closing parent path] }

def ofNodes (nodes : List Node) : Repair :=
  (Nodes.ids nodes).foldl breakCycleFrom (clearOrphans (Nodes.firsts nodes))

def parentOf (repair : Repair) (id : String) : Option String :=
  (Assoc.get? repair.parents id).getD none

/-- Gives the first node of each id its repaired parent; `before` holds the ids
of the nodes in front. -/
def applyFrom (repair : Repair) (before : List String) : List Node → List Node
  | [] => []
  | node :: rest =>
    let parent := Value.ofText? (repair.parentOf node.id)
    let node' :=
      if before.contains node.id || node.parent == parent then node else node.setParent parent
    node' :: applyFrom repair (node.id :: before) rest

def apply (repair : Repair) (nodes : List Node) : List Node := repair.applyFrom [] nodes

end Repair

namespace Nodes

/-- The fixes a list of nodes needs. -/
def fixes (nodes : List Node) : List Fix := (Repair.ofNodes nodes).fixes

/-- The nodes with their parent links repaired. -/
def repaired (nodes : List Node) : List Node := (Repair.ofNodes nodes).apply nodes

end Nodes

end FormRules
