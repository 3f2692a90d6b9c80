import FormRules.Hierarchy.Repair

/-!
# The forest of a list of nodes

The first node of each id with its repaired parent.  Nodes without a parent are
the roots; roots and the children of a node are sorted by their order, equal
ones as in the list.  The walk goes through the forest level by level, the
descendants of a node are listed depth first.  A traversal meets no node twice,
so the number of nodes bounds each of them.
-/

namespace FormRules

/-- A node and the id of its parent in the forest. -/
structure Placed where
  node : Node
  parent : Option String
deriving DecidableEq

def Placed.id (placed : Placed) : String := placed.node.id

/-- The nodes of a forest, in the order of the list. -/
abbrev Forest := List Placed

namespace Forest

def ofNodes (nodes : List Node) : Forest :=
  let repair := Repair.ofNodes nodes
  (Nodes.firsts nodes).map fun node => ⟨node, repair.parentOf node.id⟩

def ids (forest : Forest) : List String := forest.map Placed.id

/-- Sorts by order; equal ones keep their places. -/
def sortByOrder (placed : List Placed) : List Placed :=
  placed.mergeSort fun a b => decide (a.node.order ≤ b.node.order)

def find? (forest : Forest) (id : String) : Option Placed :=
  List.find? (fun (p : Placed) => p.id == id) forest

def roots (forest : Forest) : List Placed :=
  sortByOrder (forest.filter fun p => p.parent.isNone)

def childrenOf (forest : Forest) (id : String) : List Placed :=
  sortByOrder (forest.filter fun p => p.parent == some id)

/-- The ancestors met in at most `steps` steps up from a parent link. -/
def ancestorsFrom (forest : Forest) (steps : Nat) (parent : Option String) : List Placed :=
  match steps, parent.bind forest.find? with
  | steps + 1, some p => p :: ancestorsFrom forest steps p.parent
  | _, _ => []

/-- The ancestors of a node, its parent first. -/
def ancestorsOf (forest : Forest) (placed : Placed) : List Placed :=
  forest.ancestorsFrom forest.length placed.parent

/-- The number of ancestors of a node; roots have none. -/
def levelOf (forest : Forest) (placed : Placed) : Nat := (forest.ancestorsOf placed).length

def pathOf (forest : Forest) (placed : Placed) : String :=
  ".".intercalate ((forest.ancestorsOf placed).reverse.map Placed.id ++ [placed.id])

/-- Visits pending nodes, each with its level, and after each of them its
descendants. -/
def descendFrom (forest : Forest) (steps : Nat) (pending : List (Placed × Nat)) :
    List (Placed × Nat) :=
  match steps, pending with
  | steps + 1, (p, level) :: rest =>
    (p, level) ::
      descendFrom forest steps ((forest.childrenOf p.id).map (fun c => (c, level + 1)) ++ rest)
  | _, _ => []

/-- The descendants of a node with their levels, given the level of the node:
each before its own descendants, children in their order. -/
def levelsBelow (forest : Forest) (placed : Placed) (level : Nat) : List (Placed × Nat) :=
  forest.descendFrom forest.length
    ((forest.childrenOf placed.id).map fun c => (c, level + 1))

/-- The descendants of a node, depth first. -/
def descendantsOf (forest : Forest) (placed : Placed) : List Placed :=
  (forest.levelsBelow placed 0).map (·.1)

/-- Visits a queue of nodes, putting the children of each at its end. -/
def walkFrom (forest : Forest) (steps : Nat) (queue : List Placed) : List Placed :=
  match steps, queue with
  | steps + 1, p :: rest => p :: walkFrom forest steps (rest ++ forest.childrenOf p.id)
  | _, _ => []

/-- All nodes that can be reached from the roots, level by level. -/
def walk (forest : Forest) : List Placed := forest.walkFrom forest.length forest.roots

def label (forest : Forest) (placed : Placed) : String :=
  let type := (placed.node.type.filter fun t => !t.isEmpty).getD "node"
  "TreeNode(" ++ type ++ " [" ++ placed.id ++ "], children=" ++
    Text.natText (forest.childrenOf placed.id).length ++ ")"

end Forest

end FormRules
