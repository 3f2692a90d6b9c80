import FormRules.Double.Basic
import FormRules.Hierarchy.Forest

/-!
# Metrics of a forest

Counts and averages over a forest.  Levels are counted on the way down from the
roots.  The complexity of a form weighs its size, its depth, the fields with
rules and the average size of a group.
-/

namespace FormRules

structure Metrics where
  totalNodes : Nat
  rootNodes : Nat
  /-- The deepest level; a forest of roots has depth zero. -/
  maxDepth : Nat
  averageDepth : Double
  /-- The deepest level below each root. -/
  branchDepths : Assoc Nat
  typeCounts : Assoc Nat
  /-- Nodes with at least one readable rule. -/
  conditionalNodes : Nat
  /-- The most children of one node. -/
  largestGroup : Nat
  complexity : Double
deriving DecidableEq

/-- How often each text occurs, in the order of first occurrence. -/
def countsOf (texts : List String) : Assoc Nat :=
  (distinct texts).map fun t => (t, texts.count t)

def sumOf (ns : List Nat) : Nat := ns.foldl (· + ·) 0

def maximum (ns : List Nat) : Nat := ns.foldl max 0

namespace Metrics

def none : Metrics where
  totalNodes := 0
  rootNodes := 0
  maxDepth := 0
  averageDepth := .finite .zero
  branchDepths := []
  typeCounts := []
  conditionalNodes := 0
  largestGroup := 0
  complexity := .finite .zero

/-- The levels of a root and everything below it. -/
def branchLevels (forest : Forest) (root : Placed) : List Nat :=
  0 :: (forest.levelsBelow root 0).map (·.2)

/-- The type a node is counted under. -/
def typeOf (node : Node) : String := (node.type.filter fun t => !t.isEmpty).getD "unknown"

/-- The numbers of children of the nodes that have any. -/
def groupSizes (forest : Forest) : List Nat :=
  (forest.map fun p => (forest.childrenOf p.id).length).filter (0 < ·)

/-- The weighted sum of size, depth, fields with rules and the average group,
to two places. -/
def complexityOf (total depth conditional : Nat) (groups : List Nat) : Double :=
  let average :=
    if groups.isEmpty then .finite .zero else Double.ofRatio false (sumOf groups) groups.length
  let whole := Double.ofInt (total + 5 * depth + 3 * conditional : Nat)
  (whole.plus (average.plus average)).roundedToHundredths

def ofForest (forest : Forest) : Metrics :=
  if forest.isEmpty then none
  else
    let roots := forest.roots
    let depths := roots.map fun root => (root.id, maximum (branchLevels forest root))
    let levels := roots.flatMap (branchLevels forest)
    let maxDepth := maximum (depths.map (·.2))
    let conditional := (forest.filter fun p => !p.node.rules.isEmpty).length
    let groups := groupSizes forest
    { totalNodes := forest.length
      rootNodes := roots.length
      maxDepth := maxDepth
      averageDepth := (Double.ofRatio false (sumOf levels) forest.length).roundedToHundredths
      branchDepths := depths
      typeCounts := countsOf (forest.map fun p => typeOf p.node)
      conditionalNodes := conditional
      largestGroup := maximum groups
      complexity := complexityOf forest.length maxDepth conditional groups }

end Metrics

end FormRules
