import FormRules.Proofs.ForestShape
import FormRules.Proofs.RepairProgress

/-!
# The forest of a list of nodes

The forest of a list that was read is finite and ordered: it holds the first
node of each id, every node once as a root or a child, each child under the
parent it is linked to unless that link closes a cycle, and no node above
itself.
-/

namespace FormRules

open Relation

namespace Forest

open Nodes

variable {nodes : List Node}

theorem mem_ofNodes_iff {p : Placed} :
    p ∈ ofNodes nodes ↔
      p.node ∈ firsts nodes ∧ p.parent = (Repair.ofNodes nodes).parentOf p.id := by
  unfold ofNodes
  constructor
  · intro hp
    obtain ⟨node, hnode, heq⟩ := List.mem_map.mp hp
    subst heq
    exact ⟨hnode, rfl⟩
  · rintro ⟨hnode, hparent⟩
    refine List.mem_map.mpr ⟨p.node, hnode, ?_⟩
    cases p
    simp_all [Placed.id]

theorem ids_ofNodes (nodes : List Node) : (ofNodes nodes).ids = Nodes.ids nodes := by
  unfold ids ofNodes Nodes.ids
  rw [List.map_map]
  rfl

theorem parent_ofNodes_iff {p : Placed} (hp : p ∈ ofNodes nodes) {id : String} :
    p.parent = some id ↔ KeptLink nodes p.id id := by
  rw [(mem_ofNodes_iff.mp hp).2, ofNodes_parentOf_iff]

/-- In the tree of a list no id comes twice, and every parent is a node of the
tree. -/
theorem ofNodes_wired (nodes : List Node) : (ofNodes nodes).Wired := by
  constructor
  · rw [ids_ofNodes]
    exact nodup_ids nodes
  · intro p hp id hparent
    rw [ids_ofNodes]
    exact ((parent_ofNodes_iff hp).mp hparent).1.1

theorem ChildOf.keptLink {p q : Placed} (h : (ofNodes nodes).ChildOf p q) :
    KeptLink nodes p.id q.id :=
  (parent_ofNodes_iff h.1).mp ((ofNodes_wired nodes).parent?_eq_some_iff.mp h.2).2

/-- Ancestors in the forest are ancestors along the links that are kept. -/
theorem onCycle_of_childOf {p : Placed} (h : TransGen (ofNodes nodes).ChildOf p p) :
    OnCycle (KeptLink nodes) p.id :=
  TransGen.lift Placed.id (fun _ _ hchild => ChildOf.keptLink hchild) p p h

theorem ofNodes_entries (nodes : List Node) :
    (ofNodes nodes).map (fun p => some p.node) = (firsts nodes).map some := by
  unfold ofNodes
  rw [List.map_map]
  rfl

/-- A finite ordered forest over the distinct ids of a list. -/
structure OrderedOver (nodes : List Node) (forest : Forest) : Prop where
  /-- The nodes stand for the positions no earlier node with the same id precedes. -/
  entries : ∃ positions : List Nat, positions.Pairwise (· < ·) ∧
    (∀ i, i ∈ positions ↔ FirstAt nodes i) ∧
    forest.map (fun p => some p.node) = positions.map fun i => nodes[i]?
  distinct : forest.ids.Nodup
  mem_ids_iff : ∀ id, id ∈ forest.ids ↔ ∃ node ∈ nodes, node.id = id
  /-- A parent is the one the node is linked to; only closing links are cut. -/
  parent_iff : ∀ p ∈ forest, ∀ id, p.parent = some id ↔
    LinksTo nodes p.id id ∧ ¬ ClosesCycle (LinksTo nodes) (Nodes.ids nodes) p.id
  resolved : ∀ p ∈ forest, p.parent.isSome → (forest.parent? p).isSome
  placedOnce : (forest.roots ++ forest.flatMap fun p => forest.childrenOf p.id).Perm forest
  walkedOnce : forest.walk.Perm forest
  walkEnds : ∀ steps, forest.length ≤ steps → forest.walkFrom steps forest.roots = forest.walk
  child_iff : ∀ p ∈ forest, ∀ q ∈ forest,
    p ∈ forest.childrenOf q.id ↔ forest.parent? p = some q
  root_iff : ∀ p ∈ forest, p ∈ forest.roots ↔ forest.parent? p = none
  rooted : ∀ p ∈ forest, forest.Rooted p
  acyclic : ∀ p, ¬ TransGen forest.ChildOf p p
  rootsInOrder : forest.InOrder forest.roots
  childrenInOrder : ∀ id, forest.InOrder (forest.childrenOf id)

/-- However a list that was read is linked, its tree holds each id once, below
the parent that the repair kept and without a cycle; roots and children are
listed by order, and where it is equal as in the list. -/
theorem ofNodes_orderedOver {defaultPriority : Reading Int} {v : Value} {nodes : List Node}
    (hread : (Nodes.read defaultPriority v).value = .ok nodes) :
    OrderedOver nodes (ofNodes nodes) := by
  have hseen : SearchedTo nodes = LinksTo nodes :=
    searchedTo_eq_linksTo (read_linkRead hread)
  have hwired : (ofNodes nodes).Wired := ofNodes_wired nodes
  have hacyclic : ∀ p, ¬ TransGen (ofNodes nodes).ChildOf p p :=
    fun p hp => keptLink_acyclic hseen p.id (onCycle_of_childOf hp)
  constructor
  · rw [ofNodes_entries]
    exact exists_first_positions nodes
  · exact hwired.distinct
  · intro id
    rw [ids_ofNodes, mem_ids_iff]
  · intro p hp id
    rw [parent_ofNodes_iff hp]
    unfold KeptLink CutAt
    rw [hseen]
  · intro p hp hsome
    obtain ⟨id, hid⟩ := Option.isSome_iff_exists.mp hsome
    obtain ⟨q, -, hq⟩ := hwired.exists_parent hp hid
    simp [hq]
  · exact hwired.roots_append_children_perm
  · exact hwired.walk_perm hacyclic
  · exact fun steps hsteps => hwired.walkFrom_eq_walk hsteps
  · exact fun p hp q hq => hwired.mem_childrenOf_iff_parent? hp hq
  · exact fun p hp => hwired.mem_roots_iff_parent? hp
  · exact fun p hp => hwired.rooted hacyclic hp
  · exact hacyclic
  · exact inOrder_roots hwired.nodup
  · exact inOrder_childrenOf hwired.nodup

theorem ofNodes_orderedOver_tangled :
    ∃ nodes, (Nodes.read (.ok 100) tangledNodes).value = .ok nodes ∧
      nodes.map Node.id = ["a", "b", "c", "b", " ", "s", "d"] ∧
      OrderedOver nodes (ofNodes nodes) := by
  refine ⟨_, rfl, rfl, ?_⟩
  exact @ofNodes_orderedOver (.ok 100) tangledNodes _ rfl

end Forest

end FormRules
