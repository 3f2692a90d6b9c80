import FormRules.Proofs.FirstNodes

/-!
# Forests of nodes with the same content

A node may be linked to another parent or be stored in another form without any
other change.  Ids, orders, types, dependencies and rules stay then, and these
are all that the checks of dependencies and rules look at.  A forest is laid out
by the ids, orders and links of its nodes: exchanging its nodes for others with
the same content exchanges them in every traversal, and the metrics of the
forest stay as they are.
-/

namespace FormRules

/-- The nodes agree in all but the parent link and the stored form. -/
structure Node.SameContent (a b : Node) : Prop where
  id_eq : b.id = a.id
  type_eq : b.type = a.type
  order_eq : b.order = a.order
  dependencies_eq : b.dependencies = a.dependencies
  rules_eq : b.rules = a.rules
  payload_eq : b.payload = a.payload
  extra_eq : b.extra = a.extra
  rejected_eq : b.rejected = a.rejected

namespace Node.SameContent

variable {a b c : Node}

theorem setParent (a : Node) (parent : Value) : a.SameContent (a.setParent parent) := by
  constructor <;> rfl

theorem trans (hab : a.SameContent b) (hbc : b.SameContent c) : a.SameContent c where
  id_eq := hbc.id_eq.trans hab.id_eq
  type_eq := hbc.type_eq.trans hab.type_eq
  order_eq := hbc.order_eq.trans hab.order_eq
  dependencies_eq := hbc.dependencies_eq.trans hab.dependencies_eq
  rules_eq := hbc.rules_eq.trans hab.rules_eq
  payload_eq := hbc.payload_eq.trans hab.payload_eq
  extra_eq := hbc.extra_eq.trans hab.extra_eq
  rejected_eq := hbc.rejected_eq.trans hab.rejected_eq

end Node.SameContent

theorem distinctBy_map {α β : Type} {key : β → String} {f : α → β} (xs : List α) :
    distinctBy key (xs.map f) = (distinctBy (fun a => key (f a)) xs).map f := by
  induction xs with
  | nil => rfl
  | cons a rest ih => simp [distinctBy, ih, List.filter_map, Function.comp_def]

/-- The same place, taken by another node. -/
def Placed.onNode (g : Node → Node) (p : Placed) : Placed := ⟨g p.node, p.parent⟩

@[simp] theorem Placed.onNode_parent (g : Node → Node) (p : Placed) :
    (p.onNode g).parent = p.parent := rfl

def Forest.onNodes (g : Node → Node) (forest : Forest) : Forest := forest.map (Placed.onNode g)

section Exchange

variable {g : Node → Node} (hg : ∀ node : Node, node.SameContent (g node))

include hg

theorem Placed.onNode_id (p : Placed) : (p.onNode g).id = p.id := (hg p.node).id_eq

namespace Forest

variable (forest : Forest)

theorem sortByOrder_onNode (placed : List Placed) :
    sortByOrder (placed.map (Placed.onNode g)) = (sortByOrder placed).map (Placed.onNode g) := by
  unfold sortByOrder
  refine (List.map_mergeSort fun p _ q _ => ?_).symm
  simp [Placed.onNode, (hg _).order_eq]

theorem roots_onNodes : (forest.onNodes g).roots = forest.roots.map (Placed.onNode g) := by
  unfold roots onNodes
  rw [List.filter_map, sortByOrder_onNode hg]
  rfl

theorem childrenOf_onNodes (id : String) :
    (forest.onNodes g).childrenOf id = (forest.childrenOf id).map (Placed.onNode g) := by
  unfold childrenOf onNodes
  rw [List.filter_map, sortByOrder_onNode hg]
  rfl

theorem descendFrom_onNodes (steps : Nat) (pending : List (Placed × Nat)) :
    (forest.onNodes g).descendFrom steps (pending.map (Prod.map (Placed.onNode g) id)) =
      (forest.descendFrom steps pending).map (Prod.map (Placed.onNode g) id) := by
  induction steps generalizing pending with
  | zero => simp [descendFrom]
  | succ steps ih =>
      cases pending with
      | nil => simp [descendFrom]
      | cons visit rest =>
          have hpending :
              (((forest.onNodes g).childrenOf (visit.1.onNode g).id).map
                  fun c => (c, visit.2 + 1)) ++ rest.map (Prod.map (Placed.onNode g) id) =
                (((forest.childrenOf visit.1.id).map fun c => (c, visit.2 + 1)) ++ rest).map
                  (Prod.map (Placed.onNode g) id) := by
            rw [Placed.onNode_id hg, childrenOf_onNodes hg]
            simp [Function.comp_def]
          simp only [List.map_cons, descendFrom, Prod.map, id_eq]
          rw [hpending, ih]

theorem levelsBelow_onNodes (p : Placed) (level : Nat) :
    (forest.onNodes g).levelsBelow (p.onNode g) level =
      (forest.levelsBelow p level).map (Prod.map (Placed.onNode g) id) := by
  have hlength : (forest.onNodes g).length = forest.length := List.length_map _
  unfold levelsBelow
  rw [hlength, ← descendFrom_onNodes hg, Placed.onNode_id hg, childrenOf_onNodes hg]
  simp [Function.comp_def]

end Forest

namespace Metrics

theorem branchLevels_onNodes (forest : Forest) (root : Placed) :
    branchLevels (forest.onNodes g) (root.onNode g) = branchLevels forest root := by
  unfold branchLevels
  rw [Forest.levelsBelow_onNodes hg]
  simp [Function.comp_def]

theorem groupSizes_onNodes (forest : Forest) :
    groupSizes (forest.onNodes g) = groupSizes forest := by
  unfold groupSizes
  simp only [Forest.childrenOf_onNodes hg, List.length_map]
  simp [Forest.onNodes, Function.comp_def, Placed.onNode_id hg]

/-- The metrics look at nothing that nodes of the same content differ in. -/
theorem ofForest_onNodes (forest : Forest) : ofForest (forest.onNodes g) = ofForest forest := by
  have hlength : (forest.onNodes g).length = forest.length := List.length_map _
  have htypes : (forest.onNodes g).map (fun p => typeOf p.node) =
      forest.map fun p => typeOf p.node := by
    simp [Forest.onNodes, Function.comp_def, Placed.onNode, typeOf, (hg _).type_eq]
  have hconditional : ((forest.onNodes g).filter fun p => !p.node.rules.isEmpty).length =
      (forest.filter fun p => !p.node.rules.isEmpty).length := by
    simp [Forest.onNodes, List.filter_map, Function.comp_def, Placed.onNode, (hg _).rules_eq]
  have hdepths : (forest.onNodes g).roots.map
        (fun root => (root.id, maximum (branchLevels (forest.onNodes g) root))) =
      forest.roots.map fun root => (root.id, maximum (branchLevels forest root)) := by
    rw [Forest.roots_onNodes hg]
    simp [Function.comp_def, Placed.onNode_id hg, branchLevels_onNodes hg]
  have hlevels : (forest.onNodes g).roots.flatMap (branchLevels (forest.onNodes g)) =
      forest.roots.flatMap (branchLevels forest) := by
    rw [Forest.roots_onNodes hg, List.flatMap_map]
    simp [branchLevels_onNodes hg]
  have hroots : (forest.onNodes g).roots.length = forest.roots.length := by
    rw [Forest.roots_onNodes hg, List.length_map]
  have hempty : (forest.onNodes g).isEmpty = forest.isEmpty := List.isEmpty_map
  unfold ofForest
  simp only [hlength, htypes, hconditional, hdepths, hlevels, hroots, hempty,
    groupSizes_onNodes hg]

end Metrics

end Exchange

/-! ## Checks that look at no link -/

namespace Nodes

variable {nodes out : List Node} {g : Node → Node}

/-- The first nodes of the second list are those of the first with the same
content. -/
def FirstsBy (g : Node → Node) (nodes out : List Node) : Prop :=
  firsts out = (firsts nodes).map g ∧ ∀ node : Node, node.SameContent (g node)

theorem firstsBy_map (hg : ∀ node : Node, node.SameContent (g node)) (nodes : List Node) :
    FirstsBy g nodes (nodes.map g) := by
  refine ⟨?_, hg⟩
  unfold firsts
  rw [distinctBy_map]
  simp only [(hg _).id_eq]

namespace FirstsBy

theorem trans {f : Node → Node} {again : List Node} (hf : FirstsBy f nodes out)
    (hg : FirstsBy g out again) : FirstsBy (g ∘ f) nodes again := by
  refine ⟨?_, fun node => (hf.2 node).trans (hg.2 (f node))⟩
  rw [hg.1, hf.1, List.map_map]

theorem ids_eq (h : FirstsBy g nodes out) : ids out = ids nodes := by
  unfold ids
  rw [h.1, List.map_map]
  exact List.map_congr_left fun node _ => (h.2 node).id_eq

theorem dependencyIssues_eq (h : FirstsBy g nodes out) :
    dependencyIssues out = dependencyIssues nodes := by
  have hdependencies : dependencies out = dependencies nodes := by
    unfold dependencies
    rw [h.1]
    simp [Function.comp_def, (h.2 _).id_eq, (h.2 _).dependencies_eq]
  unfold dependencyIssues
  rw [hdependencies, h.ids_eq]

theorem ruleIssues_eq (h : FirstsBy g nodes out) : ruleIssues out = ruleIssues nodes := by
  unfold ruleIssues
  rw [h.ids_eq, h.1, List.flatMap_map]
  simp [(h.2 _).id_eq, (h.2 _).rules_eq, (h.2 _).rejected_eq]

end FirstsBy

end Nodes

end FormRules
