import FormRules.Hierarchy.Check
import FormRules.Proofs.ForestLevels
import FormRules.Proofs.MovedNodes
import FormRules.Proofs.ReportedDefects
import FormRules.Proofs.TreeShape

/-!
# What the metrics of a list measure

The metrics of a list are computed on its forest: how many nodes and roots there
are, the deepest level of all and below each root, the average level, how many
nodes have each type, and the largest group of children.  Levels are counted on
the way down, and the average takes in the level of each node once.

Without equal ids and cycles the forest of a reordered list has the same nodes
with the same parents.  Sums and largest values do not depend on the order in
which they are taken, so the metrics are the same; only the entries of the depths
and of the type counts may stand in another order.
-/

namespace FormRules

open Relation

/-! ## Sums, largest values and counts -/

theorem sumOf_eq_sum (ns : List Nat) : sumOf ns = ns.sum :=
  List.sum_eq_foldl.symm

theorem maximum_cons (n : Nat) (ns : List Nat) : maximum (n :: ns) = max n (maximum ns) := by
  unfold maximum
  rw [List.foldl_cons, Nat.max_comm, List.foldl_assoc]

theorem maximum_append (ns more : List Nat) :
    maximum (ns ++ more) = max (maximum ns) (maximum more) := by
  induction ns with
  | nil => simp [maximum]
  | cons n rest ih => rw [List.cons_append, maximum_cons, maximum_cons, ih, max_assoc]

theorem maximum_perm {ns ms : List Nat} (h : ns.Perm ms) : maximum ns = maximum ms :=
  h.foldl_op_eq

theorem maximum_flatMap {α : Type} (f : α → List Nat) (xs : List α) :
    maximum (xs.flatMap f) = maximum (xs.map fun a => maximum (f a)) := by
  induction xs with
  | nil => rfl
  | cons a rest ih => rw [List.flatMap_cons, List.map_cons, maximum_append, maximum_cons, ih]

/-- The number is the largest a function takes on a list; on an empty one it is zero. -/
structure Largest {α : Type} (xs : List α) (f : α → Nat) (n : Nat) : Prop where
  bound : ∀ a ∈ xs, f a ≤ n
  attained : (∃ a ∈ xs, f a = n) ∨ xs = [] ∧ n = 0

namespace Largest

variable {α : Type} {xs ys : List α} {f : α → Nat} {m n : Nat}

theorem maximum_map (xs : List α) (f : α → Nat) : Largest xs f (maximum (xs.map f)) := by
  induction xs with
  | nil => exact ⟨by simp, .inr ⟨rfl, rfl⟩⟩
  | cons a rest ih =>
      rw [List.map_cons, maximum_cons]
      constructor
      · intro b hb
        rcases List.mem_cons.mp hb with heq | hrest
        · exact heq ▸ le_max_left _ _
        · exact (ih.bound b hrest).trans (le_max_right _ _)
      · left
        rcases le_total (f a) (maximum (rest.map f)) with hle | hle
        · rw [max_eq_right hle]
          rcases ih.attained with ⟨b, hb, heq⟩ | ⟨-, hzero⟩
          · exact ⟨b, List.mem_cons_of_mem a hb, heq⟩
          · exact ⟨a, List.mem_cons_self, by omega⟩
        · rw [max_eq_left hle]
          exact ⟨a, List.mem_cons_self, rfl⟩

theorem of_mem_iff (hmem : ∀ a, a ∈ xs ↔ a ∈ ys) (h : Largest xs f n) : Largest ys f n := by
  constructor
  · exact fun a ha => h.bound a ((hmem a).mpr ha)
  · rcases h.attained with ⟨a, ha, heq⟩ | ⟨hnil, hzero⟩
    · exact .inl ⟨a, (hmem a).mp ha, heq⟩
    · refine .inr ⟨List.eq_nil_iff_forall_not_mem.mpr fun a ha => ?_, hzero⟩
      have ha' := (hmem a).mpr ha
      simp [hnil] at ha'

theorem unique (hm : Largest xs f m) (hn : Largest xs f n) : m = n := by
  have hle : ∀ {m n}, Largest xs f m → Largest xs f n → m ≤ n := by
    intro m n hm hn
    rcases hm.attained with ⟨a, ha, heq⟩ | ⟨-, hzero⟩
    · exact heq ▸ hn.bound a ha
    · omega
  exact le_antisymm (hle hm hn) (hle hn hm)

end Largest

theorem nodup_distinct (texts : List String) : (distinct texts).Nodup :=
  pairwise_distinctBy id texts

/-- Every text is counted under itself. -/
theorem sum_countsOf (texts : List String) :
    ((countsOf texts).map Prod.snd).sum = texts.length := by
  have hperm : (distinct texts).Perm texts.dedup := by
    apply (List.perm_ext_iff_of_nodup (nodup_distinct texts) texts.nodup_dedup).mpr
    intro text
    rw [mem_distinct_iff, List.mem_dedup]
  have hcounts : (countsOf texts).map Prod.snd = (distinct texts).map fun t => texts.count t := by
    unfold countsOf
    rw [List.map_map]
    rfl
  rw [hcounts, (hperm.map _).sum_eq]
  exact List.sum_map_count_dedup_eq_length texts

theorem countsOf_perm {texts others : List String} (h : others.Perm texts) :
    (countsOf others).Perm (countsOf texts) := by
  have hperm : (distinct others).Perm (distinct texts) := by
    apply (List.perm_ext_iff_of_nodup (nodup_distinct others) (nodup_distinct texts)).mpr
    intro text
    rw [mem_distinct_iff, mem_distinct_iff, h.mem_iff]
  unfold countsOf
  simp only [h.count_eq]
  exact hperm.map _

/-! ## The metrics of a forest -/

namespace Metrics

open Forest

variable {forest : Forest}

theorem ofForest_of_ne_nil (h : forest ≠ []) : ofForest forest =
    { totalNodes := forest.length
      rootNodes := forest.roots.length
      maxDepth := maximum ((forest.roots.map forest.depthEntry).map Prod.snd)
      averageDepth := (Double.ofRatio false
        (sumOf (forest.roots.flatMap (branchLevels forest))) forest.length).roundedToHundredths
      branchDepths := forest.roots.map forest.depthEntry
      typeCounts := countsOf (forest.map fun p => typeOf p.node)
      conditionalNodes := (forest.filter fun p => !p.node.rules.isEmpty).length
      largestGroup := maximum (groupSizes forest)
      complexity := complexityOf forest.length
        (maximum ((forest.roots.map forest.depthEntry).map Prod.snd))
        (forest.filter fun p => !p.node.rules.isEmpty).length (groupSizes forest) } := by
  have hfull : ¬ forest.isEmpty = true := by simpa using h
  unfold ofForest
  rw [if_neg hfull]
  rfl

theorem largest_groupSizes (forest : Forest) :
    Largest forest (fun p => (forest.childrenOf p.id).length) (maximum (groupSizes forest)) := by
  -- Nodes without children are left out, and zero is what they would add.
  have hfilter : ∀ ns : List Nat, maximum (ns.filter (0 < ·)) = maximum ns := by
    intro ns
    induction ns with
    | nil => rfl
    | cons n rest ih =>
        rw [maximum_cons]
        by_cases hpos : 0 < n
        · rw [List.filter_cons_of_pos (by simpa using hpos), maximum_cons, ih]
        · have hzero : n = 0 := by omega
          rw [List.filter_cons_of_neg (by simpa using hpos), ih, hzero, Nat.zero_max]
  unfold groupSizes
  rw [hfilter]
  exact Largest.maximum_map forest _

/-- What the metrics of a forest say of the nodes in it and of the list it is made of. -/
structure Measures (nodes : List Node) (forest : Forest) (metrics : Metrics) : Prop where
  totalNodes : metrics.totalNodes = (nodes.map Node.id).toFinset.card
  rootNodes : metrics.rootNodes = forest.roots.length
  branches : metrics.branchDepths.keys = forest.roots.map Placed.id
  branchesOnce : metrics.branchDepths.keys.Nodup
  branchDepth : ∀ root ∈ forest.roots, ∃ depth,
    Assoc.get? metrics.branchDepths root.id = some depth ∧
      Largest (forest.branchOf root) forest.levelOf depth
  maxDepth : Largest forest forest.levelOf metrics.maxDepth
  /-- Looking up the levels of the parents on the way never fails, and gives the
  level of each node once and the depths of the branches. -/
  levels : ∃ levels, forest.levelTable? = some ⟨levels, metrics.branchDepths⟩ ∧
    levels.Perm (forest.map fun p => (p.id, forest.levelOf p)) ∧
      (forest ≠ [] → metrics.averageDepth =
        (Double.ofRatio false (levels.map Prod.snd).sum forest.length).roundedToHundredths)
  typeCounts : (metrics.typeCounts.map Prod.snd).sum = metrics.totalNodes
  largestGroup : Largest forest (fun p => (forest.childrenOf p.id).length) metrics.largestGroup
  children : (forest.map fun p => (forest.childrenOf p.id).length).sum + metrics.rootNodes =
    metrics.totalNodes
  empty : forest = [] → metrics = none

section Acyclic

variable (h : forest.Wired) (hacyclic : ∀ p, ¬ TransGen forest.ChildOf p p)

include h

theorem sum_children_add_roots :
    (forest.map fun p => (forest.childrenOf p.id).length).sum + forest.roots.length =
      forest.length := by
  have hlength := h.roots_append_children_perm.length_eq
  rw [List.length_append, List.length_flatMap] at hlength
  omega

theorem nodup_keys_depths : (Assoc.keys (forest.roots.map forest.depthEntry)).Nodup := by
  rw [keys_depthEntries]
  exact h.nodup_ids_roots

include hacyclic

/-- The depth noted for a root is the deepest level in its branch. -/
theorem largest_branch {root : Placed} (hroot : root ∈ forest.roots) :
    Largest (forest.branchOf root) forest.levelOf (maximum (branchLevels forest root)) := by
  rw [h.branchLevels_eq hacyclic hroot]
  exact Largest.maximum_map _ _

theorem flatMap_branchLevels : forest.roots.flatMap (branchLevels forest) =
    (forest.roots.flatMap forest.branchOf).map forest.levelOf := by
  rw [List.map_flatMap]
  exact List.flatMap_congr fun root hroot => h.branchLevels_eq hacyclic hroot

theorem largest_depths :
    Largest forest forest.levelOf
      (maximum ((forest.roots.map forest.depthEntry).map Prod.snd)) := by
  have hdepths : (forest.roots.map forest.depthEntry).map Prod.snd =
      forest.roots.map fun root => maximum (branchLevels forest root) := by
    rw [List.map_map]
    rfl
  rw [hdepths, ← maximum_flatMap, flatMap_branchLevels h hacyclic]
  exact (Largest.maximum_map _ _).of_mem_iff fun p => (h.branches_perm hacyclic).mem_iff

theorem branchLevels_perm :
    (forest.roots.flatMap (branchLevels forest)).Perm (forest.map forest.levelOf) := by
  rw [flatMap_branchLevels h hacyclic]
  exact (h.branches_perm hacyclic).map _

/-- The metrics of a forest say what a count over its nodes, levels and branches
says. -/
theorem ofForest_measures {nodes : List Node}
    (hids : forest.length = (nodes.map Node.id).toFinset.card) :
    Measures nodes forest (ofForest forest) := by
  have hlookup : ∀ root ∈ forest.roots, ∃ depth,
      Assoc.get? (forest.roots.map forest.depthEntry) root.id = some depth ∧
        Largest (forest.branchOf root) forest.levelOf depth := by
    intro root hroot
    exact ⟨_, Assoc.get?_of_mem (nodup_keys_depths h) (List.mem_map_of_mem hroot),
      largest_branch h hacyclic hroot⟩
  have hnoted : ((forest.roots.flatMap forest.branchOf).map forest.levelEntry).map Prod.snd =
      forest.roots.flatMap (branchLevels forest) := by
    rw [List.map_map, flatMap_branchLevels h hacyclic]
    rfl
  by_cases hnil : forest = []
  · subst hnil
    have hroots : roots [] = [] := List.mergeSort_nil
    constructor
    · exact hids
    · rw [hroots]
      rfl
    · rw [hroots]
      rfl
    · exact List.nodup_nil
    · simp [hroots]
    · exact ⟨by simp, .inr ⟨rfl, rfl⟩⟩
    · refine ⟨[], ?_, .refl _, fun hne => absurd rfl hne⟩
      unfold levelTable?
      rw [hroots]
      rfl
    · rfl
    · exact largest_groupSizes []
    · rfl
    · exact fun _ => rfl
  · rw [ofForest_of_ne_nil hnil]
    constructor
    · exact hids
    · rfl
    · exact keys_depthEntries _
    · exact nodup_keys_depths h
    · exact hlookup
    · exact largest_depths h hacyclic
    · refine ⟨_, h.levelTable?_eq hacyclic, (h.branches_perm hacyclic).map _, fun _ => ?_⟩
      dsimp only
      rw [sumOf_eq_sum, hnoted]
    · dsimp only
      rw [sum_countsOf, List.length_map]
    · exact largest_groupSizes forest
    · exact sum_children_add_roots h
    · exact fun hempty => absurd hempty hnil

end Acyclic

/-! ## The order of the list -/

/-- The same metrics, but for the order of the entries by root and by type. -/
structure SameUpToOrder (a b : Metrics) : Prop where
  totalNodes : a.totalNodes = b.totalNodes
  rootNodes : a.rootNodes = b.rootNodes
  maxDepth : a.maxDepth = b.maxDepth
  averageDepth : a.averageDepth = b.averageDepth
  branchDepths : a.branchDepths.Perm b.branchDepths
  typeCounts : a.typeCounts.Perm b.typeCounts
  conditionalNodes : a.conditionalNodes = b.conditionalNodes
  largestGroup : a.largestGroup = b.largestGroup
  complexity : a.complexity = b.complexity

end Metrics

namespace Forest

section Reordered

variable {forest other : Forest} (hperm : other.Perm forest) (h : forest.Wired)

include hperm

theorem roots_perm : other.roots.Perm forest.roots := by
  unfold roots sortByOrder
  exact (List.mergeSort_perm _ _).trans ((hperm.filter _).trans (List.mergeSort_perm _ _).symm)

theorem childrenOf_perm (id : String) : (other.childrenOf id).Perm (forest.childrenOf id) := by
  unfold childrenOf sortByOrder
  exact (List.mergeSort_perm _ _).trans ((hperm.filter _).trans (List.mergeSort_perm _ _).symm)

include h

theorem Wired.of_perm : other.Wired := by
  have hids : other.ids.Perm forest.ids := hperm.map Placed.id
  constructor
  · exact hids.nodup_iff.mpr h.distinct
  · intro p hp id hparent
    exact hids.mem_iff.mpr (h.resolved p (hperm.mem_iff.mp hp) id hparent)

theorem find?_eq_of_perm : other.find? = forest.find? := by
  funext id
  apply Option.ext
  intro p
  rw [(h.of_perm hperm).find?_eq_some_iff, h.find?_eq_some_iff, hperm.mem_iff]

theorem childOf_eq_of_perm : other.ChildOf = forest.ChildOf := by
  funext p q
  unfold ChildOf parent?
  rw [find?_eq_of_perm hperm h, hperm.mem_iff]

theorem levelOf_eq_of_perm : other.levelOf = forest.levelOf := by
  have hclimb : ∀ steps parent,
      other.ancestorsFrom steps parent = forest.ancestorsFrom steps parent := by
    intro steps
    induction steps with
    | zero => exact fun parent => rfl
    | succ steps ih =>
        intro parent
        unfold ancestorsFrom
        rw [find?_eq_of_perm hperm h]
        cases parent.bind forest.find? with
        | none => rfl
        | some p => exact congrArg (p :: ·) (ih p.parent)
  funext p
  unfold levelOf ancestorsOf
  rw [hclimb, hperm.length_eq]

theorem depthEntry_eq_of_perm (hacyclic : ∀ p, ¬ TransGen forest.ChildOf p p) {root : Placed}
    (hroot : root ∈ forest.roots) : other.depthEntry root = forest.depthEntry root := by
  have hmem := (mem_roots_iff.mp hroot).1
  have hchild := childOf_eq_of_perm hperm h
  have hacyclic' : ∀ p, ¬ TransGen other.ChildOf p p := by rwa [hchild]
  have hwired := h.of_perm hperm
  have hother := Metrics.largest_branch hwired hacyclic' ((roots_perm hperm).mem_iff.mpr hroot)
  have hbranch : ∀ p, p ∈ other.branchOf root ↔ p ∈ forest.branchOf root := by
    intro p
    rw [hwired.mem_branchOf_iff hacyclic' (hperm.mem_iff.mpr hmem),
      h.mem_branchOf_iff hacyclic hmem, hchild]
  have hdeepest := hother.of_mem_iff hbranch
  rw [levelOf_eq_of_perm hperm h] at hdeepest
  unfold depthEntry
  rw [hdeepest.unique (Metrics.largest_branch h hacyclic hroot)]

end Reordered

end Forest

namespace Metrics

open Forest

theorem groupSizes_perm {forest other : Forest} (hperm : other.Perm forest) :
    (groupSizes other).Perm (groupSizes forest) := by
  have hcounts : (other.map fun p => (other.childrenOf p.id).length) =
      other.map fun p => (forest.childrenOf p.id).length :=
    List.map_congr_left fun p _ => (childrenOf_perm hperm p.id).length_eq
  unfold groupSizes
  rw [hcounts]
  exact (hperm.map _).filter _

theorem complexityOf_perm (total depth conditional : Nat) {groups others : List Nat}
    (h : others.Perm groups) :
    complexityOf total depth conditional others = complexityOf total depth conditional groups := by
  have hempty : others.isEmpty = groups.isEmpty := by
    rw [Bool.eq_iff_iff, List.isEmpty_iff, List.isEmpty_iff]
    exact ⟨fun hnil => (hnil ▸ h).symm.eq_nil, fun hnil => (hnil ▸ h).eq_nil⟩
  unfold complexityOf
  rw [hempty, sumOf_eq_sum, sumOf_eq_sum, h.sum_eq, h.length_eq]

section Reordered

variable {forest other : Forest} (hperm : other.Perm forest) (h : forest.Wired)
  (hacyclic : ∀ p, ¬ TransGen forest.ChildOf p p)

include hperm h hacyclic

theorem depthEntries_perm :
    (other.roots.map other.depthEntry).Perm (forest.roots.map forest.depthEntry) := by
  have heq : other.roots.map other.depthEntry = other.roots.map forest.depthEntry :=
    List.map_congr_left fun root hroot =>
      depthEntry_eq_of_perm hperm h hacyclic ((roots_perm hperm).mem_iff.mp hroot)
  rw [heq]
  exact (roots_perm hperm).map _

theorem sumOf_branchLevels_perm : sumOf (other.roots.flatMap (branchLevels other)) =
    sumOf (forest.roots.flatMap (branchLevels forest)) := by
  have hacyclic' : ∀ p, ¬ TransGen other.ChildOf p p := by
    rwa [childOf_eq_of_perm hperm h]
  rw [sumOf_eq_sum, sumOf_eq_sum, (branchLevels_perm (h.of_perm hperm) hacyclic').sum_eq,
    (branchLevels_perm h hacyclic).sum_eq, levelOf_eq_of_perm hperm h]
  exact (hperm.map _).sum_eq

/-- The metrics do not depend on the order in which the nodes of a forest are
listed. -/
theorem ofForest_perm : (ofForest other).SameUpToOrder (ofForest forest) := by
  by_cases hnil : forest = []
  · have hother : other = [] := by
      rw [hnil] at hperm
      exact hperm.eq_nil
    rw [hnil, hother]
    constructor <;> rfl
  · have hother : other ≠ [] := by
      intro heq
      rw [heq] at hperm
      exact hnil hperm.symm.eq_nil
    have hdepths := depthEntries_perm hperm h hacyclic
    have hmax := maximum_perm (hdepths.map Prod.snd)
    have hgroups := groupSizes_perm hperm
    have hconditional : (other.filter fun p => !p.node.rules.isEmpty).length =
        (forest.filter fun p => !p.node.rules.isEmpty).length := (hperm.filter _).length_eq
    rw [ofForest_of_ne_nil hnil, ofForest_of_ne_nil hother]
    constructor
    · exact hperm.length_eq
    · exact (roots_perm hperm).length_eq
    · exact hmax
    · dsimp only
      rw [sumOf_branchLevels_perm hperm h hacyclic, hperm.length_eq]
    · exact hdepths
    · exact countsOf_perm (hperm.map _)
    · exact hconditional
    · exact maximum_perm hgroups
    · dsimp only
      rw [hperm.length_eq, hmax, hconditional, complexityOf_perm _ _ _ hgroups]

end Reordered

end Metrics

/-! ## The metrics of a list -/

namespace Nodes

section Reordered

variable {nodes others : List Node} (hperm : others.Perm nodes)
  (hdistinct : (nodes.map Node.id).Nodup)

include hperm hdistinct

theorem firsts_perm : (firsts others).Perm (firsts nodes) := by
  have hothers : (others.map Node.id).Nodup := (hperm.map Node.id).nodup_iff.mpr hdistinct
  rw [firsts_eq_self hdistinct, firsts_eq_self hothers]
  exact hperm

theorem linksTo_eq_of_perm : LinksTo others = LinksTo nodes := by
  have hfirsts : ∀ node, node ∈ firsts others ↔ node ∈ firsts nodes :=
    fun node => (firsts_perm hperm hdistinct).mem_iff
  have hids : ∀ id, id ∈ ids others ↔ id ∈ ids nodes :=
    fun id => ((firsts_perm hperm hdistinct).map Node.id).mem_iff
  funext a b
  unfold LinksTo
  simp only [hids, hfirsts]

end Reordered

/-- When the only cycles are links of nodes to themselves, just these are cut,
wherever the nodes stand. -/
theorem keptLink_iff_of_loops {nodes : List Node} (hread : ∀ node ∈ nodes, node.LinkRead)
    (hloops : ∀ id, OnCycle (LinksTo nodes) id → LinksTo nodes id id) {a b : String} :
    KeptLink nodes a b ↔ LinksTo nodes a b ∧ ¬ OnCycle (LinksTo nodes) a := by
  have hr := linksTo_rightUnique nodes
  unfold KeptLink CutAt
  rw [searchedTo_eq_linksTo hread]
  constructor
  · intro hkept
    rcases hkept with ⟨hlink, hopen⟩
    refine ⟨hlink, fun hcycle => hopen ?_⟩
    rcases hcycle.exists_closesCycle hr ⟨a, hlink.mem_ids, .refl⟩ with ⟨c, hcloses, hreach⟩
    have hstay : a = c := by
      clear hcloses
      induction hreach with
      | refl => rfl
      | tail _ hnext ih =>
          rw [← ih] at hnext
          exact hr (hloops a hcycle) hnext
    rwa [hstay]
  · intro hlinked
    exact ⟨hlinked.1, fun hcloses => hlinked.2 hcloses.1⟩

/-- With distinct ids and no cycle but of a node with itself, the list in
another order gives the same tree in another order. -/
theorem ofNodes_perm {nodes others : List Node} (hread : ∀ node ∈ nodes, node.LinkRead)
    (hperm : others.Perm nodes) (hdistinct : (nodes.map Node.id).Nodup)
    (hloops : ∀ id, OnCycle (LinksTo nodes) id → LinksTo nodes id id) :
    (Forest.ofNodes others).Perm (Forest.ofNodes nodes) := by
  have hlinks := linksTo_eq_of_perm hperm hdistinct
  have hread' : ∀ node ∈ others, node.LinkRead :=
    fun node hnode => hread node (hperm.mem_iff.mp hnode)
  have hloops' : ∀ id, OnCycle (LinksTo others) id → LinksTo others id id := by rwa [hlinks]
  have hparents : (Repair.ofNodes others).parentOf = (Repair.ofNodes nodes).parentOf := by
    funext a
    apply Option.ext
    intro b
    rw [ofNodes_parentOf_iff, ofNodes_parentOf_iff, keptLink_iff_of_loops hread' hloops',
      keptLink_iff_of_loops hread hloops, hlinks]
  unfold Forest.ofNodes
  simp only [hparents]
  exact (firsts_perm hperm hdistinct).map _

theorem length_ofNodes (nodes : List Node) :
    (Forest.ofNodes nodes).length = (nodes.map Node.id).toFinset.card := by
  have hmem : (ids nodes).toFinset = (nodes.map Node.id).toFinset := by
    ext id
    rw [List.mem_toFinset, List.mem_toFinset, mem_ids_iff, List.mem_map]
  have hlength : (Forest.ofNodes nodes).length = (ids nodes).length := by
    rw [← Forest.ids_ofNodes]
    exact (List.length_map _).symm
  rw [hlength, ← hmem, List.toFinset_card_of_nodup (nodup_ids nodes)]

/-- The metrics of a list measure its forest.  With distinct ids and no cycle of
more than one node they do not depend on the order of the list. -/
structure MeasuresForest (nodes : List Node) : Prop where
  measures : Metrics.Measures nodes (Forest.ofNodes nodes) (NodeInput.metrics (.ok nodes))
  orderFree : (nodes.map Node.id).Nodup →
    (∀ id, OnCycle (LinksTo nodes) id → LinksTo nodes id id) →
    ∀ others, others.Perm nodes →
      (NodeInput.metrics (.ok others)).SameUpToOrder (NodeInput.metrics (.ok nodes))

/-- The metrics of a list that was read measure its repaired tree, and with
distinct ids and no cycle but of a node with itself they do not depend on the
order of the list. -/
theorem metrics_measuresForest {defaultPriority : Reading Int} {v : Value} {nodes : List Node}
    (hread : (read defaultPriority v).value = .ok nodes) : MeasuresForest nodes := by
  have hlinkRead := read_linkRead hread
  have hwired := Forest.ofNodes_wired nodes
  have hacyclic : ∀ p, ¬ TransGen (Forest.ofNodes nodes).ChildOf p p :=
    fun p hp => keptLink_acyclic (searchedTo_eq_linksTo hlinkRead) p.id
      (Forest.onCycle_of_childOf hp)
  constructor
  · exact Metrics.ofForest_measures hwired hacyclic (length_ofNodes nodes)
  · intro hdistinct hloops others hperm
    exact Metrics.ofForest_perm (ofNodes_perm hlinkRead hperm hdistinct hloops) hwired hacyclic

theorem metrics_measuresForest_branched :
    ∃ nodes, (read (.ok 100) branchedNodes).value = .ok nodes ∧
      nodes.reverse.map Node.id = ["d", "b", "a", "c", "r"] ∧
      (NodeInput.metrics (.ok nodes)).totalNodes = 5 ∧
      MeasuresForest nodes ∧
      (NodeInput.metrics (.ok nodes.reverse)).SameUpToOrder (NodeInput.metrics (.ok nodes)) := by
  refine ⟨_, rfl, rfl, by with_unfolding_all rfl, ?_⟩
  have hmeasures := @metrics_measuresForest (.ok 100) branchedNodes _ rfl
  refine ⟨hmeasures, hmeasures.orderFree (by decide) ?_ _ (List.reverse_perm _)⟩
  intro id hcycle
  exact absurd hcycle (WellLinked.acyclic (.of_no_issues (by with_unfolding_all rfl)) id)

end Nodes

end FormRules
