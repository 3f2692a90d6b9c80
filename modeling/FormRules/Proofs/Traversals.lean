import FormRules.Proofs.ForestLevels
import FormRules.Proofs.TreeShape

/-!
# The traversals of a forest

A forest is gone through upwards by parents, downwards depth first and from the roots
on breadth first.  Each way is a loop of its own, and without cycles all of them show
the same relation: a node lists as its descendants the nodes that list it as an
ancestor, and the walk meets the roots and their descendants.

The walk takes in a level at a time.  The roots are its first row, and while it visits
one row it puts the next one into the queue, which is therefore in the order of the
parents and, below one parent, in the order of its children.
-/

namespace FormRules

open Relation

namespace Forest

open Nodes

variable {forest : Forest} {p q : Placed}

/-- The nodes of a level in the order in which they are put into the queue. -/
def row (forest : Forest) : Nat → List Placed
  | 0 => forest.roots
  | level + 1 => (forest.row level).flatMap fun p => forest.childrenOf p.id

/-! ## The walk by rows -/

/-- With a step for each entry of the queue, the walk visits the queue and goes
on with the children of its entries. -/
theorem walkFrom_append (queue rest : List Placed) (steps : Nat) :
    forest.walkFrom (queue.length + steps) (queue ++ rest) =
      queue ++ forest.walkFrom steps (rest ++ queue.flatMap fun p => forest.childrenOf p.id) := by
  induction queue generalizing rest with
  | nil => simp
  | cons p queue ih =>
      have hsteps : (p :: queue).length + steps = (queue.length + steps) + 1 := by
        rw [List.length_cons]
        omega
      have hrest := ih (rest ++ forest.childrenOf p.id)
      rw [List.append_assoc] at hrest
      rw [hsteps, List.cons_append, walkFrom, List.append_assoc, hrest, List.flatMap_cons]
      rfl

/-- The walk takes the rows of the forest one after another. -/
theorem walkFrom_rows (count steps : Nat) :
    forest.walkFrom (((List.range count).flatMap forest.row).length + steps) forest.roots =
      (List.range count).flatMap forest.row ++ forest.walkFrom steps (forest.row count) := by
  induction count generalizing steps with
  | zero => simp [row]
  | succ count ih =>
      have hrow := @walkFrom_append forest (forest.row count) [] steps
      rw [List.append_nil, List.nil_append] at hrow
      rw [List.range_succ, List.flatMap_append, List.flatMap_singleton, List.length_append,
        Nat.add_assoc, ih, hrow, List.append_assoc]
      rfl

section Acyclic

variable (h : forest.Wired) (hacyclic : ∀ p, ¬ TransGen forest.ChildOf p p)

include h hacyclic

theorem Wired.levelOf_row {level : Nat} (hp : p ∈ forest.row level) :
    p ∈ forest ∧ forest.levelOf p = level := by
  induction level generalizing p with
  | zero => exact ⟨(mem_roots_iff.mp hp).1, h.levelOf_root hp⟩
  | succ level ih =>
      rcases List.mem_flatMap.mp hp with ⟨q, hq, hchild⟩
      rcases ih hq with ⟨hqmem, hlevel⟩
      have hlink : forest.ChildOf p q := (h.childOf_iff hqmem).mpr hchild
      exact ⟨hlink.1, by rw [h.levelOf_child hacyclic hlink, hlevel]⟩

theorem Wired.levelOf_lt (hp : p ∈ forest) : forest.levelOf p < forest.length := by
  have hascent := h.ascent hacyclic hp
  have hself : p ∉ forest.ancestorsOf p := fun hmem => hacyclic p ((hascent.mem_iff p).mp hmem)
  have hsub : p :: forest.ancestorsOf p ⊆ forest := by
    refine List.cons_subset.mpr ⟨hp, fun q hq => ?_⟩
    exact h.mem_of_above ((hascent.mem_iff q).mp hq)
  exact (List.subperm_of_subset (List.nodup_cons.mpr ⟨hself, hascent.nodup⟩) hsub).length_le

theorem Wired.row_eq_nil {level : Nat} (hlevel : forest.length ≤ level) :
    forest.row level = [] := by
  apply List.eq_nil_iff_forall_not_mem.mpr
  intro p hp
  rcases h.levelOf_row hacyclic hp with ⟨hmem, heq⟩
  have hlt := h.levelOf_lt hacyclic hmem
  omega

/-- There are no more rows than nodes, so the bound of the walk suffices for all. -/
theorem Wired.walk_eq_rows : forest.walk = (List.range forest.length).flatMap forest.row := by
  have hrows := @walkFrom_rows forest forest.length forest.length
  rw [h.walkFrom_eq_walk (Nat.le_add_left _ _), h.row_eq_nil hacyclic le_rfl] at hrows
  rw [hrows]
  cases forest.length <;> simp [walkFrom]

theorem Wired.filter_rows (level count : Nat) :
    ((List.range count).flatMap forest.row).filter (forest.levelOf · == level) =
      if level < count then forest.row level else [] := by
  induction count with
  | zero => rfl
  | succ count ih =>
      rw [List.range_succ, List.flatMap_append, List.flatMap_singleton, List.filter_append, ih]
      have hlevel : ∀ p ∈ forest.row count, forest.levelOf p = count :=
        fun p hp => (h.levelOf_row hacyclic hp).2
      by_cases heq : level = count
      · have hall : (forest.row count).filter (forest.levelOf · == level) = forest.row count := by
          apply List.filter_eq_self.mpr
          intro p hp
          simp [hlevel p hp, heq]
        rw [hall]
        simp [heq]
      · have hnone : (forest.row count).filter (forest.levelOf · == level) = [] := by
          apply List.filter_eq_nil_iff.mpr
          intro p hp
          simpa [hlevel p hp] using fun hcount => heq hcount.symm
        rw [hnone, List.append_nil]
        have hiff : level < count ↔ level < count + 1 := by omega
        simp only [hiff]

theorem Wired.filter_walk_level (level : Nat) :
    forest.walk.filter (forest.levelOf · == level) = forest.row level := by
  rw [h.walk_eq_rows hacyclic, h.filter_rows hacyclic]
  split
  · rfl
  · rename_i hlarge
    exact (h.row_eq_nil hacyclic (Nat.le_of_not_lt hlarge)).symm

theorem Wired.pairwise_levelOf_walk :
    forest.walk.Pairwise fun a b => forest.levelOf a ≤ forest.levelOf b := by
  have hlevel : ∀ level, ∀ p ∈ forest.row level, forest.levelOf p = level :=
    fun level p hp => (h.levelOf_row hacyclic hp).2
  rw [h.walk_eq_rows hacyclic, List.pairwise_flatMap]
  constructor
  · intro level _
    apply List.pairwise_of_forall_mem_list
    intro a ha b hb
    rw [hlevel level a ha, hlevel level b hb]
  · apply List.pairwise_lt_range.imp
    intro level level' hlt a ha b hb
    rw [hlevel level a ha, hlevel level' b hb]
    exact hlt.le

/-! ## One relation -/

theorem Wired.mem_descendantsOf_iff_mem_ancestorsOf (hq : q ∈ forest) :
    p ∈ forest.descendantsOf q ↔ p ∈ forest ∧ q ∈ forest.ancestorsOf p := by
  rw [h.mem_descendantsOf_iff hacyclic hq]
  constructor
  · intro hreach
    have hp := mem_of_reaches hreach
    exact ⟨hp, (h.mem_ancestorsOf_iff hacyclic hp).mpr hreach⟩
  · intro hp
    exact (h.mem_ancestorsOf_iff hacyclic hp.1).mp hp.2

theorem Wired.mem_walk_iff_mem_branch :
    p ∈ forest.walk ↔ p ∈ forest.roots ∨ ∃ root ∈ forest.roots, p ∈ forest.descendantsOf root := by
  rw [(h.walk_perm hacyclic).mem_iff, ← (h.branches_perm hacyclic).mem_iff, List.mem_flatMap]
  constructor
  · intro hbranch
    rcases hbranch with ⟨root, hroot, hp⟩
    rcases List.mem_cons.mp hp with heq | hbelow
    · exact .inl (heq ▸ hroot)
    · exact .inr ⟨root, hroot, hbelow⟩
  · intro hreached
    rcases hreached with hroot | ⟨root, hroot, hbelow⟩
    · exact ⟨p, hroot, List.mem_cons_self⟩
    · exact ⟨root, hroot, List.mem_cons_of_mem root hbelow⟩

/-- A level counts the nodes whose descendants the node is among. -/
theorem Wired.levelOf_eq_count (hp : p ∈ forest) :
    forest.levelOf p = forest.countP fun q => decide (p ∈ forest.descendantsOf q) := by
  have hascent := h.ascent hacyclic hp
  have hperm : (forest.ancestorsOf p).Perm
      (forest.filter fun q => decide (p ∈ forest.descendantsOf q)) := by
    apply (List.perm_ext_iff_of_nodup hascent.nodup (h.nodup.filter _)).mpr
    intro q
    rw [List.mem_filter, decide_eq_true_eq]
    constructor
    · intro hq
      have hqmem := h.mem_of_above ((hascent.mem_iff q).mp hq)
      exact ⟨hqmem, (h.mem_descendantsOf_iff_mem_ancestorsOf hacyclic hqmem).mpr ⟨hp, hq⟩⟩
    · intro hq
      exact ((h.mem_descendantsOf_iff_mem_ancestorsOf hacyclic hq.1).mp hq.2).2
  rw [List.countP_eq_length_filter, ← hperm.length_eq]
  rfl

/-! ## Bounds -/

theorem Wired.ancestorsFrom_eq (hp : p ∈ forest) {steps : Nat} (hsteps : forest.length ≤ steps) :
    forest.ancestorsFrom steps p.parent = forest.ancestorsOf p := by
  have hlevel : (forest.ancestorsOf p).length < forest.length := h.levelOf_lt hacyclic hp
  have hclimb := (h.ascent hacyclic hp).climbs (steps - (forest.ancestorsOf p).length)
  have hsum : (forest.ancestorsOf p).length + (steps - (forest.ancestorsOf p).length) = steps := by
    omega
  rwa [hsum] at hclimb

theorem Wired.descendFrom_eq (hp : p ∈ forest) (level : Nat) {steps : Nat}
    (hsteps : forest.length ≤ steps) :
    forest.descendFrom steps ((forest.childrenOf p.id).map fun c => (c, level + 1)) =
      forest.levelsBelow p level := by
  have hbranch := h.branch hacyclic hp level
  have hsub : (forest.levelsBelow p level).map Prod.fst ⊆ forest :=
    fun q hq => mem_of_reaches ((hbranch.mem_iff q).mp hq)
  have hlength := (List.subperm_of_subset hbranch.nodup hsub).length_le
  rw [List.length_map] at hlength
  exact hbranch.visits.descendFrom_eq (hlength.trans hsteps)

end Acyclic

/-- The ways of going through a forest agree with one another. -/
structure Traversed (forest : Forest) : Prop where
  /-- Who lists a node as a descendant is listed by it as an ancestor. -/
  mem_descendants_iff : ∀ x ∈ forest, ∀ y,
    y ∈ forest.descendantsOf x ↔ y ∈ forest ∧ x ∈ forest.ancestorsOf y
  notOwn : ∀ x ∈ forest, x ∉ forest.descendantsOf x ∧ x ∉ forest.ancestorsOf x
  ancestors_eq : ∀ x ∈ forest, forest.ancestorsOf x =
    (forest.parent? x).elim [] fun up => up :: forest.ancestorsOf up
  /-- Each child comes in front of its own descendants. -/
  preorder : ∀ x ∈ forest, forest.descendantsOf x =
    (forest.childrenOf x.id).flatMap fun c => c :: forest.descendantsOf c
  once : ∀ x ∈ forest, (forest.descendantsOf x).Nodup
  walkLevels : forest.walk.Pairwise fun a b => forest.levelOf a ≤ forest.levelOf b
  walkRoots : forest.walk.filter (forest.levelOf · == 0) = forest.roots
  /-- A level is visited in the order of the parents, then of their children. -/
  walkNext : ∀ level, forest.walk.filter (forest.levelOf · == level + 1) =
    (forest.walk.filter (forest.levelOf · == level)).flatMap fun p => forest.childrenOf p.id
  mem_walk_iff : ∀ x, x ∈ forest.walk ↔
    x ∈ forest.roots ∨ ∃ root ∈ forest.roots, x ∈ forest.descendantsOf root
  walkOnce : forest.walk.Nodup
  level_eq_length : ∀ x, forest.levelOf x = (forest.ancestorsOf x).length
  level_eq_count : ∀ x ∈ forest,
    forest.levelOf x = forest.countP fun y => decide (x ∈ forest.descendantsOf y)
  levelBelow : ∀ x ∈ forest, ∀ up, forest.parent? x = some up →
    forest.levelOf x = forest.levelOf up + 1
  /-- With more steps each of the loops comes to the same end. -/
  climbEnds : ∀ x ∈ forest, ∀ steps, forest.length ≤ steps →
    forest.ancestorsFrom steps x.parent = forest.ancestorsOf x
  descentEnds : ∀ x ∈ forest, ∀ steps, forest.length ≤ steps →
    (forest.descendFrom steps ((forest.childrenOf x.id).map fun c => (c, 1))).map Prod.fst =
      forest.descendantsOf x
  walkEnds : ∀ steps, forest.length ≤ steps → forest.walkFrom steps forest.roots = forest.walk

/-- In a forest without cycles all ways of going through it agree. -/
theorem Wired.traversed (h : forest.Wired) (hacyclic : ∀ p, ¬ TransGen forest.ChildOf p p) :
    forest.Traversed := by
  constructor
  · exact fun x hx y => h.mem_descendantsOf_iff_mem_ancestorsOf hacyclic hx
  · intro x hx
    rw [h.mem_descendantsOf_iff hacyclic hx, h.mem_ancestorsOf_iff hacyclic hx]
    exact ⟨hacyclic x, hacyclic x⟩
  · intro x hx
    cases hparent : forest.parent? x with
    | none => exact ancestorsOf_of_no_parent hparent
    | some up => exact h.ancestorsOf_eq_cons hacyclic ⟨hx, hparent⟩
  · exact fun x hx => h.descendantsOf_eq hacyclic hx
  · exact fun x hx => h.nodup_descendantsOf hacyclic hx
  · exact h.pairwise_levelOf_walk hacyclic
  · exact h.filter_walk_level hacyclic 0
  · intro level
    rw [h.filter_walk_level hacyclic, h.filter_walk_level hacyclic]
    rfl
  · exact fun x => h.mem_walk_iff_mem_branch hacyclic
  · exact (h.walk_perm hacyclic).nodup_iff.mpr h.nodup
  · exact fun x => rfl
  · exact fun x hx => h.levelOf_eq_count hacyclic hx
  · exact fun x hx up hparent => h.levelOf_child hacyclic ⟨hx, hparent⟩
  · exact fun x hx steps hsteps => h.ancestorsFrom_eq hacyclic hx hsteps
  · intro x hx steps hsteps
    rw [h.descendFrom_eq hacyclic hx 0 hsteps]
    rfl
  · exact fun steps hsteps => h.walkFrom_eq_walk hsteps

/-- In the tree of any list that was read, ancestors, descendants, levels and
the walk agree with one another, and each of the loops behind them comes to its
end. -/
theorem ofNodes_traversed {defaultPriority : Reading Int} {v : Value} {nodes : List Node}
    (hread : (Nodes.read defaultPriority v).value = .ok nodes) : (ofNodes nodes).Traversed := by
  have hseen : SearchedTo nodes = LinksTo nodes :=
    searchedTo_eq_linksTo (read_linkRead hread)
  exact (ofNodes_wired nodes).traversed
    fun p hp => keptLink_acyclic hseen p.id (onCycle_of_childOf hp)

theorem ofNodes_traversed_tangled :
    ∃ nodes, (Nodes.read (.ok 100) tangledNodes).value = .ok nodes ∧
      (ofNodes nodes).map (fun p => (p.id, p.parent)) =
        [("a", some "b"), ("b", some "c"), ("c", none), (" ", none), ("s", none),
          ("d", some "a")] ∧
      (ofNodes nodes).Traversed := by
  refine ⟨_, rfl, by with_unfolding_all rfl, ?_⟩
  exact @ofNodes_traversed (.ok 100) tangledNodes _ rfl

end Forest

end FormRules
