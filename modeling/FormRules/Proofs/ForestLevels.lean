import FormRules.Hierarchy.Metrics
import FormRules.Proofs.ForestBranches

/-!
# The levels of a forest

In a forest without cycles the climb from a node ends at a root after as many
steps as the node has ancestors, and the bound of the climb suffices.  So the
level of a root is zero and that of a child is one more than that of its parent.
The levels that are counted on the way down from the roots are the same, and
since every node lies below exactly one root, each node is counted once.

A table of levels can also be filled in while the branches are visited, each
node one below the level noted for its parent.  The descendants are listed with
every parent in front of its children, so the parent's level is always there.
-/

namespace FormRules

open Relation

namespace Forest

variable {forest : Forest} {p q root : Placed}

/-! ## Ancestors -/

theorem ancestorsFrom_of_no_parent (hparent : forest.parent? p = none) (steps : Nat) :
    forest.ancestorsFrom steps p.parent = [] := by
  unfold parent? at hparent
  unfold ancestorsFrom
  rw [hparent]
  cases steps <;> rfl

theorem ancestorsFrom_succ (hparent : forest.parent? p = some q) (steps : Nat) :
    forest.ancestorsFrom (steps + 1) p.parent = q :: forest.ancestorsFrom steps q.parent := by
  unfold parent? at hparent
  conv_lhs => unfold ancestorsFrom
  rw [hparent]

theorem ancestorsOf_of_no_parent (hparent : forest.parent? p = none) :
    forest.ancestorsOf p = [] :=
  ancestorsFrom_of_no_parent hparent _

/-- The climb from a node goes through these nodes and ends. -/
structure Ascent (forest : Forest) (p : Placed) (up : List Placed) : Prop where
  climbs : ∀ steps, forest.ancestorsFrom (up.length + steps) p.parent = up
  nodup : up.Nodup
  mem_iff : ∀ q, q ∈ up ↔ TransGen forest.ChildOf p q

theorem Ascent.of_no_parent (hparent : forest.parent? p = none) : forest.Ascent p [] := by
  constructor
  · exact fun steps => ancestorsFrom_of_no_parent hparent _
  · exact List.nodup_nil
  · intro q
    rw [TransGen.head'_iff]
    simp [ChildOf, hparent]

theorem Ascent.cons (hacyclic : ∀ p, ¬ TransGen forest.ChildOf p p) (hlink : forest.ChildOf p q)
    {up : List Placed} (h : forest.Ascent q up) : forest.Ascent p (q :: up) := by
  constructor
  · intro steps
    have hsteps : (q :: up).length + steps = (up.length + steps) + 1 := by
      rw [List.length_cons]
      omega
    rw [hsteps, ancestorsFrom_succ hlink.2, h.climbs]
  · have hfresh : q ∉ up := fun hq => hacyclic q ((h.mem_iff q).mp hq)
    exact List.nodup_cons.mpr ⟨hfresh, h.nodup⟩
  · intro a
    rw [List.mem_cons, h.mem_iff, ← reflTransGen_iff_eq_or_transGen]
    constructor
    · intro ha
      exact .head' hlink ha
    · intro ha
      rcases TransGen.head'_iff.mp ha with ⟨b, hb, hba⟩
      have heq : b = q := childOf_rightUnique forest hb hlink
      rwa [heq] at hba

theorem Wired.mem_of_above (h : forest.Wired) (hq : TransGen forest.ChildOf p q) :
    q ∈ forest := by
  rcases TransGen.tail'_iff.mp hq with ⟨a, -, hlink⟩
  exact (h.parent?_eq_some_iff.mp hlink.2).1

/-- An ascent to a root is what the climb collects. -/
theorem Ascent.ancestorsOf_eq (hwired : forest.Wired) {up : List Placed}
    (h : forest.Ascent p up) : forest.ancestorsOf p = up := by
  have hsub : up ⊆ forest := fun q hq => hwired.mem_of_above ((h.mem_iff q).mp hq)
  have hlength := (List.subperm_of_subset h.nodup hsub).length_le
  have hclimb := h.climbs (forest.length - up.length)
  have hsteps : up.length + (forest.length - up.length) = forest.length := by omega
  rwa [hsteps] at hclimb

section Acyclic

variable (h : forest.Wired) (hacyclic : ∀ p, ¬ TransGen forest.ChildOf p p)

include h hacyclic

/-- Without cycles every climb is an ascent to a root. -/
theorem Wired.ascent (hp : p ∈ forest) : forest.Ascent p (forest.ancestorsOf p) := by
  have hswapped : ∀ p, ¬ OnCycle (Function.swap forest.ChildOf) p :=
    fun p hcycle => hacyclic p (transGen_swap.mp hcycle)
  -- Induction from the parent of a node to the node.
  apply acyclic_induction hswapped ?_ p hp
  intro p hp ih
  have hascent : ∃ up, forest.Ascent p up := by
    cases hparent : forest.parent? p with
    | none => exact ⟨[], .of_no_parent hparent⟩
    | some q =>
        have hlink : forest.ChildOf p q := ⟨hp, hparent⟩
        have hq : q ∈ forest := (h.parent?_eq_some_iff.mp hparent).1
        exact ⟨_, .cons hacyclic hlink (ih q hq hlink)⟩
  rcases hascent with ⟨up, hup⟩
  rwa [hup.ancestorsOf_eq h]

theorem Wired.ancestorsOf_eq_cons (hlink : forest.ChildOf p q) :
    forest.ancestorsOf p = q :: forest.ancestorsOf q := by
  have hq : q ∈ forest := (h.parent?_eq_some_iff.mp hlink.2).1
  exact (Ascent.cons hacyclic hlink (h.ascent hacyclic hq)).ancestorsOf_eq h

theorem Wired.mem_ancestorsOf_iff (hp : p ∈ forest) :
    q ∈ forest.ancestorsOf p ↔ TransGen forest.ChildOf p q :=
  (h.ascent hacyclic hp).mem_iff q

/-! ## Levels -/

omit hacyclic in
theorem Wired.levelOf_root (hroot : root ∈ forest.roots) : forest.levelOf root = 0 := by
  have hparent := (h.mem_roots_iff_parent? (mem_roots_iff.mp hroot).1).mp hroot
  unfold levelOf
  rw [ancestorsOf_of_no_parent hparent]
  rfl

theorem Wired.levelOf_child (hlink : forest.ChildOf p q) :
    forest.levelOf p = forest.levelOf q + 1 := by
  unfold levelOf
  rw [h.ancestorsOf_eq_cons hacyclic hlink, List.length_cons]

/-- Going down from a node, each descendant comes with its level. -/
theorem Wired.levelsBelow_levelOf (hp : p ∈ forest) :
    ∀ visit ∈ forest.levelsBelow p (forest.levelOf p), visit.2 = forest.levelOf visit.1 := by
  -- Induction from the children of a node to the node.
  apply acyclic_induction hacyclic ?_ p hp
  intro p hp ih visit hvisit
  rw [h.levelsBelow_eq hacyclic hp] at hvisit
  rcases List.mem_flatMap.mp hvisit with ⟨c, hc, hbelow⟩
  have hlink : forest.ChildOf c p := (h.childOf_iff hp).mpr hc
  have hlevel := h.levelOf_child hacyclic hlink
  rw [← hlevel] at hbelow
  rcases List.mem_cons.mp hbelow with heq | hbelow
  · rw [heq]
  · exact ih c hlink.1 hlink visit hbelow

theorem Wired.levelsBelow_root (hroot : root ∈ forest.roots) :
    (forest.levelsBelow root 0).map Prod.snd =
      (forest.descendantsOf root).map forest.levelOf := by
  have hlevels := h.levelsBelow_levelOf hacyclic (mem_roots_iff.mp hroot).1
  rw [h.levelOf_root hroot] at hlevels
  unfold descendantsOf
  rw [List.map_map]
  exact List.map_congr_left hlevels

end Acyclic

/-! ## Branches -/

/-- A node and everything below it. -/
def branchOf (forest : Forest) (p : Placed) : List Placed := p :: forest.descendantsOf p

section Acyclic

variable (h : forest.Wired) (hacyclic : ∀ p, ¬ TransGen forest.ChildOf p p)

include h hacyclic

theorem Wired.branchLevels_eq (hroot : root ∈ forest.roots) :
    Metrics.branchLevels forest root = (forest.branchOf root).map forest.levelOf := by
  unfold Metrics.branchLevels branchOf
  rw [h.levelsBelow_root hacyclic hroot, List.map_cons, h.levelOf_root hroot]

theorem Wired.mem_branchOf_iff (hp : p ∈ forest) :
    q ∈ forest.branchOf p ↔ ReflTransGen forest.ChildOf q p := by
  unfold branchOf
  rw [List.mem_cons, h.mem_descendantsOf_iff hacyclic hp, reflTransGen_iff_eq_or_transGen,
    @eq_comm _ p q]

theorem Wired.nodup_branchOf (hp : p ∈ forest) : (forest.branchOf p).Nodup := by
  have hself : p ∉ forest.descendantsOf p :=
    fun hmem => hacyclic p ((h.mem_descendantsOf_iff hacyclic hp).mp hmem)
  exact List.nodup_cons.mpr ⟨hself, h.nodup_descendantsOf hacyclic hp⟩

/-- Every node lies in the branch of one root, and that once. -/
theorem Wired.branches_perm : (forest.roots.flatMap forest.branchOf).Perm forest := by
  have hr := childOf_rightUnique forest
  have htop : ∀ root ∈ forest.roots, ∀ q, ReflTransGen forest.ChildOf root q → q = root := by
    intro root hroot q hq
    rcases hq.cases_head with heq | ⟨a, hlink, -⟩
    · exact heq.symm
    · have hnone := (h.mem_roots_iff_parent? hlink.1).mp hroot
      have hsome := hlink.2
      simp [hnone] at hsome
  have hdistinct : (forest.roots.flatMap forest.branchOf).Nodup := by
    apply List.nodup_flatMap.mpr
    constructor
    · exact fun root hroot => h.nodup_branchOf hacyclic (mem_roots_iff.mp hroot).1
    · apply (nodup_roots h.nodup).imp_of_mem
      intro a b ha hb hne q hqa hqb
      -- A node that leads up to two roots would have one of them below the other.
      rw [h.mem_branchOf_iff hacyclic (mem_roots_iff.mp ha).1] at hqa
      rw [h.mem_branchOf_iff hacyclic (mem_roots_iff.mp hb).1] at hqb
      rcases hqa.total_of_right_unique hr hqb with hab | hba
      · exact hne (htop a ha b hab).symm
      · exact hne (htop b hb a hba)
  apply (List.perm_ext_iff_of_nodup hdistinct h.nodup).mpr
  intro q
  rw [List.mem_flatMap]
  constructor
  · intro hq
    rcases hq with ⟨root, hroot, hbelow⟩
    have hrootmem := (mem_roots_iff.mp hroot).1
    rcases ((h.mem_branchOf_iff hacyclic hrootmem).mp hbelow).cases_head with heq | ⟨a, hlink, -⟩
    · rwa [heq]
    · exact hlink.1
  · intro hq
    rcases h.rooted hacyclic hq with ⟨root, hroot, hpath⟩
    exact ⟨root, hroot, (h.mem_branchOf_iff hacyclic (mem_roots_iff.mp hroot).1).mpr hpath⟩

theorem Wired.map_fst_levelsBelow (hp : p ∈ forest) (level : Nat) :
    (forest.levelsBelow p level).map Prod.fst = forest.descendantsOf p := by
  have hall : ∀ p ∈ forest, ∀ level other, (forest.levelsBelow p level).map Prod.fst =
      (forest.levelsBelow p other).map Prod.fst := by
    refine acyclic_induction hacyclic fun p hp ih level other => ?_
    rw [h.levelsBelow_eq hacyclic hp, h.levelsBelow_eq hacyclic hp, List.map_flatMap,
      List.map_flatMap]
    refine List.flatMap_congr fun c hc => ?_
    have hlink : forest.ChildOf c p := (h.childOf_iff hp).mpr hc
    rw [List.map_cons, List.map_cons, ih c hlink.1 hlink (level + 1) (other + 1)]
  exact hall p hp level 0

/-- The descendants of a node are the branches of its children, one after another. -/
theorem Wired.descendantsOf_eq (hp : p ∈ forest) :
    forest.descendantsOf p = (forest.childrenOf p.id).flatMap forest.branchOf := by
  unfold descendantsOf
  rw [h.levelsBelow_eq hacyclic hp, List.map_flatMap]
  refine List.flatMap_congr fun c hc => ?_
  have hlink : forest.ChildOf c p := (h.childOf_iff hp).mpr hc
  rw [List.map_cons, h.map_fst_levelsBelow hacyclic hlink.1]
  rfl

end Acyclic

/-! ## Noting levels along the way -/

/-- The levels noted so far, and the deepest one below each root that is done. -/
structure LevelTable where
  levels : Assoc Nat
  depths : Assoc Nat

/-- Notes the level of a node, one more than the level noted for its parent, and
keeps the deepest one; without a level of the parent there is none to note. -/
def noteVisit? (noted : Assoc Nat × Nat) (p : Placed) : Option (Assoc Nat × Nat) := do
  let parent ← p.parent
  let above ← noted.1.get? parent
  return (noted.1.set p.id (above + 1), max noted.2 (above + 1))

def noteBranch? (forest : Forest) (table : LevelTable) (root : Placed) : Option LevelTable := do
  let noted ← (forest.descendantsOf root).foldlM noteVisit? (table.levels.set root.id 0, 0)
  return ⟨noted.1, table.depths.set root.id noted.2⟩

/-- Fills in the table for the branches of all roots. -/
def levelTable? (forest : Forest) : Option LevelTable :=
  forest.roots.foldlM forest.noteBranch? ⟨[], []⟩

def levelEntry (forest : Forest) (p : Placed) : String × Nat := (p.id, forest.levelOf p)

/-- The deepest level below a root, under its id. -/
def depthEntry (forest : Forest) (root : Placed) : String × Nat :=
  (root.id, maximum (Metrics.branchLevels forest root))

/-- Each node of a list comes after its parent. -/
def ParentsFirst (forest : Forest) : (visited visits : List Placed) → Prop
  | _, [] => True
  | visited, p :: rest =>
    (∃ up ∈ visited, forest.parent? p = some up) ∧ forest.ParentsFirst (visited ++ [p]) rest

theorem parentsFirst_append {visited visits more : List Placed} :
    forest.ParentsFirst visited (visits ++ more) ↔
      forest.ParentsFirst visited visits ∧ forest.ParentsFirst (visited ++ visits) more := by
  induction visits generalizing visited with
  | nil => simp [ParentsFirst]
  | cons p rest ih => simp [ParentsFirst, ih, and_assoc]

theorem keys_depthEntries (roots : List Placed) :
    Assoc.keys (roots.map forest.depthEntry) = roots.map Placed.id := by
  unfold Assoc.keys
  rw [List.map_map]
  rfl

theorem keys_levelEntries (visited : List Placed) :
    Assoc.keys (visited.map forest.levelEntry) = visited.map Placed.id := by
  unfold Assoc.keys
  rw [List.map_map]
  rfl

section Acyclic

variable (h : forest.Wired) (hacyclic : ∀ p, ¬ TransGen forest.ChildOf p p)

include h hacyclic

theorem Wired.parentsFirst_descendantsOf (hp : p ∈ forest) {visited : List Placed}
    (hvisited : p ∈ visited) : forest.ParentsFirst visited (forest.descendantsOf p) := by
  have hall : ∀ p ∈ forest, ∀ visited, p ∈ visited →
      forest.ParentsFirst visited (forest.descendantsOf p) := by
    refine acyclic_induction hacyclic fun p hp ih => ?_
    have hchildren : ∀ placed ⊆ forest.childrenOf p.id, ∀ visited, p ∈ visited →
        forest.ParentsFirst visited (placed.flatMap forest.branchOf) := by
      intro placed hplaced
      induction placed with
      | nil => exact fun visited _ => trivial
      | cons c rest ihrest =>
          intro visited hvisited
          have hlink : forest.ChildOf c p := (h.childOf_iff hp).mpr (hplaced List.mem_cons_self)
          have hbelow := ih c hlink.1 hlink (visited ++ [c]) (by simp)
          have hrest := ihrest (List.subset_of_cons_subset hplaced)
            (visited ++ forest.branchOf c) (List.mem_append_left _ hvisited)
          rw [List.flatMap_cons]
          exact parentsFirst_append.mpr ⟨⟨⟨p, hvisited, hlink.2⟩, hbelow⟩, hrest⟩
    intro visited hvisited
    rw [h.descendantsOf_eq hacyclic hp]
    exact hchildren _ (List.Subset.refl _) visited hvisited
  exact hall p hp visited hvisited

theorem Wired.noteVisit?_eq {visited : List Placed} {p up : Placed} (deepest : Nat)
    (hdistinct : ((visited ++ [p]).map Placed.id).Nodup) (hup : up ∈ visited)
    (hlink : forest.ChildOf p up) :
    noteVisit? (visited.map forest.levelEntry, deepest) p =
      some ((visited ++ [p]).map forest.levelEntry, max deepest (forest.levelOf p)) := by
  have hparent : p.parent = some up.id := (h.parent?_eq_some_iff.mp hlink.2).2
  have hkeys := @keys_levelEntries forest visited
  rw [List.map_append, List.nodup_append'] at hdistinct
  have hnoted : Assoc.get? (visited.map forest.levelEntry) up.id = some (forest.levelOf up) :=
    Assoc.get?_of_mem (hkeys ▸ hdistinct.1) (List.mem_map_of_mem hup)
  have hfresh : p.id ∉ Assoc.keys (visited.map forest.levelEntry) := by
    rw [hkeys]
    exact fun hmem => hdistinct.2.2 hmem (by simp)
  have hset := Assoc.set_of_not_mem hfresh (forest.levelOf p)
  rw [h.levelOf_child hacyclic hlink] at hset ⊢
  simp [noteVisit?, hparent, hnoted, hset, levelEntry, h.levelOf_child hacyclic hlink]

/-- Where parents come first, noting visits never fails and gives every node its
level. -/
theorem Wired.foldlM_noteVisit? {visited visits : List Placed} (deepest : Nat)
    (hdistinct : ((visited ++ visits).map Placed.id).Nodup)
    (hvisits : ∀ p ∈ visits, p ∈ forest) (hfirst : forest.ParentsFirst visited visits) :
    visits.foldlM noteVisit? (visited.map forest.levelEntry, deepest) =
      some ((visited ++ visits).map forest.levelEntry,
        (visits.map forest.levelOf).foldl max deepest) := by
  induction visits generalizing visited deepest with
  | nil => simp
  | cons p rest ih =>
      rcases hfirst with ⟨⟨up, hup, hparent⟩, hrest⟩
      have hassoc : visited ++ p :: rest = (visited ++ [p]) ++ rest := by simp
      rw [hassoc] at hdistinct ⊢
      have hfront : ((visited ++ [p]).map Placed.id).Nodup := by
        rw [List.map_append] at hdistinct
        exact (List.nodup_append'.mp hdistinct).1
      have hlink : forest.ChildOf p up := ⟨hvisits p List.mem_cons_self, hparent⟩
      rw [List.foldlM_cons, h.noteVisit?_eq hacyclic deepest hfront hup hlink]
      exact ih _ hdistinct (fun q hq => hvisits q (List.mem_cons_of_mem _ hq)) hrest

theorem Wired.noteBranch?_eq {visited : List Placed} {depths : Assoc Nat}
    (hroot : root ∈ forest.roots)
    (hdistinct : ((visited ++ forest.branchOf root).map Placed.id).Nodup)
    (hdepths : root.id ∉ depths.keys) :
    forest.noteBranch? ⟨visited.map forest.levelEntry, depths⟩ root =
      some ⟨(visited ++ forest.branchOf root).map forest.levelEntry,
        depths ++ [forest.depthEntry root]⟩ := by
  have hmem := (mem_roots_iff.mp hroot).1
  have hsplit : visited ++ forest.branchOf root =
      (visited ++ [root]) ++ forest.descendantsOf root := by simp [branchOf]
  have hfresh : root.id ∉ Assoc.keys (visited.map forest.levelEntry) := by
    rw [keys_levelEntries]
    rw [List.map_append, List.nodup_append'] at hdistinct
    exact fun hseen => hdistinct.2.2 hseen (by simp [branchOf])
  have hstart : Assoc.set (visited.map forest.levelEntry) root.id 0 =
      (visited ++ [root]).map forest.levelEntry := by
    rw [Assoc.set_of_not_mem hfresh]
    simp [levelEntry, h.levelOf_root hroot]
  have hbelow : ∀ p ∈ forest.descendantsOf root, p ∈ forest := fun p hp =>
    mem_of_reaches ((h.mem_descendantsOf_iff hacyclic hmem).mp hp)
  have hfirst : forest.ParentsFirst (visited ++ [root]) (forest.descendantsOf root) :=
    h.parentsFirst_descendantsOf hacyclic hmem (by simp)
  have hdeepest : maximum (Metrics.branchLevels forest root) =
      ((forest.descendantsOf root).map forest.levelOf).foldl max 0 := by
    rw [h.branchLevels_eq hacyclic hroot]
    simp [maximum, branchOf, h.levelOf_root hroot]
  rw [hsplit] at hdistinct ⊢
  unfold noteBranch?
  rw [hstart, h.foldlM_noteVisit? hacyclic 0 hdistinct hbelow hfirst]
  simp [Assoc.set_of_not_mem hdepths, depthEntry, hdeepest]

/-- Noting the branches one after another gives each root the depth of its
branch. -/
theorem Wired.foldlM_noteBranch? {done rest : List Placed} (hroots : ∀ p ∈ rest, p ∈ forest.roots)
    (hids : ((done ++ rest).map Placed.id).Nodup)
    (hdistinct : (((done ++ rest).flatMap forest.branchOf).map Placed.id).Nodup) :
    rest.foldlM forest.noteBranch?
        ⟨(done.flatMap forest.branchOf).map forest.levelEntry, done.map forest.depthEntry⟩ =
      some ⟨((done ++ rest).flatMap forest.branchOf).map forest.levelEntry,
        (done ++ rest).map forest.depthEntry⟩ := by
  induction rest generalizing done with
  | nil => simp
  | cons p rest ih =>
      have hassoc : done ++ p :: rest = (done ++ [p]) ++ rest := by simp
      rw [hassoc] at hids hdistinct ⊢
      have hfront : ((done.flatMap forest.branchOf ++ forest.branchOf p).map Placed.id).Nodup := by
        rw [List.flatMap_append, List.map_append] at hdistinct
        have hleft := (List.nodup_append'.mp hdistinct).1
        simpa using hleft
      have hfresh : p.id ∉ Assoc.keys (done.map forest.depthEntry) := by
        rw [keys_depthEntries]
        rw [List.map_append, List.map_append] at hids
        have hleft := (List.nodup_append'.mp hids).1
        exact fun hseen => (List.nodup_append'.mp hleft).2.2 hseen (by simp)
      have hstep := h.noteBranch?_eq hacyclic (hroots p List.mem_cons_self) hfront hfresh
      have hdone : forest.noteBranch?
          ⟨(done.flatMap forest.branchOf).map forest.levelEntry, done.map forest.depthEntry⟩ p =
          some ⟨((done ++ [p]).flatMap forest.branchOf).map forest.levelEntry,
            (done ++ [p]).map forest.depthEntry⟩ := by
        rw [hstep]
        simp
      rw [List.foldlM_cons, hdone]
      exact ih (fun q hq => hroots q (List.mem_cons_of_mem _ hq)) hids hdistinct

omit hacyclic in
theorem Wired.nodup_ids_roots : (forest.roots.map Placed.id).Nodup := by
  have hperm : (forest.roots.map Placed.id).Perm
      ((forest.filter fun p => p.parent.isNone).map Placed.id) :=
    (List.mergeSort_perm _ _).map Placed.id
  exact hperm.nodup_iff.mpr (h.distinct.sublist (List.filter_sublist.map Placed.id))

/-- No level of a parent is missing: the table comes to its end with the levels
of all nodes and the deepest levels of all branches. -/
theorem Wired.levelTable?_eq : forest.levelTable? =
    some ⟨(forest.roots.flatMap forest.branchOf).map forest.levelEntry,
      forest.roots.map forest.depthEntry⟩ := by
  have hbranches : ((forest.roots.flatMap forest.branchOf).map Placed.id).Nodup :=
    ((h.branches_perm hacyclic).map Placed.id).nodup_iff.mpr h.distinct
  have hroots : ∀ p ∈ forest.roots, p ∈ forest.roots := fun p hp => hp
  exact @Wired.foldlM_noteBranch? forest h hacyclic [] _ hroots h.nodup_ids_roots hbranches

end Acyclic

end Forest

end FormRules
