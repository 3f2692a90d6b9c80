import FormRules.Proofs.ForestShape

/-!
# The branches of a forest

The descendants of a node are listed by a loop over the nodes still to visit,
which puts the children of each node in front of them.  In a forest without
cycles the loop takes in a whole branch before it goes on with what was pending,
so the list is in preorder: each child of the node, followed by the list below
that child.  It holds the nodes that lead up to the node, each once, and its
length keeps within the bound of the loop.
-/

namespace FormRules

open Relation

namespace Forest

variable {forest : Forest} {p q : Placed} {level : Nat}

/-- From the pending nodes on, the loop makes these visits and then goes on with
what stood behind them. -/
def Visits (forest : Forest) (pending visits : List (Placed × Nat)) : Prop :=
  ∀ steps rest, forest.descendFrom (visits.length + steps) (pending ++ rest) =
    visits ++ forest.descendFrom steps rest

namespace Visits

variable {pending more visits others : List (Placed × Nat)}

theorem nil : forest.Visits [] [] := by
  intro steps rest
  simp

theorem append (hfirst : forest.Visits pending visits) (hmore : forest.Visits more others) :
    forest.Visits (pending ++ more) (visits ++ others) := by
  intro steps rest
  rw [List.length_append, List.append_assoc, List.append_assoc, Nat.add_assoc, hfirst, hmore]

theorem node (hbelow : forest.Visits ((forest.childrenOf p.id).map fun c => (c, level + 1))
    visits) : forest.Visits [(p, level)] ((p, level) :: visits) := by
  intro steps rest
  have hsteps : ((p, level) :: visits).length + steps = (visits.length + steps) + 1 := by
    rw [List.length_cons]
    omega
  rw [hsteps]
  change (p, level) :: forest.descendFrom (visits.length + steps) (_ ++ rest) = _
  rw [hbelow]
  rfl

theorem flatMap {placed : List Placed} {below : Placed → List (Placed × Nat)}
    (hbelow : ∀ c ∈ placed, forest.Visits [(c, level)] (below c)) :
    forest.Visits (placed.map fun c => (c, level)) (placed.flatMap below) := by
  induction placed with
  | nil => exact nil
  | cons c rest ih =>
      have hfirst := hbelow c List.mem_cons_self
      have hrest := ih fun d hd => hbelow d (List.mem_cons_of_mem c hd)
      exact hfirst.append hrest

/-- A descent with enough steps makes the visits in their order. -/
theorem descendFrom_eq (h : forest.Visits pending visits) {steps : Nat}
    (hsteps : visits.length ≤ steps) : forest.descendFrom steps pending = visits := by
  have hrun := h (steps - visits.length) []
  have hend : forest.descendFrom (steps - visits.length) [] = [] := by
    cases steps - visits.length <;> rfl
  have hsum : visits.length + (steps - visits.length) = steps := by omega
  rwa [hsum, hend, List.append_nil, List.append_nil] at hrun

end Visits

/-- The visits below a node: in all, the nodes that lead up to it. -/
structure Branch (forest : Forest) (p : Placed) (level : Nat) (below : List (Placed × Nat)) :
    Prop where
  visits : forest.Visits ((forest.childrenOf p.id).map fun c => (c, level + 1)) below
  nodup : (below.map Prod.fst).Nodup
  mem_iff : ∀ q, q ∈ below.map Prod.fst ↔ TransGen forest.ChildOf q p

theorem childOf_rightUnique (forest : Forest) : Relator.RightUnique forest.ChildOf := by
  intro p q q' hq hq'
  exact Option.some.inj (hq.2.symm.trans hq'.2)

theorem mem_of_reaches (hq : TransGen forest.ChildOf q p) : q ∈ forest := by
  rcases TransGen.head'_iff.mp hq with ⟨up, hlink, -⟩
  exact hlink.1

theorem Wired.childOf_iff (h : forest.Wired) (hp : p ∈ forest) :
    forest.ChildOf q p ↔ q ∈ forest.childrenOf p.id := by
  constructor
  · intro hlink
    exact (h.mem_childrenOf_iff_parent? hlink.1 hp).mpr hlink.2
  · intro hchild
    have hq := (mem_childrenOf_iff.mp hchild).1
    exact ⟨hq, (h.mem_childrenOf_iff_parent? hq hp).mp hchild⟩

theorem Branch.levelsBelow_eq {below : List (Placed × Nat)}
    (hbranch : forest.Branch p level below) : forest.levelsBelow p level = below := by
  have hsub : below.map Prod.fst ⊆ forest := fun q hq =>
    mem_of_reaches ((hbranch.mem_iff q).mp hq)
  have hlength := (List.subperm_of_subset hbranch.nodup hsub).length_le
  rw [List.length_map] at hlength
  exact hbranch.visits.descendFrom_eq hlength

section Acyclic

variable (h : forest.Wired) (hacyclic : ∀ p, ¬ TransGen forest.ChildOf p p)

include h hacyclic

/-- No node leads up to two children of one node. -/
theorem Wired.child_unique (hp : p ∈ forest) {c d : Placed} (hc : c ∈ forest.childrenOf p.id)
    (hd : d ∈ forest.childrenOf p.id) (hqc : ReflTransGen forest.ChildOf q c)
    (hqd : ReflTransGen forest.ChildOf q d) : c = d := by
  have hr := childOf_rightUnique forest
  -- A child that leads up to another one does so through their parent.
  have hnone : ∀ a ∈ forest.childrenOf p.id, ∀ b ∈ forest.childrenOf p.id,
      ¬ TransGen forest.ChildOf a b := by
    intro a ha b hb hab
    rcases TransGen.head'_iff.mp hab with ⟨up, hlink, hup⟩
    have heq : up = p := hr hlink ((h.childOf_iff hp).mpr ha)
    rw [heq] at hup
    exact hacyclic p (TransGen.tail' hup ((h.childOf_iff hp).mpr hb))
  rcases hqc.total_of_right_unique hr hqd with hcd | hdc
  · rcases reflTransGen_iff_eq_or_transGen.mp hcd with heq | habove
    · exact heq.symm
    · exact absurd habove (hnone c hc d hd)
  · rcases reflTransGen_iff_eq_or_transGen.mp hdc with heq | habove
    · exact heq
    · exact absurd habove (hnone d hd c hc)

theorem Branch.of_children (hp : p ∈ forest)
    (hbelow : ∀ c ∈ forest.childrenOf p.id,
      forest.Branch c (level + 1) (forest.levelsBelow c (level + 1))) :
    forest.Branch p level ((forest.childrenOf p.id).flatMap fun c =>
      (c, level + 1) :: forest.levelsBelow c (level + 1)) := by
  have hmem : ∀ c ∈ forest.childrenOf p.id, ∀ q,
      q ∈ c :: (forest.levelsBelow c (level + 1)).map Prod.fst ↔
        ReflTransGen forest.ChildOf q c := by
    intro c hc q
    rw [List.mem_cons, (hbelow c hc).mem_iff, reflTransGen_iff_eq_or_transGen, @eq_comm _ c q]
  have hfst : ((forest.childrenOf p.id).flatMap fun c =>
        (c, level + 1) :: forest.levelsBelow c (level + 1)).map Prod.fst =
      (forest.childrenOf p.id).flatMap fun c =>
        c :: (forest.levelsBelow c (level + 1)).map Prod.fst := by
    rw [List.map_flatMap]
    rfl
  constructor
  · exact Visits.flatMap fun c hc => (hbelow c hc).visits.node
  · rw [hfst]
    apply List.nodup_flatMap.mpr
    constructor
    · intro c hc
      apply List.nodup_cons.mpr
      exact ⟨fun hself => hacyclic c (((hbelow c hc).mem_iff c).mp hself), (hbelow c hc).nodup⟩
    · apply (nodup_childrenOf h.nodup p.id).imp_of_mem
      intro c d hc hd hne q hqc hqd
      exact hne (h.child_unique hacyclic hp hc hd ((hmem c hc q).mp hqc) ((hmem d hd q).mp hqd))
  · intro q
    rw [hfst, List.mem_flatMap, TransGen.tail'_iff]
    constructor
    · intro hq
      rcases hq with ⟨c, hc, hqc⟩
      exact ⟨c, (hmem c hc q).mp hqc, (h.childOf_iff hp).mpr hc⟩
    · intro hq
      rcases hq with ⟨c, hqc, hlink⟩
      have hc := (h.childOf_iff hp).mp hlink
      exact ⟨c, hc, (hmem c hc q).mpr hqc⟩

/-- Without cycles everything below a node is one branch, visited once. -/
theorem Wired.branch (hp : p ∈ forest) (level : Nat) :
    forest.Branch p level (forest.levelsBelow p level) := by
  -- Induction from the children of a node to the node.
  have hall : ∀ p ∈ forest, ∀ level, forest.Branch p level (forest.levelsBelow p level) := by
    refine acyclic_induction hacyclic fun p hp ih level => ?_
    have hbelow : ∀ c ∈ forest.childrenOf p.id,
        forest.Branch c (level + 1) (forest.levelsBelow c (level + 1)) := by
      intro c hc
      have hlink : forest.ChildOf c p := (h.childOf_iff hp).mpr hc
      exact ih c hlink.1 hlink (level + 1)
    have hbranch := Branch.of_children h hacyclic hp hbelow
    rwa [hbranch.levelsBelow_eq]
  exact hall p hp level

/-- The descendants are listed in preorder. -/
theorem Wired.levelsBelow_eq (hp : p ∈ forest) (level : Nat) :
    forest.levelsBelow p level = (forest.childrenOf p.id).flatMap fun c =>
      (c, level + 1) :: forest.levelsBelow c (level + 1) := by
  apply Branch.levelsBelow_eq
  apply Branch.of_children h hacyclic hp
  intro c hc
  exact h.branch hacyclic (mem_childrenOf_iff.mp hc).1 (level + 1)

theorem Wired.mem_descendantsOf_iff (hp : p ∈ forest) :
    q ∈ forest.descendantsOf p ↔ TransGen forest.ChildOf q p :=
  (h.branch hacyclic hp 0).mem_iff q

theorem Wired.nodup_descendantsOf (hp : p ∈ forest) : (forest.descendantsOf p).Nodup :=
  (h.branch hacyclic hp 0).nodup

end Acyclic

end Forest

end FormRules
