import FormRules.Hierarchy.Forest
import FormRules.Proofs.Links

/-!
# The shape of a forest

A forest is wired when its ids are distinct and every parent in it is a node of
it.  Its nodes are then split between the roots and the lists of children, each
list sorted by order with ties as in the forest.

The walk meets no node twice and takes in the children of all nodes it meets.
So it ends within as many steps as there are nodes, and it meets exactly those
nodes whose ancestors lead up to a root: all of them when no node is its own
ancestor.
-/

namespace FormRules

open Relation

namespace Forest

variable {forest : Forest}

structure Wired (forest : Forest) : Prop where
  distinct : forest.ids.Nodup
  resolved : ∀ p ∈ forest, ∀ id, p.parent = some id → id ∈ forest.ids

def parent? (forest : Forest) (p : Placed) : Option Placed := p.parent.bind forest.find?

def ChildOf (forest : Forest) (p q : Placed) : Prop := p ∈ forest ∧ forest.parent? p = some q

/-- The ancestors of a node lead up to a root. -/
def Rooted (forest : Forest) (p : Placed) : Prop :=
  ∃ root ∈ forest.roots, ReflTransGen forest.ChildOf p root

/-- Sorted by order, ties as in the forest. -/
def InOrder (forest : Forest) (placed : List Placed) : Prop :=
  placed.Pairwise fun a b =>
    a.node.order < b.node.order ∨ a.node.order = b.node.order ∧ [a, b].Sublist forest

/-! ## Roots and children -/

theorem mem_roots_iff {p : Placed} : p ∈ forest.roots ↔ p ∈ forest ∧ p.parent = none := by
  unfold roots sortByOrder
  rw [List.mem_mergeSort, List.mem_filter, Option.isNone_iff_eq_none]

theorem mem_childrenOf_iff {p : Placed} {id : String} :
    p ∈ forest.childrenOf id ↔ p ∈ forest ∧ p.parent = some id := by
  unfold childrenOf sortByOrder
  rw [List.mem_mergeSort, List.mem_filter, beq_iff_eq]

theorem Wired.nodup (h : forest.Wired) : forest.Nodup := List.Nodup.of_map _ h.distinct

theorem nodup_roots (h : forest.Nodup) : forest.roots.Nodup :=
  (List.mergeSort_perm _ _).nodup_iff.mpr (h.filter _)

theorem nodup_childrenOf (h : forest.Nodup) (id : String) : (forest.childrenOf id).Nodup :=
  (List.mergeSort_perm _ _).nodup_iff.mpr (h.filter _)

theorem Wired.eq_of_id_eq (h : forest.Wired) {p q : Placed} (hp : p ∈ forest)
    (hq : q ∈ forest) (hid : p.id = q.id) : p = q :=
  List.inj_on_of_nodup_map h.distinct hp hq hid

theorem Wired.find?_eq_some_iff (h : forest.Wired) {id : String} {p : Placed} :
    forest.find? id = some p ↔ p ∈ forest ∧ p.id = id := by
  unfold find?
  constructor
  · intro hfind
    exact ⟨List.mem_of_find?_eq_some hfind, by simpa using List.find?_some hfind⟩
  · rintro ⟨hp, hid⟩
    cases hfind : List.find? (fun q : Placed => q.id == id) forest with
    | none =>
        have hne := List.find?_eq_none.mp hfind p hp
        simp [hid] at hne
    | some q =>
        have hq : q.id = id := by simpa using List.find?_some hfind
        rw [h.eq_of_id_eq (List.mem_of_find?_eq_some hfind) hp (hq.trans hid.symm)]

theorem Wired.parent?_eq_some_iff (h : forest.Wired) {p q : Placed} :
    forest.parent? p = some q ↔ q ∈ forest ∧ p.parent = some q.id := by
  unfold parent?
  rw [Option.bind_eq_some_iff]
  constructor
  · rintro ⟨id, hparent, hfind⟩
    obtain ⟨hq, hid⟩ := h.find?_eq_some_iff.mp hfind
    exact ⟨hq, by rw [hparent, hid]⟩
  · rintro ⟨hq, hparent⟩
    exact ⟨q.id, hparent, h.find?_eq_some_iff.mpr ⟨hq, rfl⟩⟩

theorem Wired.exists_parent (h : forest.Wired) {p : Placed} (hp : p ∈ forest) {id : String}
    (hparent : p.parent = some id) : ∃ q, q.id = id ∧ forest.parent? p = some q := by
  obtain ⟨q, hq, hid⟩ := List.mem_map.mp (h.resolved p hp id hparent)
  exact ⟨q, hid, h.parent?_eq_some_iff.mpr ⟨hq, by rw [hparent, hid]⟩⟩

theorem Wired.parent?_eq_none_iff (h : forest.Wired) {p : Placed} (hp : p ∈ forest) :
    forest.parent? p = none ↔ p.parent = none := by
  constructor
  · intro hnone
    cases hparent : p.parent with
    | none => rfl
    | some id =>
        obtain ⟨q, -, hq⟩ := h.exists_parent hp hparent
        simp [hnone] at hq
  · intro hparent
    simp [parent?, hparent]

theorem Wired.mem_roots_iff_parent? (h : forest.Wired) {p : Placed} (hp : p ∈ forest) :
    p ∈ forest.roots ↔ forest.parent? p = none := by
  rw [mem_roots_iff, h.parent?_eq_none_iff hp]
  simp [hp]

theorem Wired.mem_childrenOf_iff_parent? (h : forest.Wired) {p q : Placed} (hp : p ∈ forest)
    (hq : q ∈ forest) : p ∈ forest.childrenOf q.id ↔ forest.parent? p = some q := by
  rw [mem_childrenOf_iff, h.parent?_eq_some_iff]
  simp [hp, hq]

/-- Every node is a root or a child of one node, and that once. -/
theorem Wired.roots_append_children_perm (h : forest.Wired) :
    (forest.roots ++ forest.flatMap fun p => forest.childrenOf p.id).Perm forest := by
  have hchildren : (forest.flatMap fun p => forest.childrenOf p.id).Nodup := by
    refine List.nodup_flatMap.mpr ⟨fun p _ => nodup_childrenOf h.nodup p.id, ?_⟩
    refine h.nodup.imp_of_mem fun hp hq hne c hcp hcq => hne ?_
    have hparent := (mem_childrenOf_iff.mp hcp).2
    rw [(mem_childrenOf_iff.mp hcq).2] at hparent
    exact h.eq_of_id_eq hp hq (Option.some.inj hparent).symm
  have hdistinct : (forest.roots ++ forest.flatMap fun p => forest.childrenOf p.id).Nodup := by
    refine List.nodup_append'.mpr ⟨nodup_roots h.nodup, hchildren, fun c hroot hchild => ?_⟩
    obtain ⟨p, -, hcp⟩ := List.mem_flatMap.mp hchild
    have hparent := (mem_childrenOf_iff.mp hcp).2
    rw [(mem_roots_iff.mp hroot).2] at hparent
    exact absurd hparent (by simp)
  refine (List.perm_ext_iff_of_nodup hdistinct h.nodup).mpr fun c => ?_
  rw [List.mem_append, List.mem_flatMap]
  constructor
  · rintro (hroot | ⟨p, -, hcp⟩)
    · exact (mem_roots_iff.mp hroot).1
    · exact (mem_childrenOf_iff.mp hcp).1
  · intro hc
    cases hparent : c.parent with
    | none => exact .inl (mem_roots_iff.mpr ⟨hc, hparent⟩)
    | some id =>
        obtain ⟨q, hid, hq⟩ := h.exists_parent hc hparent
        have hqmem := (h.parent?_eq_some_iff.mp hq).1
        exact .inr ⟨q, hqmem, mem_childrenOf_iff.mpr ⟨hc, by rw [hparent, hid]⟩⟩

/-! ## Sorting -/

theorem pair_sublist_or {l : List Placed} {a b : Placed} (ha : a ∈ l) (hb : b ∈ l)
    (hne : a ≠ b) : [a, b].Sublist l ∨ [b, a].Sublist l := by
  obtain ⟨before, after, hsplit⟩ := List.append_of_mem ha
  rw [hsplit, List.mem_append, List.mem_cons] at hb
  rw [hsplit]
  rcases hb with hbefore | heq | hafter
  · right
    exact (List.singleton_sublist.mpr hbefore).append
      (List.singleton_sublist.mpr (List.mem_cons_self ..))
  · exact absurd heq.symm hne
  · left
    exact ((List.singleton_sublist.mpr hafter).cons_cons a).trans
      (List.sublist_append_right _ _)

theorem not_pair_sublist_swap {l : List Placed} (h : l.Nodup) {a b : Placed}
    (hab : [a, b].Sublist l) : ¬ [b, a].Sublist l := by
  intro hba
  have hne : a ≠ b := by
    rintro rfl
    exact (List.nodup_iff_sublist.mp h) a hab
  induction l with
  | nil => simp at hab
  | cons c rest ih =>
      obtain ⟨hfresh, hrest⟩ := List.nodup_cons.mp h
      by_cases hca : c = a
      · subst hca
        have hba' : [b, c].Sublist rest := by
          cases hba with
          | cons _ hba => exact hba
          | cons_cons _ _ => exact absurd rfl hne
        exact hfresh (hba'.subset (by simp))
      · have hab' : [a, b].Sublist rest := by
          cases hab with
          | cons _ hab => exact hab
          | cons_cons _ _ => exact absurd rfl hca
        by_cases hcb : c = b
        · subst hcb
          exact hfresh (hab'.subset (by simp))
        · cases hba with
          | cons _ hba => exact ih hrest hab' hba
          | cons_cons _ _ => exact absurd rfl hcb

/-- Sorting some of the nodes keeps those of one order as in the forest. -/
theorem inOrder_sortByOrder (h : forest.Nodup) {placed : List Placed}
    (hsub : placed.Sublist forest) : forest.InOrder (sortByOrder placed) := by
  have htrans : ∀ a b c : Placed, decide (a.node.order ≤ b.node.order) = true →
      decide (b.node.order ≤ c.node.order) = true →
      decide (a.node.order ≤ c.node.order) = true := by
    intro a b c hab hbc
    simp only [decide_eq_true_eq] at hab hbc ⊢
    omega
  have htotal : ∀ a b : Placed, (decide (a.node.order ≤ b.node.order) ||
      decide (b.node.order ≤ a.node.order)) = true := by
    intro a b
    simp only [Bool.or_eq_true, decide_eq_true_eq]
    omega
  have hnodup : (sortByOrder placed).Nodup :=
    (List.mergeSort_perm _ _).nodup_iff.mpr (h.sublist hsub)
  have hsorted := List.pairwise_mergeSort htrans htotal placed
  refine List.pairwise_iff_forall_sublist.mpr fun {a b} hab => ?_
  have hle : a.node.order ≤ b.node.order := by
    simpa using List.pairwise_iff_forall_sublist.mp hsorted hab
  rcases lt_or_eq_of_le hle with hlt | heq
  · exact .inl hlt
  · refine .inr ⟨heq, ?_⟩
    have hne : a ≠ b := List.pairwise_iff_forall_sublist.mp hnodup hab
    have ha : a ∈ placed := List.mem_mergeSort.mp (hab.subset (by simp))
    have hb : b ∈ placed := List.mem_mergeSort.mp (hab.subset (by simp))
    rcases pair_sublist_or ha hb hne with hplaced | hplaced
    · exact hplaced.trans hsub
    · have hba : [b, a].Sublist (sortByOrder placed) :=
        List.pair_sublist_mergeSort htrans htotal (by simp [heq]) hplaced
      exact absurd hba (not_pair_sublist_swap hnodup hab)

theorem inOrder_roots (h : forest.Nodup) : forest.InOrder forest.roots :=
  inOrder_sortByOrder h List.filter_sublist

theorem inOrder_childrenOf (h : forest.Nodup) (id : String) :
    forest.InOrder (forest.childrenOf id) :=
  inOrder_sortByOrder h List.filter_sublist

/-! ## The walk -/

/-- Part of a walk: the nodes it has visited and those in its queue. -/
structure Visiting (forest : Forest) (visited queue : List Placed) : Prop where
  distinct : (visited ++ queue).Nodup
  rooted : ∀ p ∈ visited ++ queue, p ∈ forest ∧ forest.Rooted p
  ancestors : ∀ p ∈ visited ++ queue, ∀ q, forest.parent? p = some q → q ∈ visited
  roots : ∀ p ∈ forest.roots, p ∈ visited ++ queue
  children : ∀ p ∈ visited, ∀ c ∈ forest.childrenOf p.id, c ∈ visited ++ queue

theorem Wired.visiting_roots (h : forest.Wired) : forest.Visiting [] forest.roots := by
  constructor
  · simpa using nodup_roots h.nodup
  · intro p hp
    exact ⟨(mem_roots_iff.mp hp).1, p, hp, .refl⟩
  · intro p hp q hq
    have hnone := (h.mem_roots_iff_parent? (mem_roots_iff.mp hp).1).mp hp
    simp [hnone] at hq
  · simp
  · simp

/-- Visiting the first of the queue and putting its children behind keeps the
walk on course. -/
theorem Visiting.step (h : forest.Wired) {visited rest : List Placed} {p : Placed}
    (hv : forest.Visiting visited (p :: rest)) :
    forest.Visiting (visited ++ [p]) (rest ++ forest.childrenOf p.id) := by
  have hassoc : (visited ++ [p]) ++ (rest ++ forest.childrenOf p.id) =
      (visited ++ p :: rest) ++ forest.childrenOf p.id := by simp
  have hp : p ∈ visited ++ p :: rest := by simp
  obtain ⟨hpmem, root, hroot, hpath⟩ := hv.rooted p hp
  have hfresh : p ∉ visited := by
    have hdisjoint := (List.nodup_append'.mp hv.distinct).2.2
    exact fun hvisited => hdisjoint hvisited (by simp)
  have hchild : ∀ c ∈ forest.childrenOf p.id, c ∈ forest ∧ forest.parent? c = some p := by
    intro c hc
    have hcmem := (mem_childrenOf_iff.mp hc).1
    exact ⟨hcmem, (h.mem_childrenOf_iff_parent? hcmem hpmem).mp hc⟩
  constructor
  · rw [hassoc]
    refine List.nodup_append'.mpr ⟨hv.distinct, nodup_childrenOf h.nodup p.id, ?_⟩
    intro c hc hcchild
    exact hfresh (hv.ancestors c hc p (hchild c hcchild).2)
  · rw [hassoc]
    intro c hc
    rcases List.mem_append.mp hc with hc | hc
    · exact hv.rooted c hc
    · exact ⟨(hchild c hc).1, root, hroot, .head (hchild c hc) hpath⟩
  · rw [hassoc]
    intro c hc q hq
    rcases List.mem_append.mp hc with hc | hc
    · exact List.mem_append_left _ (hv.ancestors c hc q hq)
    · have heq : p = q := Option.some.inj ((hchild c hc).2.symm.trans hq)
      simp [heq]
  · rw [hassoc]
    exact fun q hq => List.mem_append_left _ (hv.roots q hq)
  · rw [hassoc]
    intro q hq c hc
    rcases List.mem_append.mp hq with hq | hq
    · exact List.mem_append_left _ (hv.children q hq c hc)
    · have heq : q = p := by simpa using hq
      subst heq
      exact List.mem_append_right _ hc

theorem Visiting.length_le {visited queue : List Placed} (hv : forest.Visiting visited queue) :
    visited.length + queue.length ≤ forest.length := by
  rw [← List.length_append]
  exact (List.subperm_of_subset hv.distinct fun p hp => (hv.rooted p hp).1).length_le

/-- With as many steps as there are nodes left, a walk comes to its end. -/
theorem Visiting.run (h : forest.Wired) {steps : Nat} {visited queue : List Placed}
    (hv : forest.Visiting visited queue) (hsteps : forest.length ≤ steps + visited.length) :
    forest.Visiting (visited ++ forest.walkFrom steps queue) [] := by
  induction steps generalizing visited queue with
  | zero =>
      have hle := hv.length_le
      have hnil : queue = [] := List.length_eq_zero_iff.mp (by omega)
      subst hnil
      simpa [walkFrom] using hv
  | succ steps ih =>
      cases queue with
      | nil => simpa [walkFrom] using hv
      | cons p rest =>
          have hlength : (visited ++ [p]).length = visited.length + 1 := by simp
          have hrest := ih (hv.step h) (by omega)
          rw [List.append_assoc] at hrest
          exact hrest

theorem Visiting.walkFrom_eq (h : forest.Wired) {steps steps' : Nat}
    {visited queue : List Placed} (hv : forest.Visiting visited queue)
    (hsteps : forest.length ≤ steps + visited.length)
    (hsteps' : forest.length ≤ steps' + visited.length) :
    forest.walkFrom steps queue = forest.walkFrom steps' queue := by
  induction steps generalizing steps' visited queue with
  | zero =>
      have hle := hv.length_le
      have hnil : queue = [] := List.length_eq_zero_iff.mp (by omega)
      subst hnil
      cases steps' <;> rfl
  | succ steps ih =>
      cases queue with
      | nil => cases steps' <;> rfl
      | cons p rest =>
          have hle := hv.length_le
          rw [List.length_cons] at hle
          obtain ⟨n, rfl⟩ : ∃ n, steps' = n + 1 := ⟨steps' - 1, by omega⟩
          have hlength : (visited ++ [p]).length = visited.length + 1 := by simp
          have hrest : forest.walkFrom steps (rest ++ forest.childrenOf p.id) =
              forest.walkFrom n (rest ++ forest.childrenOf p.id) :=
            ih (hv.step h) (by omega) (by omega)
          simp only [walkFrom, hrest]

/-- The walk ends with nothing left to visit. -/
theorem Wired.walk_visiting (h : forest.Wired) : forest.Visiting forest.walk [] :=
  h.visiting_roots.run h (by simp)

/-- More steps than there are nodes change nothing about a walk. -/
theorem Wired.walkFrom_eq_walk (h : forest.Wired) {steps : Nat}
    (hsteps : forest.length ≤ steps) : forest.walkFrom steps forest.roots = forest.walk :=
  h.visiting_roots.walkFrom_eq h (by simpa using hsteps) (by simp)

/-- The walk meets a node exactly where its parents lead to a root. -/
theorem Wired.mem_walk_iff (h : forest.Wired) {p : Placed} (hp : p ∈ forest) :
    p ∈ forest.walk ↔ forest.Rooted p := by
  have hv := h.walk_visiting
  constructor
  · intro hwalk
    exact (hv.rooted p (by simpa using hwalk)).2
  · rintro ⟨root, hroot, hpath⟩
    induction hpath using ReflTransGen.head_induction_on with
    | refl => simpa using hv.roots root hroot
    | @head p q hpq _ ih =>
        have hq : q ∈ forest := (h.parent?_eq_some_iff.mp hpq.2).1
        have hchild := (h.mem_childrenOf_iff_parent? hpq.1 hq).mpr hpq.2
        simpa using hv.children q (ih hq) p hchild

/-! ## Forests without cycles -/

/-- Going up from a node ends when no node is its own ancestor. -/
theorem Wired.rooted (h : forest.Wired) (hacyclic : ∀ p, ¬ TransGen forest.ChildOf p p)
    {p : Placed} (hp : p ∈ forest) : forest.Rooted p := by
  have hswapped : ∀ p, ¬ OnCycle (Function.swap forest.ChildOf) p := by
    intro p hcycle
    exact hacyclic p (transGen_swap.mp hcycle)
  -- Induction from the parent of a node to the node.
  apply acyclic_induction hswapped ?_ p hp
  intro p hp ih
  cases hparent : forest.parent? p with
  | none => exact ⟨p, (h.mem_roots_iff_parent? hp).mpr hparent, .refl⟩
  | some up =>
      have hup : up ∈ forest := (h.parent?_eq_some_iff.mp hparent).1
      have hlink : forest.ChildOf p up := ⟨hp, hparent⟩
      rcases ih up hup hlink with ⟨root, hroot, hpath⟩
      exact ⟨root, hroot, .head hlink hpath⟩

/-- Without cycles the walk meets every node once. -/
theorem Wired.walk_perm (h : forest.Wired) (hacyclic : ∀ p, ¬ TransGen forest.ChildOf p p) :
    forest.walk.Perm forest := by
  have hv := h.walk_visiting
  have hdistinct : forest.walk.Nodup := by simpa using hv.distinct
  refine (List.perm_ext_iff_of_nodup hdistinct h.nodup).mpr fun p => ?_
  constructor
  · intro hwalk
    exact (hv.rooted p (by simpa using hwalk)).1
  · intro hp
    exact (h.mem_walk_iff hp).mpr (h.rooted hacyclic hp)

end Forest

end FormRules
