import FormRules.Proofs.RepairProgress

/-!
# Repaired lists

A repair links the first node of each id to its repaired parent and leaves all
other nodes as they are.  The repaired list has the ids it had before, in the
same places, and its links are those the repair keeps.  None of them leads to an
unknown id and none of them is on a cycle the search sees, so a check finds no
orphan and no cycle, and a second repair keeps every link.
-/

namespace FormRules

open Relation

theorem Node.setParent_eq_self {node : Node} {parent : Value} (h : node.parent = parent) :
    node.setParent parent = node := by
  subst h
  rfl

namespace Repair

/-- A node with its repaired parent, unless a node in front has its id. -/
def relinked (repair : Repair) (before : List String) (node : Node) : Node :=
  if node.id ∈ before then node
  else node.setParent (Value.ofText? (repair.parentOf node.id))

variable {repair : Repair} {before : List String} {node : Node} {nodes : List Node}

theorem relinked_id : (repair.relinked before node).id = node.id := by
  unfold relinked
  split <;> rfl

theorem relinked_of_mem (h : node.id ∈ before) : repair.relinked before node = node :=
  if_pos h

theorem relinked_nil :
    repair.relinked [] node = node.setParent (Value.ofText? (repair.parentOf node.id)) :=
  if_neg (by simp)

theorem relinked_congr {before' : List String} (h : node.id ∈ before ↔ node.id ∈ before') :
    repair.relinked before node = repair.relinked before' node := by
  unfold relinked
  simp only [h]

theorem applyFrom_cons :
    repair.applyFrom before (node :: nodes) =
      repair.relinked before node :: repair.applyFrom (node.id :: before) nodes := by
  simp only [applyFrom]
  congr 1
  unfold relinked
  by_cases hmem : node.id ∈ before
  · simp [hmem]
  · by_cases hparent : node.parent = Value.ofText? (repair.parentOf node.id)
    · simp [hmem, ← hparent, Node.setParent_eq_self]
    · simp [hmem, hparent]

theorem getElem?_applyFrom (i : Nat) :
    (repair.applyFrom before nodes)[i]? =
      nodes[i]?.map (repair.relinked ((nodes.take i).map Node.id ++ before)) := by
  induction nodes generalizing before i with
  | nil => simp [applyFrom]
  | cons node rest ih =>
      rw [applyFrom_cons]
      cases i with
      | zero => simp
      | succ i =>
          rw [List.getElem?_cons_succ, List.getElem?_cons_succ, ih]
          congr 1
          funext other
          apply relinked_congr
          simp only [List.take_succ_cons, List.map_cons, List.mem_append, List.mem_cons]
          tauto

theorem map_id_applyFrom :
    (repair.applyFrom before nodes).map Node.id = nodes.map Node.id := by
  induction nodes generalizing before with
  | nil => rfl
  | cons node rest ih => rw [applyFrom_cons, List.map_cons, List.map_cons, relinked_id, ih]

theorem firsts_applyFrom :
    Nodes.firsts (repair.applyFrom before nodes) =
      (Nodes.firsts nodes).map (repair.relinked before) := by
  induction nodes generalizing before with
  | nil => rfl
  | cons node rest ih =>
      have hfirsts : ∀ first others, Nodes.firsts (first :: others) =
          first :: (Nodes.firsts others).filter fun other => other.id ≠ first.id :=
        fun _ _ => rfl
      rw [applyFrom_cons, hfirsts, hfirsts, ih, List.map_cons, List.filter_map, relinked_id]
      congr 1
      have hkept : ((fun other : Node => decide (other.id ≠ node.id)) ∘
          repair.relinked (node.id :: before)) = fun other => decide (other.id ≠ node.id) := by
        funext other
        simp [relinked_id]
      rw [hkept]
      refine List.map_congr_left fun other hother => ?_
      have hne : other.id ≠ node.id := by simpa using (List.mem_filter.mp hother).2
      apply relinked_congr
      simp [hne]

end Repair

namespace Nodes

variable {nodes : List Node}

/-! ## What a repair leaves as it is -/

theorem map_id_repaired (nodes : List Node) :
    (repaired nodes).map Node.id = nodes.map Node.id :=
  Repair.map_id_applyFrom

theorem firsts_repaired (nodes : List Node) :
    firsts (repaired nodes) = (firsts nodes).map ((Repair.ofNodes nodes).relinked []) :=
  Repair.firsts_applyFrom

theorem getElem?_repaired {i : Nat} {node : Node} (h : nodes[i]? = some node)
    (hfirst : FirstAt nodes i) :
    (repaired nodes)[i]? = some ((Repair.ofNodes nodes).relinked [] node) := by
  unfold repaired Repair.apply
  rw [Repair.getElem?_applyFrom, h, Option.map_some, List.append_nil]
  congr 1
  apply Repair.relinked_congr
  simpa using (firstAt_iff h).mp hfirst

theorem getElem?_repaired_of_not_first {i : Nat} {node : Node} (h : nodes[i]? = some node)
    (hlater : ¬ FirstAt nodes i) : (repaired nodes)[i]? = some node := by
  unfold repaired Repair.apply
  rw [Repair.getElem?_applyFrom, h, Option.map_some, List.append_nil]
  rw [firstAt_iff h, not_not] at hlater
  rw [Repair.relinked_of_mem hlater]

theorem mem_repaired {out : Node} (h : out ∈ repaired nodes) :
    out ∈ nodes ∨ ∃ node ∈ firsts nodes, out = (Repair.ofNodes nodes).relinked [] node := by
  obtain ⟨i, hi⟩ := List.mem_iff_getElem?.mp h
  cases hnode : nodes[i]? with
  | none =>
      unfold repaired Repair.apply at hi
      rw [Repair.getElem?_applyFrom, hnode] at hi
      simp at hi
  | some node =>
      by_cases hfirst : FirstAt nodes i
      · rw [getElem?_repaired hnode hfirst] at hi
        exact .inr ⟨node, mem_firsts_of_firstAt hnode hfirst, (Option.some.inj hi).symm⟩
      · rw [getElem?_repaired_of_not_first hnode hfirst] at hi
        have heq := Option.some.inj hi
        subst heq
        exact .inl (List.mem_of_getElem? hnode)

theorem ids_repaired (nodes : List Node) : ids (repaired nodes) = ids nodes := by
  unfold ids
  rw [firsts_repaired, List.map_map]
  exact List.map_congr_left fun node _ => Repair.relinked_id

theorem occurrences_eq_count (nodes : List Node) (id : String) :
    occurrences nodes id = (nodes.map Node.id).count id := by
  unfold occurrences
  rw [List.count, List.countP_map, List.countP_eq_length_filter]
  rfl

theorem duplicateIssues_repaired (nodes : List Node) :
    duplicateIssues (repaired nodes) = duplicateIssues nodes := by
  unfold duplicateIssues
  simp only [ids_repaired, occurrences_eq_count, map_id_repaired]

/-! ## The links of a repaired list -/

theorem relinked_parentId? {node : Node} :
    ((Repair.ofNodes nodes).relinked [] node).parentId? =
      (Repair.ofNodes nodes).parentOf node.id := by
  rw [Repair.relinked_nil]
  unfold Node.parentId? Node.setParent
  cases (Repair.ofNodes nodes).parentOf node.id <;> rfl

/-- The links of the repaired list are those that were kept. -/
theorem linksTo_repaired_iff {a b : String} :
    LinksTo (repaired nodes) a b ↔ KeptLink nodes a b := by
  unfold LinksTo
  rw [ids_repaired, firsts_repaired]
  constructor
  · rintro ⟨-, node', hnode', hid, hparent⟩
    obtain ⟨node, hnode, heq⟩ := List.mem_map.mp hnode'
    subst heq
    rw [relinked_parentId?, ofNodes_parentOf_iff] at hparent
    rw [Repair.relinked_id] at hid
    rwa [hid] at hparent
  · intro hkept
    obtain ⟨hb, node, hnode, hid, -⟩ := hkept.1
    refine ⟨hb, _, List.mem_map_of_mem hnode, Repair.relinked_id.trans hid, ?_⟩
    rw [relinked_parentId?, ofNodes_parentOf_iff, hid]
    exact hkept

theorem strayParent?_relinked (nodes : List Node) (node : Node) :
    ((Repair.ofNodes nodes).relinked [] node).strayParent? (ids nodes) = none := by
  rw [Repair.relinked_nil]
  unfold Node.strayParent? Node.setParent
  cases hparent : (Repair.ofNodes nodes).parentOf node.id with
  | none => rfl
  | some id =>
      have hmem : id ∈ ids nodes := (ofNodes_parentOf_iff.mp hparent).1.1
      simp [Value.ofText?, hmem]

theorem not_onCycle_searchedTo_repaired {a : String} :
    ¬ OnCycle (SearchedTo (repaired nodes)) a := by
  intro hcycle
  have hsub : ∀ a b, SearchedTo (repaired nodes) a b →
      CutAt (SearchedTo nodes) (ClosesCycle (SearchedTo nodes) (ids nodes)) a b := by
    rintro a b ⟨hlink, hne⟩
    have hkept := linksTo_repaired_iff.mp hlink
    exact ⟨⟨hkept.1, hne⟩, hkept.2⟩
  exact not_onCycle_searchedTo_cut (hcycle.mono hsub)

/-- A second repair keeps every link. -/
theorem keptLink_repaired (nodes : List Node) : KeptLink (repaired nodes) = KeptLink nodes := by
  funext a b
  refine propext ⟨fun hkept => linksTo_repaired_iff.mp hkept.1, fun hkept => ?_⟩
  exact ⟨linksTo_repaired_iff.mpr hkept, fun hcloses => not_onCycle_searchedTo_repaired hcloses.1⟩

/-! ## Checking a repaired list -/

theorem edge_parents_iff {a b : String} :
    (Graph.ofParents (parents nodes)).Edge a b ↔
      (∃ node ∈ firsts nodes, node.id = a ∧ node.parentId? = some b) ∧ b ≠ "" := by
  rw [Graph.edge_ofParents_iff]
  unfold parents
  rw [← get?_firsts_iff, Option.getD_eq_iff]
  simp

/-- A search finds no cycle in a repaired list. -/
theorem findCycle_repaired (nodes : List Node) (id : String) :
    (Graph.ofParents (parents (repaired nodes))).findCycle id = none := by
  have hsub : ∀ a b, (Graph.ofParents (parents (repaired nodes))).Edge a b →
      SearchedTo (repaired nodes) a b := by
    intro a b hedge
    obtain ⟨⟨node', hnode', hid, hparent⟩, hne⟩ := edge_parents_iff.mp hedge
    refine ⟨⟨?_, node', hnode', hid, hparent⟩, hne⟩
    rw [firsts_repaired] at hnode'
    obtain ⟨node, -, heq⟩ := List.mem_map.mp hnode'
    subst heq
    rw [relinked_parentId?, ofNodes_parentOf_iff] at hparent
    rw [ids_repaired]
    exact hparent.1.1
  refine Graph.findCycle_eq_none_iff.mpr ?_
  rintro ⟨a, -, hcycle⟩
  exact not_onCycle_searchedTo_repaired (hcycle.mono hsub)

theorem structureIssues_eq (nodes : List Node) :
    structureIssues nodes =
      duplicateIssues nodes ++ (firsts nodes).flatMap (linkIssues (ids nodes)) ++
        (firsts nodes).filterMap (cycleIssue? (Graph.ofParents (parents nodes))) := rfl

def emptyIdIssues (node : Node) : List Issue :=
  if Text.isBlank node.id then [.emptyId node.id] else []

theorem kind_of_mem_duplicateIssues {issue : Issue} (h : issue ∈ duplicateIssues nodes) :
    issue.kind = .duplicateId := by
  obtain ⟨id, -, hsome⟩ := List.mem_filterMap.mp h
  split at hsome
  · have heq := Option.some.inj hsome
    subst heq
    rfl
  · simp at hsome

theorem kind_of_mem_emptyIdIssues {issue : Issue} {node : Node}
    (h : issue ∈ emptyIdIssues node) : issue.kind = .emptyId := by
  unfold emptyIdIssues at h
  split at h
  · have heq : issue = .emptyId node.id := by simpa using h
    subst heq
    rfl
  · simp at h

/-- A check of a repaired list reports of its links only those of a node to
itself. -/
theorem structureIssues_repaired (nodes : List Node) :
    structureIssues (repaired nodes) = duplicateIssues nodes ++
      (firsts nodes).flatMap fun node => emptyIdIssues node ++
        if (Repair.ofNodes nodes).parentOf node.id = some node.id then
          [.selfReference node.id] else [] := by
  have hcycles : (firsts (repaired nodes)).filterMap
      (cycleIssue? (Graph.ofParents (parents (repaired nodes)))) = [] := by
    refine List.filterMap_eq_nil_iff.mpr fun node _ => ?_
    unfold cycleIssue?
    rw [findCycle_repaired]
    split <;> rfl
  rw [structureIssues_eq, hcycles, List.append_nil, duplicateIssues_repaired, ids_repaired,
    firsts_repaired, List.flatMap_map]
  congr 2
  funext node
  unfold linkIssues
  rw [strayParent?_relinked, relinked_parentId?, Repair.relinked_id]
  rfl

end Nodes

end FormRules
