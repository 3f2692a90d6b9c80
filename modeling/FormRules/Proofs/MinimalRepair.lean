import FormRules.Proofs.RepairedList

/-!
# Repairs change what they have to

Repairing a list that was read takes the parent from those first nodes whose
parent is no node of the list, and from one node of each cycle: the one that
closes it as seen from the first node that runs into it.  Nothing else changes,
one fix is noted for each change, and a check of the result reports duplicate
and blank ids as before and nothing else.
-/

namespace FormRules

open Relation

namespace Nodes

variable {nodes : List Node}

/-- The node names a parent that is no node of the list. -/
def Orphaned (nodes : List Node) (node : Node) : Prop :=
  ∃ id, node.parentId? = some id ∧ id ∉ ids nodes

/-- The node is orphaned or its link closes a cycle. -/
def Unlinked (nodes : List Node) (node : Node) : Prop :=
  Orphaned nodes node ∨ ClosesCycle (LinksTo nodes) (ids nodes) node.id

structure MinimallyRepaired (nodes out : List Node) (fixed : Nat) : Prop where
  length_eq : out.length = nodes.length
  kept_or_cleared : ∀ (i : Nat) (node : Node), nodes[i]? = some node →
    out[i]? = some node ∨ out[i]? = some (node.setParent .null)
  changed_iff : ∀ (i : Nat) (node : Node), nodes[i]? = some node →
    (out[i]? ≠ some node ↔ FirstAt nodes i ∧ Unlinked nodes node)
  onePerCycle : ∀ id, OnCycle (LinksTo nodes) id →
    ∃! closing, ClosesCycle (LinksTo nodes) (ids nodes) closing ∧
      ReflTransGen (LinksTo nodes) id closing
  fixed_eq : fixed = (nodes.zip out).countP fun e => e.1 ≠ e.2
  issues_eq : structureIssues out =
    (structureIssues nodes).filter fun issue =>
      issue.kind = .duplicateId ∨ issue.kind = .emptyId

/-! ## What happens to a first node -/

theorem linksTo_iff_of_mem_firsts {node : Node} (hnode : node ∈ firsts nodes) {id : String} :
    LinksTo nodes node.id id ↔ id ∈ ids nodes ∧ node.parentId? = some id := by
  constructor
  · rintro ⟨hid, other, hother, heq, hparent⟩
    have hsame : other = node := firsts_unique hother hnode heq
    subst hsame
    exact ⟨hid, hparent⟩
  · rintro ⟨hid, hparent⟩
    exact ⟨hid, node, hnode, rfl, hparent⟩

theorem Orphaned.not_linksTo {node : Node} (h : Orphaned nodes node)
    (hnode : node ∈ firsts nodes) (id : String) : ¬ LinksTo nodes node.id id := by
  intro hlink
  obtain ⟨hid, hparent⟩ := (linksTo_iff_of_mem_firsts hnode).mp hlink
  obtain ⟨other, hother, hunknown⟩ := h
  rw [hparent] at hother
  have heq := Option.some.inj hother
  subst heq
  exact hunknown hid

theorem Orphaned.not_closesCycle {node : Node} (h : Orphaned nodes node)
    (hnode : node ∈ firsts nodes) {starts : List String} :
    ¬ ClosesCycle (LinksTo nodes) starts node.id := by
  intro hcloses
  obtain ⟨id, hlink, -, -⟩ := hcloses.1.exists_link
  exact h.not_linksTo hnode id hlink

theorem Unlinked.parent_ne_null {node : Node} (h : Unlinked nodes node)
    (hnode : node ∈ firsts nodes) : node.parent ≠ .null := by
  have hnamed : ∃ id, node.parentId? = some id := by
    rcases h with ⟨id, hparent, -⟩ | hcloses
    · exact ⟨id, hparent⟩
    · obtain ⟨id, hlink, -, -⟩ := hcloses.1.exists_link
      exact ⟨id, ((linksTo_iff_of_mem_firsts hnode).mp hlink).2⟩
  obtain ⟨id, hparent⟩ := hnamed
  intro hnull
  rw [Node.parentId?, hnull] at hparent
  simp [Value.asText?] at hparent

section Read

variable (hread : ∀ node ∈ nodes, node.LinkRead)

include hread

/-- The parents that the repair keeps are those that were read, but for orphans
and for the nodes that close a cycle. -/
theorem ofNodes_parentOf_read_iff {node : Node} (hnode : node ∈ firsts nodes) {id : String} :
    (Repair.ofNodes nodes).parentOf node.id = some id ↔
      node.parentId? = some id ∧ ¬ Unlinked nodes node := by
  rw [ofNodes_parentOf_iff]
  unfold KeptLink CutAt
  rw [searchedTo_eq_linksTo hread, linksTo_iff_of_mem_firsts hnode]
  constructor
  · rintro ⟨⟨hid, hparent⟩, hopen⟩
    refine ⟨hparent, ?_⟩
    rintro (horphan | hcloses)
    · exact horphan.not_linksTo hnode id ((linksTo_iff_of_mem_firsts hnode).mpr ⟨hid, hparent⟩)
    · exact hopen hcloses
  · rintro ⟨hparent, hlinked⟩
    refine ⟨⟨?_, hparent⟩, fun hcloses => hlinked (.inr hcloses)⟩
    by_contra hunknown
    exact hlinked (.inl ⟨id, hparent, hunknown⟩)

theorem relinked_of_unlinked {node : Node} (hnode : node ∈ firsts nodes)
    (h : Unlinked nodes node) :
    (Repair.ofNodes nodes).relinked [] node = node.setParent .null := by
  have hnone : (Repair.ofNodes nodes).parentOf node.id = none := by
    cases hparent : (Repair.ofNodes nodes).parentOf node.id with
    | none => rfl
    | some id => exact absurd h ((ofNodes_parentOf_read_iff hread hnode).mp hparent).2
  rw [Repair.relinked_nil, hnone]
  rfl

theorem relinked_of_not_unlinked {node : Node} (hnode : node ∈ firsts nodes)
    (h : ¬ Unlinked nodes node) : (Repair.ofNodes nodes).relinked [] node = node := by
  have hparent : (Repair.ofNodes nodes).parentOf node.id = node.parentId? := by
    apply Option.ext
    intro id
    rw [ofNodes_parentOf_read_iff hread hnode]
    exact and_iff_left h
  rw [Repair.relinked_nil, hparent]
  exact Node.setParent_eq_self (hread node (mem_of_mem_firsts hnode)).parent_eq

/-- A first node is changed exactly where its link leads nowhere or closes a
cycle. -/
theorem relinked_ne_iff {node : Node} (hnode : node ∈ firsts nodes) :
    (Repair.ofNodes nodes).relinked [] node ≠ node ↔ Unlinked nodes node := by
  constructor
  · intro hne
    by_contra hlinked
    exact hne (relinked_of_not_unlinked hread hnode hlinked)
  · intro h heq
    rw [relinked_of_unlinked hread hnode h] at heq
    exact h.parent_ne_null hnode (congrArg Node.parent heq).symm

/-- A repair leaves a node as it is or takes its parent. -/
theorem getElem?_repaired_read {i : Nat} {node : Node} (h : nodes[i]? = some node) :
    (repaired nodes)[i]? = some node ∨ (repaired nodes)[i]? = some (node.setParent .null) := by
  by_cases hfirst : FirstAt nodes i
  · rw [getElem?_repaired h hfirst]
    have hmem := mem_firsts_of_firstAt h hfirst
    by_cases hunlinked : Unlinked nodes node
    · exact .inr (congrArg some (relinked_of_unlinked hread hmem hunlinked))
    · exact .inl (congrArg some (relinked_of_not_unlinked hread hmem hunlinked))
  · exact .inl (getElem?_repaired_of_not_first h hfirst)

end Read

/-! ## Counting the changes -/

/-- Only first occurrences differ after a repair, so counting changes over the
whole list counts them over the first nodes. -/
theorem countP_zip_applyFrom (repair : Repair) (before : List String) (nodes : List Node) :
    ((nodes.zip (repair.applyFrom before nodes)).countP fun e => e.1 ≠ e.2) =
      (firsts nodes).countP fun node => repair.relinked before node ≠ node := by
  induction nodes generalizing before with
  | nil => rfl
  | cons node rest ih =>
      have hfirsts : firsts (node :: rest) =
          node :: (firsts rest).filter fun other => other.id ≠ node.id := rfl
      -- Later nodes with the id of this one are left alone, and are no first nodes.
      have hrest : ((firsts rest).countP fun other =>
            repair.relinked (node.id :: before) other ≠ other) =
          ((firsts rest).filter fun other => other.id ≠ node.id).countP fun other =>
            repair.relinked before other ≠ other := by
        rw [List.countP_filter]
        refine List.countP_congr fun other _ => ?_
        by_cases hid : other.id = node.id
        · simp [hid, Repair.relinked_of_mem]
        · have hcongr : repair.relinked (node.id :: before) other = repair.relinked before other :=
            Repair.relinked_congr (by simp [hid])
          simp [hid, hcongr]
      rw [Repair.applyFrom_cons, List.zip_cons_cons, List.countP_cons, ih, hfirsts,
        List.countP_cons, hrest]
      simp only [ne_comm]

theorem clearOrphans_fixes_nodeId (nodes : List Node) :
    (Repair.clearOrphans (firsts nodes)).fixes.map Fix.nodeId =
      ((firsts nodes).filter fun node => (node.strayParent? (ids nodes)).isSome).map
        Node.id := by
  have hall : ∀ others : List Node,
      (others.filterMap (Repair.orphanFix? (ids nodes))).map Fix.nodeId =
        (others.filter fun node => (node.strayParent? (ids nodes)).isSome).map Node.id := by
    intro others
    induction others with
    | nil => rfl
    | cons node rest ih =>
        cases hstray : node.strayParent? (ids nodes) with
        | none => simp [Repair.orphanFix?, hstray, ih]
        | some id => simp [Repair.orphanFix?, hstray, ih, Fix.nodeId]
  exact hall (firsts nodes)

theorem strayParent?_isSome_iff {node : Node} (h : node.LinkRead) :
    (node.strayParent? (ids nodes)).isSome ↔ Orphaned nodes node := by
  obtain ⟨parent, hparent, -⟩ := h
  cases parent with
  | none =>
      simp [Node.strayParent?, Orphaned, Node.parentId?, hparent, Value.ofText?, Value.asText?]
  | some id =>
      by_cases hmem : id ∈ ids nodes
      · simp [Node.strayParent?, Orphaned, Node.parentId?, hparent, Value.ofText?,
          Value.asText?, hmem]
      · simp [Node.strayParent?, Orphaned, Node.parentId?, hparent, Value.ofText?,
          Value.asText?, hmem]

theorem nodup_ids_filter (p : Node → Bool) : (((firsts nodes).filter p).map Node.id).Nodup :=
  (nodup_ids nodes).sublist (List.filter_sublist.map Node.id)

theorem mem_ids_filter_iff {p : Node → Bool} {id : String} :
    id ∈ ((firsts nodes).filter p).map Node.id ↔
      ∃ node ∈ firsts nodes, node.id = id ∧ p node = true := by
  rw [List.mem_map]
  simp only [List.mem_filter]
  constructor
  · rintro ⟨node, ⟨hnode, hp⟩, hid⟩
    exact ⟨node, hnode, hid, hp⟩
  · rintro ⟨node, hnode, hid, hp⟩
    exact ⟨node, ⟨hnode, hp⟩, hid⟩

section Read

variable (hread : ∀ node ∈ nodes, node.LinkRead)

include hread

theorem mem_clearOrphans_fixes_iff {id : String} :
    id ∈ (Repair.clearOrphans (firsts nodes)).fixes.map Fix.nodeId ↔
      ∃ node ∈ firsts nodes, node.id = id ∧ Orphaned nodes node := by
  rw [clearOrphans_fixes_nodeId, mem_ids_filter_iff]
  refine exists_congr fun node => and_congr_right fun hnode => and_congr_right fun _ => ?_
  exact strayParent?_isSome_iff (hread node (mem_of_mem_firsts hnode))

theorem mem_changed_iff {id : String} :
    id ∈ ((firsts nodes).filter fun node =>
        (Repair.ofNodes nodes).relinked [] node ≠ node).map Node.id ↔
      ∃ node ∈ firsts nodes, node.id = id ∧ Unlinked nodes node := by
  rw [mem_ids_filter_iff]
  refine exists_congr fun node => and_congr_right fun hnode => and_congr_right fun _ => ?_
  rw [decide_eq_true_eq]
  exact relinked_ne_iff hread hnode

/-- The fixes name the nodes that are changed, each once. -/
theorem fixes_nodeId_perm :
    ((fixes nodes).map Fix.nodeId).Perm
      (((firsts nodes).filter fun node =>
        (Repair.ofNodes nodes).relinked [] node ≠ node).map Node.id) := by
  obtain ⟨closing, hdistinct, hmem, hfixes⟩ := (Repair.ofNodes_progress nodes).fixed
  rw [searchedTo_eq_linksTo hread] at hmem
  have hnodup : ((fixes nodes).map Fix.nodeId).Nodup := by
    unfold fixes
    rw [hfixes]
    refine List.nodup_append'.mpr ⟨?_, hdistinct, ?_⟩
    · rw [clearOrphans_fixes_nodeId]
      exact nodup_ids_filter _
    · intro id horphan hcloses
      obtain ⟨node, hnode, hid, hunknown⟩ := (mem_clearOrphans_fixes_iff hread).mp horphan
      subst hid
      exact hunknown.not_closesCycle hnode ((hmem node.id).mp hcloses)
  refine (List.perm_ext_iff_of_nodup hnodup (nodup_ids_filter _)).mpr fun id => ?_
  unfold fixes
  rw [hfixes, List.mem_append, mem_clearOrphans_fixes_iff hread, hmem id, mem_changed_iff hread]
  constructor
  · rintro (⟨node, hnode, hid, hunknown⟩ | hcloses)
    · exact ⟨node, hnode, hid, .inl hunknown⟩
    · obtain ⟨other, hlink, -, -⟩ := hcloses.1.exists_link
      obtain ⟨node, hnode, hid⟩ := List.mem_map.mp hlink.mem_ids
      subst hid
      exact ⟨node, hnode, rfl, .inr hcloses⟩
  · rintro ⟨node, hnode, hid, hunknown | hcloses⟩
    · exact .inl ⟨node, hnode, hid, hunknown⟩
    · subst hid
      exact .inr hcloses

end Read

/-! ## Issues before and after -/

theorem filter_structureIssues (nodes : List Node) :
    ((structureIssues nodes).filter fun issue =>
        issue.kind = .duplicateId ∨ issue.kind = .emptyId) =
      duplicateIssues nodes ++ (firsts nodes).flatMap emptyIdIssues := by
  have hcycles : ∀ issue ∈ (firsts nodes).filterMap
      (cycleIssue? (Graph.ofParents (parents nodes))), issue.kind = .circularReference := by
    intro issue hissue
    obtain ⟨node, -, hsome⟩ := List.mem_filterMap.mp hissue
    unfold cycleIssue? at hsome
    split at hsome
    · simp at hsome
    · obtain ⟨path, -, heq⟩ := Option.map_eq_some_iff.mp hsome
      subst heq
      rfl
  have hlinks : ∀ node : Node, ((linkIssues (ids nodes) node).filter fun issue =>
      issue.kind = .duplicateId ∨ issue.kind = .emptyId) = emptyIdIssues node := by
    intro node
    unfold linkIssues emptyIdIssues
    cases node.strayParent? (ids nodes) <;> split_ifs <;> simp [Issue.kind]
  rw [structureIssues_eq, List.filter_append, List.filter_append, List.filter_flatMap]
  have hkept : (duplicateIssues nodes).filter (fun issue =>
      issue.kind = .duplicateId ∨ issue.kind = .emptyId) = duplicateIssues nodes := by
    refine List.filter_eq_self.mpr fun issue hissue => ?_
    simp [kind_of_mem_duplicateIssues hissue]
  have hdropped : ((firsts nodes).filterMap
      (cycleIssue? (Graph.ofParents (parents nodes)))).filter (fun issue =>
        issue.kind = .duplicateId ∨ issue.kind = .emptyId) = [] := by
    refine List.filter_eq_nil_iff.mpr fun issue hissue => ?_
    simp [hcycles issue hissue]
  rw [hkept, hdropped, List.append_nil]
  simp only [hlinks]

/-- What is left to report after a repair are doubled ids and empty ones. -/
theorem structureIssues_repaired_read (hread : ∀ node ∈ nodes, node.LinkRead) :
    structureIssues (repaired nodes) =
      duplicateIssues nodes ++ (firsts nodes).flatMap emptyIdIssues := by
  have hseen : SearchedTo nodes = LinksTo nodes := searchedTo_eq_linksTo hread
  have hself : ∀ node : Node, (Repair.ofNodes nodes).parentOf node.id ≠ some node.id := by
    intro node hparent
    exact keptLink_acyclic hseen node.id (.single (ofNodes_parentOf_iff.mp hparent))
  rw [structureIssues_repaired]
  simp [hself]

/-! ## The repair -/

/-- A repair takes the parent from the first nodes whose link leads nowhere and
from one node of every cycle, and from no others.  It lists as many fixes as
nodes have changed, and only doubled and empty ids are left to report. -/
theorem repaired_minimally {defaultPriority : Reading Int} {v : Value}
    (h : (read defaultPriority v).value = .ok nodes) :
    MinimallyRepaired nodes (repaired nodes) (fixes nodes).length := by
  have hread : ∀ node ∈ nodes, node.LinkRead := read_linkRead h
  constructor
  · have hlength := congrArg List.length (map_id_repaired nodes)
    simpa using hlength
  · exact fun i node hnode => getElem?_repaired_read hread hnode
  · intro i node hnode
    by_cases hfirst : FirstAt nodes i
    · rw [getElem?_repaired hnode hfirst, ne_eq, Option.some.injEq, ← ne_eq,
        relinked_ne_iff hread (mem_firsts_of_firstAt hnode hfirst)]
      exact (and_iff_right hfirst).symm
    · simp [getElem?_repaired_of_not_first hnode hfirst, hfirst]
  · intro id hcycle
    have hr := linksTo_rightUnique nodes
    obtain ⟨other, hlink, -, -⟩ := hcycle.exists_link
    obtain ⟨closing, hcloses, hreach⟩ :=
      hcycle.exists_closesCycle hr ⟨id, hlink.mem_ids, .refl⟩
    refine ⟨closing, ⟨hcloses, hreach⟩, ?_⟩
    rintro second ⟨hcloses', hreach'⟩
    have hback := (hcycle.reaches_back hr hreach').trans hreach
    exact hcloses'.unique hr hcloses hback
  · have hcount := (fixes_nodeId_perm hread).length_eq
    rw [List.length_map, List.length_map, ← List.countP_eq_length_filter] at hcount
    unfold repaired Repair.apply
    rw [countP_zip_applyFrom]
    exact hcount
  · rw [filter_structureIssues, structureIssues_repaired_read hread]

theorem repaired_minimally_tangled :
    ∃ nodes, (read (.ok 100) tangledNodes).value = .ok nodes ∧
      nodes.map Node.id = ["a", "b", "c", "b", " ", "s", "d"] ∧
      MinimallyRepaired nodes (repaired nodes) (fixes nodes).length := by
  refine ⟨_, rfl, rfl, ?_⟩
  exact @repaired_minimally _ (.ok 100) tangledNodes rfl

end Nodes

end FormRules
