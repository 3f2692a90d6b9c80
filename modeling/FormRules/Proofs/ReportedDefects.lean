import FormRules.Proofs.MinimalRepair

/-!
# What a check of parent links reports

A check of a list reports ids that occur more than once, blank ids, nodes that
are their own parent, nodes whose parent is no node of the list, and nodes whose
chain of parents never ends.  Each of these is a property of the first node of
an id, and the check reports it once for every first node that has it.

The chain of parents of a node that was read never ends when it runs into a
cycle, which need not take in the node itself.
-/

namespace FormRules

open Relation

/-- The ids at which issues of a kind are reported, in order. -/
def Issue.reportedAt (issues : List Issue) (kind : IssueKind) : List String :=
  (issues.filter fun issue => issue.kind = kind).filterMap Issue.nodeId?

namespace Issue

variable {kind : IssueKind}

theorem mem_reportedAt {issues : List Issue} {issue : Issue} {id : String}
    (hissue : issue ∈ issues) (hid : issue.nodeId? = some id) :
    id ∈ reportedAt issues issue.kind := by
  have hkept : issue ∈ issues.filter fun other => other.kind = issue.kind :=
    List.mem_filter.mpr ⟨hissue, by simp⟩
  exact List.mem_filterMap.mpr ⟨issue, hkept, hid⟩

theorem reportedAt_append (issues more : List Issue) :
    reportedAt (issues ++ more) kind = reportedAt issues kind ++ reportedAt more kind := by
  unfold reportedAt
  rw [List.filter_append, List.filterMap_append]

/-- Where every item reports a kind at its own id or not at all, the kind is
reported at the ids of the items that do. -/
theorem reportedAt_flatMap {α : Type} {key : α → String} {f : α → List Issue} {p : α → Bool}
    (hf : ∀ item, reportedAt (f item) kind = if p item then [key item] else [])
    (items : List α) :
    reportedAt (items.flatMap f) kind = (items.filter p).map key := by
  induction items with
  | nil => rfl
  | cons item rest ih =>
      rw [List.flatMap_cons, reportedAt_append, hf, ih]
      by_cases hp : p item <;> simp [hp]

end Issue

namespace Nodes

open Issue

variable {nodes : List Node}

/-- Ids are distinct and not blank, every parent is a node of the list and no id
is its own ancestor. -/
structure WellLinked (nodes : List Node) : Prop where
  distinct : (nodes.map Node.id).Nodup
  notBlank : ∀ node ∈ nodes, Text.isBlank node.id = false
  resolved : ∀ node ∈ nodes, ∀ id, node.parentId? = some id → ∃ other ∈ nodes, other.id = id
  acyclic : ∀ id, ¬ OnCycle (LinksTo nodes) id

theorem firsts_eq_self (h : (nodes.map Node.id).Nodup) : firsts nodes = nodes :=
  distinctBy_eq_self h

/-! ## Where each kind is reported -/

/-- Whether a check reports an issue of a kind at a first node. -/
def reports (nodes : List Node) (kind : IssueKind) (node : Node) : Bool :=
  match kind with
  | .duplicateId => decide (1 < occurrences nodes node.id)
  | .emptyId => Text.isBlank node.id
  | .selfReference => node.parentId? == some node.id
  | .orphanParent => node.parentId? != some node.id && (node.strayParent? (ids nodes)).isSome
  | .circularReference =>
    node.parentId? != some node.id &&
      ((Graph.ofParents (parents nodes)).findCycle node.id).isSome
  | _ => false

theorem reportedAt_duplicateIssues (nodes : List Node) (kind : IssueKind) :
    reportedAt (duplicateIssues nodes) kind =
      ((firsts nodes).filter fun node =>
        kind = .duplicateId && reports nodes .duplicateId node).map Node.id := by
  have hissues : duplicateIssues nodes = (firsts nodes).flatMap fun node =>
      (if 1 < occurrences nodes node.id then
        some (Issue.duplicateId node.id (occurrences nodes node.id)) else none).toList := by
    unfold duplicateIssues ids
    rw [List.filterMap_map, List.filterMap_eq_flatMap_toList]
    rfl
  rw [hissues]
  apply reportedAt_flatMap
  intro node
  cases kind <;> by_cases hmany : 1 < occurrences nodes node.id <;>
    simp [reportedAt, reports, hmany, Issue.kind, nodeId?]

theorem reportedAt_linkIssues (nodes : List Node) (kind : IssueKind) :
    reportedAt ((firsts nodes).flatMap (linkIssues (ids nodes))) kind =
      ((firsts nodes).filter fun node =>
        (kind = .emptyId || kind = .selfReference || kind = .orphanParent) &&
          reports nodes kind node).map Node.id := by
  apply reportedAt_flatMap
  intro node
  cases hstray : node.strayParent? (ids nodes) <;> cases kind <;>
    by_cases hblank : Text.isBlank node.id <;>
    by_cases hself : node.parentId? = some node.id <;>
    simp [linkIssues, reportedAt, reports, hstray, hblank, hself, Issue.kind, nodeId?]

theorem reportedAt_cycleIssues (nodes : List Node) (kind : IssueKind) :
    reportedAt ((firsts nodes).filterMap
        (cycleIssue? (Graph.ofParents (parents nodes)))) kind =
      ((firsts nodes).filter fun node =>
        kind = .circularReference && reports nodes .circularReference node).map Node.id := by
  rw [List.filterMap_eq_flatMap_toList]
  apply reportedAt_flatMap
  intro node
  cases hcycle : (Graph.ofParents (parents nodes)).findCycle node.id <;> cases kind <;>
    by_cases hself : node.parentId? = some node.id <;>
    simp [cycleIssue?, reportedAt, reports, hcycle, hself, Issue.kind, nodeId?]

/-- For each kind, the check reports the first nodes that have the defect, in
order. -/
theorem reportedAt_structureIssues (nodes : List Node) (kind : IssueKind) :
    reportedAt (structureIssues nodes) kind =
      ((firsts nodes).filter (reports nodes kind)).map Node.id := by
  rw [structureIssues_eq, reportedAt_append, reportedAt_append, reportedAt_duplicateIssues,
    reportedAt_linkIssues, reportedAt_cycleIssues]
  cases kind <;> simp [reports] <;> rfl

theorem mem_reportedAt_iff {kind : IssueKind} {id : String} :
    id ∈ reportedAt (structureIssues nodes) kind ↔
      ∃ node ∈ firsts nodes, node.id = id ∧ reports nodes kind node = true := by
  rw [reportedAt_structureIssues]
  exact mem_ids_filter_iff

theorem nodup_reportedAt (nodes : List Node) (kind : IssueKind) :
    (reportedAt (structureIssues nodes) kind).Nodup := by
  rw [reportedAt_structureIssues]
  exact nodup_ids_filter _

theorem mem_reportedAt_duplicateId_iff {id : String} :
    id ∈ reportedAt (structureIssues nodes) .duplicateId ↔
      1 < (nodes.map Node.id).count id := by
  rw [mem_reportedAt_iff]
  simp only [reports, decide_eq_true_eq, occurrences_eq_count]
  constructor
  · intro h
    rcases h with ⟨node, -, hid, hmany⟩
    rwa [hid] at hmany
  · intro hmany
    have hmem : id ∈ nodes.map Node.id := List.count_pos_iff.mp (by omega)
    rcases List.mem_map.mp (mem_ids_iff.mpr (List.mem_map.mp hmem)) with ⟨node, hnode, hid⟩
    exact ⟨node, hnode, hid, by rwa [hid]⟩

theorem mem_reportedAt_emptyId_iff {id : String} :
    id ∈ reportedAt (structureIssues nodes) .emptyId ↔
      id ∈ nodes.map Node.id ∧ Text.isBlank id = true := by
  rw [mem_reportedAt_iff]
  constructor
  · intro h
    rcases h with ⟨node, hnode, hid, hblank⟩
    rw [← hid]
    exact ⟨List.mem_map_of_mem (mem_of_mem_firsts hnode), hblank⟩
  · intro h
    rcases List.mem_map.mp (mem_ids_iff.mpr (List.mem_map.mp h.1)) with ⟨node, hnode, hid⟩
    exact ⟨node, hnode, hid, by rw [reports, hid]; exact h.2⟩

theorem mem_reportedAt_selfReference_iff {id : String} :
    id ∈ reportedAt (structureIssues nodes) .selfReference ↔ LinksTo nodes id id := by
  rw [mem_reportedAt_iff]
  simp only [reports, beq_iff_eq]
  constructor
  · intro h
    rcases h with ⟨node, hnode, hid, hself⟩
    rw [hid] at hself
    exact ⟨hid ▸ id_mem_ids hnode, node, hnode, hid, hself⟩
  · intro h
    rcases h.2 with ⟨node, hnode, hid, hself⟩
    exact ⟨node, hnode, hid, by rwa [hid]⟩

/-! ## Lists without an issue -/

section NoIssues

variable (h : structureIssues nodes = [])

include h

theorem not_reported_of_no_issues (kind : IssueKind) (id : String) :
    id ∉ reportedAt (structureIssues nodes) kind := by
  simp [h, reportedAt]

theorem nodup_of_no_issues : (nodes.map Node.id).Nodup := by
  rw [List.nodup_iff_count_le_one]
  intro id
  by_contra hmany
  exact not_reported_of_no_issues h _ id (mem_reportedAt_duplicateId_iff.mpr (by omega))

theorem not_blank_of_no_issues {node : Node} (hnode : node ∈ nodes) :
    Text.isBlank node.id = false := by
  have hid : node.id ∈ nodes.map Node.id := List.mem_map_of_mem hnode
  by_contra hblank
  exact not_reported_of_no_issues h _ _
    (mem_reportedAt_emptyId_iff.mpr ⟨hid, by simpa using hblank⟩)

/-- Without an issue every parent link is one that reading could have left. -/
theorem linkRead_of_no_issues : ∀ node ∈ nodes, node.LinkRead := by
  intro node hnode
  have hknown : node.strayParent? (ids nodes) = none := by
    have hissues := h
    rw [structureIssues_eq, List.append_eq_nil_iff, List.append_eq_nil_iff,
      firsts_eq_self (nodup_of_no_issues h), List.flatMap_eq_nil_iff] at hissues
    have hlink := (List.append_eq_nil_iff.mp (hissues.1.2 node hnode)).2
    split at hlink
    · simp at hlink
    · simpa using hlink
  unfold Node.strayParent? at hknown
  split at hknown
  · rename_i hnull
    exact ⟨none, hnull, by simp⟩
  · rename_i id htext
    have hmem : id ∈ ids nodes := by
      by_contra hunknown
      simp [hunknown] at hknown
    rcases mem_ids_iff.mp hmem with ⟨parent, hparent, hid⟩
    refine ⟨some id, htext, fun other hother => ?_⟩
    rw [← Option.some.inj hother, ← hid]
    exact not_blank_of_no_issues h hparent
  · simp at hknown

end NoIssues

/-! ## What an issue says -/

/-- What an issue says of a list besides its kind and id holds, and no issue is of
a kind that belongs to another check. -/
def BorneOut (nodes : List Node) : Issue → Prop
  | .duplicateId id count => count = (nodes.map Node.id).count id
  | .emptyId _ => True
  | .selfReference _ => True
  | .orphanParent id parent => ∃ node ∈ firsts nodes, node.id = id ∧ node.parent = .str parent
  | .circularReference id path => (Graph.ofParents (parents nodes)).Lasso id path
  | _ => False

theorem borneOut_of_mem_linkIssues {node : Node} (hnode : node ∈ firsts nodes)
    (hread : node.LinkRead) {issue : Issue} (h : issue ∈ linkIssues (ids nodes) node) :
    BorneOut nodes issue := by
  unfold linkIssues at h
  rcases List.mem_append.mp h with hempty | hlink
  · split at hempty
    · have heq : issue = .emptyId node.id := by simpa using hempty
      rw [heq]
      trivial
    · simp at hempty
  · split at hlink
    · have heq : issue = .selfReference node.id := by simpa using hlink
      rw [heq]
      trivial
    · have hstray : ∃ parent, node.strayParent? (ids nodes) = some parent ∧
          issue = .orphanParent node.id parent := by
        simpa [eq_comm] using hlink
      rcases hstray with ⟨parent, hparent, heq⟩
      rw [heq]
      refine ⟨node, hnode, rfl, ?_⟩
      rcases hread with ⟨link, hlinked, -⟩
      cases link with
      | none => simp [Node.strayParent?, hlinked, Value.ofText?] at hparent
      | some id =>
          have hid : id = parent := by
            simp only [Node.strayParent?, hlinked, Value.ofText?] at hparent
            split at hparent
            · simp at hparent
            · exact Option.some.inj hparent
          rw [hlinked, hid]
          rfl

/-- Each issue of the check is borne out by a node of the list. -/
theorem borneOut_of_mem (hread : ∀ node ∈ nodes, node.LinkRead) {issue : Issue}
    (h : issue ∈ structureIssues nodes) : BorneOut nodes issue := by
  rw [structureIssues_eq] at h
  rcases List.mem_append.mp h with hrest | hcycle
  · rcases List.mem_append.mp hrest with hduplicate | hlink
    · rcases List.mem_filterMap.mp hduplicate with ⟨id, -, hsome⟩
      split at hsome
      · rw [← Option.some.inj hsome]
        exact occurrences_eq_count nodes id
      · simp at hsome
    · rcases List.mem_flatMap.mp hlink with ⟨node, hnode, hissue⟩
      exact borneOut_of_mem_linkIssues hnode (hread node (mem_of_mem_firsts hnode)) hissue
  · rcases List.mem_filterMap.mp hcycle with ⟨node, -, hsome⟩
    unfold cycleIssue? at hsome
    split at hsome
    · simp at hsome
    · rcases Option.map_eq_some_iff.mp hsome with ⟨path, hpath, heq⟩
      rw [← heq]
      exact Graph.findCycle_lasso hpath

/-! ## Lists whose nodes were read -/

section Read

variable (hread : ∀ node ∈ nodes, node.LinkRead)

include hread

/-- The cycle search takes a parent that is no node of the list for a link, but
none leads on from there. -/
theorem runsIntoCycle_parents_iff {id : String} :
    RunsIntoCycle (Graph.ofParents (parents nodes)).Edge id ↔ Endless (LinksTo nodes) id := by
  constructor
  · intro hcycle
    apply hcycle.endless.of_inner_links
    intro a b c hab hbc
    rcases (edge_parents_iff.mp hab).1 with ⟨node, hnode, hid, hparent⟩
    rcases (edge_parents_iff.mp hbc).1 with ⟨next, hnext, hnextid, -⟩
    exact ⟨hnextid ▸ id_mem_ids hnext, node, hnode, hid, hparent⟩
  · intro hendless
    have htargets : ∀ a b, LinksTo nodes a b → b ∈ ids nodes := fun a b h => h.1
    rcases hendless.runsIntoCycle (linksTo_rightUnique nodes) htargets with
      ⟨b, hreach, hcycle⟩
    have hsub : ∀ a b, LinksTo nodes a b → (Graph.ofParents (parents nodes)).Edge a b := by
      intro a b hlink
      rw [← searchedTo_eq_linksTo hread] at hlink
      exact edge_parents_iff.mpr ⟨hlink.1.2, hlink.2⟩
    exact ⟨b, ReflTransGen.mono hsub id b hreach, hcycle.mono hsub⟩

theorem mem_reportedAt_orphanParent_iff {id : String} :
    id ∈ reportedAt (structureIssues nodes) .orphanParent ↔
      ∃ node ∈ firsts nodes, node.id = id ∧ Orphaned nodes node := by
  rw [mem_reportedAt_iff]
  refine exists_congr fun node => and_congr_right fun hnode => and_congr_right fun _ => ?_
  have hstray : (node.strayParent? (ids nodes)).isSome ↔ Orphaned nodes node :=
    strayParent?_isSome_iff (hread node (mem_of_mem_firsts hnode))
  have hother : Orphaned nodes node → node.parentId? ≠ some node.id := by
    intro horphan hself
    rcases horphan with ⟨id, hparent, hunknown⟩
    have heq : node.id = id := Option.some.inj (hself.symm.trans hparent)
    exact hunknown (heq ▸ id_mem_ids hnode)
  simp only [reports, Bool.and_eq_true, bne_iff_ne, hstray]
  exact ⟨fun h => h.2, fun h => ⟨hother h, h⟩⟩

/-- An id is reported as circular when its links never end, unless it is linked
to itself, which is reported as such. -/
theorem mem_reportedAt_circularReference_iff {id : String} :
    id ∈ reportedAt (structureIssues nodes) .circularReference ↔
      ¬ LinksTo nodes id id ∧ Endless (LinksTo nodes) id := by
  have hfound : ((Graph.ofParents (parents nodes)).findCycle id).isSome ↔
      Endless (LinksTo nodes) id := by
    rw [← runsIntoCycle_parents_iff hread, ← not_iff_not, ← Graph.findCycle_eq_none_iff,
      Option.not_isSome_iff_eq_none]
  rw [mem_reportedAt_iff]
  constructor
  · intro h
    rcases h with ⟨node, hnode, hid, hreports⟩
    simp only [reports, Bool.and_eq_true, bne_iff_ne, hid, hfound] at hreports
    refine ⟨fun hlink => hreports.1 ?_, hreports.2⟩
    rw [← hid] at hlink ⊢
    exact ((linksTo_iff_of_mem_firsts hnode).mp hlink).2
  · intro h
    rcases h.2 1 with ⟨b, parent, hlink, -⟩
    rcases List.mem_map.mp hlink.mem_ids with ⟨node, hnode, hid⟩
    refine ⟨node, hnode, hid, ?_⟩
    simp only [reports, Bool.and_eq_true, bne_iff_ne, hid, hfound]
    refine ⟨fun hself => h.1 ?_, h.2⟩
    rw [← hid] at hself ⊢
    exact (linksTo_iff_of_mem_firsts hnode).mpr ⟨id_mem_ids hnode, hself⟩

/-- With distinct ids that are not blank and parents of the list, the issues that
are left are those of chains without an end. -/
theorem eq_of_mem_structureIssues (hdistinct : (nodes.map Node.id).Nodup)
    (hnotBlank : ∀ node ∈ nodes, Text.isBlank node.id = false)
    (hresolved : ∀ node ∈ nodes, ∀ id, node.parentId? = some id → ∃ other ∈ nodes, other.id = id)
    {issue : Issue} (h : issue ∈ structureIssues nodes) :
    (∃ id, issue = .selfReference id) ∨ ∃ id path, issue = .circularReference id path := by
  have hsays : BorneOut nodes issue := borneOut_of_mem hread h
  cases issue with
  | duplicateId id count =>
      have hmany := mem_reportedAt_duplicateId_iff.mp (mem_reportedAt h rfl)
      have hone := List.nodup_iff_count_le_one.mp hdistinct id
      omega
  | emptyId id =>
      rcases mem_reportedAt_emptyId_iff.mp (mem_reportedAt h rfl) with ⟨hid, hblank⟩
      rcases List.mem_map.mp hid with ⟨node, hnode, heq⟩
      rw [← heq, hnotBlank node hnode] at hblank
      simp at hblank
  | orphanParent id parent =>
      rcases (mem_reportedAt_orphanParent_iff hread).mp (mem_reportedAt h rfl) with
        ⟨node, hnode, -, other, hparent, hunknown⟩
      have hknown := hresolved node (mem_of_mem_firsts hnode) other hparent
      exact absurd (mem_ids_iff.mpr hknown) hunknown
  | selfReference id => exact .inl ⟨id, rfl⟩
  | circularReference id path => exact .inr ⟨id, path, rfl⟩
  | _ => exact absurd hsays id

/-- No issue is reported exactly of a well-linked list. -/
theorem structureIssues_eq_nil_iff : structureIssues nodes = [] ↔ WellLinked nodes := by
  constructor
  · intro hnil
    have hnone := not_reported_of_no_issues hnil
    constructor
    · exact nodup_of_no_issues hnil
    · exact fun node hnode => not_blank_of_no_issues hnil hnode
    · intro node hnode id hparent
      rw [← firsts_eq_self (nodup_of_no_issues hnil)] at hnode
      by_contra hunknown
      refine hnone _ _ ((mem_reportedAt_orphanParent_iff hread).mpr ⟨node, hnode, rfl, id, ?_⟩)
      exact ⟨hparent, fun hmem => hunknown (mem_ids_iff.mp hmem)⟩
    · intro id hcycle
      by_cases hself : LinksTo nodes id id
      · exact hnone _ _ (mem_reportedAt_selfReference_iff.mpr hself)
      · have hruns : RunsIntoCycle (LinksTo nodes) id := ⟨id, .refl, hcycle⟩
        exact hnone _ _ ((mem_reportedAt_circularReference_iff hread).mpr ⟨hself, hruns.endless⟩)
  · intro h
    have hends : ∀ id, ¬ Endless (LinksTo nodes) id := by
      intro id hendless
      rcases hendless.runsIntoCycle (linksTo_rightUnique nodes) (fun a b hlink => hlink.1) with
        ⟨b, -, hcycle⟩
      exact h.acyclic b hcycle
    apply List.eq_nil_iff_forall_not_mem.mpr
    intro issue hissue
    rcases eq_of_mem_structureIssues hread h.distinct h.notBlank h.resolved hissue with
      ⟨id, heq⟩ | ⟨id, path, heq⟩
    · rw [heq] at hissue
      have hself := mem_reportedAt_selfReference_iff.mp (mem_reportedAt hissue rfl)
      exact h.acyclic id (.single hself)
    · rw [heq] at hissue
      have hcircular := (mem_reportedAt_circularReference_iff hread).mp (mem_reportedAt hissue rfl)
      exact hends id hcircular.2

end Read

/-! ## The report -/

/-- An issue of a kind is reported once at each id with a property and at no other. -/
def ReportedOnce (issues : List Issue) (kind : IssueKind) (p : String → Prop) : Prop :=
  (reportedAt issues kind).Nodup ∧ ∀ id, id ∈ reportedAt issues kind ↔ p id

structure ReportsDefects (nodes : List Node) (issues : List Issue) : Prop where
  duplicateId : ReportedOnce issues .duplicateId fun id => 1 < (nodes.map Node.id).count id
  emptyId : ReportedOnce issues .emptyId fun id =>
    id ∈ nodes.map Node.id ∧ Text.isBlank id = true
  selfReference : ReportedOnce issues .selfReference fun id => LinksTo nodes id id
  orphanParent : ReportedOnce issues .orphanParent fun id =>
    ∃ node ∈ firsts nodes, node.id = id ∧ Orphaned nodes node
  circularReference : ReportedOnce issues .circularReference fun id =>
    ¬ LinksTo nodes id id ∧ Endless (LinksTo nodes) id
  endless_iff : ∀ id, Endless (LinksTo nodes) id ↔ RunsIntoCycle (LinksTo nodes) id
  nothingElse : ∀ issue ∈ issues, BorneOut nodes issue
  nil_iff : issues = [] ↔ WellLinked nodes

/-- For a list that was read, each defect is reported once for each id that has
it, nothing else is reported, and nothing at all for a well-linked list. -/
theorem structureIssues_reportsDefects {defaultPriority : Reading Int} {v : Value}
    (h : (read defaultPriority v).value = .ok nodes) :
    ReportsDefects nodes (structureIssues nodes) := by
  have hread : ∀ node ∈ nodes, node.LinkRead := read_linkRead h
  have hnodup := nodup_reportedAt nodes
  constructor
  · exact ⟨hnodup _, fun id => mem_reportedAt_duplicateId_iff⟩
  · exact ⟨hnodup _, fun id => mem_reportedAt_emptyId_iff⟩
  · exact ⟨hnodup _, fun id => mem_reportedAt_selfReference_iff⟩
  · exact ⟨hnodup _, fun id => mem_reportedAt_orphanParent_iff hread⟩
  · exact ⟨hnodup _, fun id => mem_reportedAt_circularReference_iff hread⟩
  · exact fun id => endless_iff_runsIntoCycle (linksTo_rightUnique nodes) fun a b hlink => hlink.1
  · exact fun issue hissue => borneOut_of_mem hread hissue
  · exact structureIssues_eq_nil_iff hread

theorem structureIssues_reportsDefects_tangled :
    ∃ nodes, (read (.ok 100) tangledNodes).value = .ok nodes ∧
      (structureIssues nodes).map (fun issue => (issue.kind, issue.nodeId?)) =
        [(.duplicateId, some "b"), (.emptyId, some " "), (.orphanParent, some " "),
          (.selfReference, some "s"), (.circularReference, some "a"),
          (.circularReference, some "b"), (.circularReference, some "c"),
          (.circularReference, some "d")] ∧
      ReportsDefects nodes (structureIssues nodes) := by
  refine ⟨_, rfl, by with_unfolding_all rfl, ?_⟩
  exact @structureIssues_reportsDefects _ (.ok 100) tangledNodes rfl

end Nodes

end FormRules
