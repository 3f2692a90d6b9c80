import FormRules.Hierarchy.Workflow
import FormRules.Proofs.CycleSearch
import FormRules.Proofs.ReportedDefects

/-!
# Links that lead into a cycle

Nodes list the nodes their formulas depend on, and steps the steps they can lead
to.  Both are checked in the same way.  Of the items with one id the first
counts.  A link of it to an id that no item has is reported as often as it is
listed, and the item is reported once more when its links lead into a cycle.

Whether they do is a matter of the links alone.  The order in which they are
listed, and the order of items with distinct ids, decides which cycle is found
and not whether one is.
-/

namespace FormRules

open Relation Issue Nodes

/-- Items with ids and links, and the issues a check of their links reports. -/
structure LinkCheck (α : Type) where
  id : α → String
  targets : α → List String
  unknown : String → String → Issue
  circular : String → List String → Issue
  unknownKind : IssueKind
  circularKind : IssueKind
  unknown_injective : Function.Injective2 unknown
  kind_unknown : ∀ id target, (unknown id target).kind = unknownKind
  kind_circular : ∀ id path, (circular id path).kind = circularKind
  kinds_ne : unknownKind ≠ circularKind
  nodeId?_circular : ∀ id path, (circular id path).nodeId? = some id

namespace LinkCheck

variable {α : Type} (check : LinkCheck α)

def firsts (items : List α) : List α := distinctBy check.id items

def graph (items : List α) : Graph :=
  Graph.ofLists ((check.firsts items).map fun item => (check.id item, check.targets item))

/-- The first item of an id lists another id among its links. -/
def LeadsTo (items : List α) (a b : String) : Prop :=
  ∃ item ∈ check.firsts items, check.id item = a ∧ b ∈ check.targets item

def ids (items : List α) : List String := (check.firsts items).map check.id

def unknownIssues (items : List α) (item : α) : List Issue :=
  ((check.targets item).filter fun target => !(check.ids items).contains target).map
    (check.unknown (check.id item))

def circularIssues (items : List α) (item : α) : List Issue :=
  (((check.graph items).findCycle (check.id item)).map (check.circular (check.id item))).toList

def issuesAt (items : List α) (item : α) : List Issue :=
  check.unknownIssues items item ++ check.circularIssues items item

def issues (items : List α) : List Issue := (check.firsts items).flatMap (check.issuesAt items)

/-- The same id with the same links, listed in any order. -/
def SameLinks (a b : α) : Prop :=
  check.id a = check.id b ∧ (check.targets a).Perm (check.targets b)

/-- What a check reports of the links of all lists of items. -/
structure Decides (issues : List α → List Issue) : Prop where
  /-- Ids that only share what they lead to are not among those reported. -/
  circular : ∀ items, ReportedOnce (issues items) check.circularKind
    (RunsIntoCycle (check.LeadsTo items))
  unknown : ∀ items, ∀ item ∈ check.firsts items, ∀ target,
    (issues items).count (check.unknown (check.id item) target) =
      if target ∈ items.map check.id then 0 else (check.targets item).count target
  nothingElse : ∀ items, ∀ issue ∈ issues items,
    (∃ item ∈ check.firsts items, ∃ target ∈ check.targets item,
      target ∉ items.map check.id ∧ issue = check.unknown (check.id item) target) ∨
    ∃ id path, issue = check.circular id path ∧ (check.graph items).ClosesCycle id path
  relisted : ∀ items others, List.Forall₂ check.SameLinks items others → ∀ id,
    id ∈ reportedAt (issues others) check.circularKind ↔
      id ∈ reportedAt (issues items) check.circularKind
  reordered : ∀ items others, (items.map check.id).Nodup → others.Perm items → ∀ id,
    id ∈ reportedAt (issues others) check.circularKind ↔
      id ∈ reportedAt (issues items) check.circularKind

variable {check} {items others : List α}

/-! ## Links -/

theorem edge_eq_leadsTo : (check.graph items).Edge = check.LeadsTo items := by
  have hgraph : check.graph items = (check.firsts items).map fun item =>
      (check.id item, (check.targets item).map some) := by
    unfold graph Graph.ofLists
    rw [List.map_map]
    rfl
  funext a b
  rw [Graph.edge_iff, hgraph]
  unfold LeadsTo firsts
  simp only [Assoc.get?_distinctBy_iff]
  apply propext
  constructor
  · intro hedge
    rcases hedge with ⟨links, ⟨item, hitem, hid, hlinks⟩, hb⟩
    rw [← hlinks] at hb
    exact ⟨item, hitem, hid, by simpa using hb⟩
  · intro hleads
    rcases hleads with ⟨item, hitem, hid, hb⟩
    exact ⟨_, ⟨item, hitem, hid, rfl⟩, List.mem_map_of_mem hb⟩

theorem forall₂_firsts (h : List.Forall₂ check.SameLinks items others) :
    List.Forall₂ check.SameLinks (check.firsts items) (check.firsts others) := by
  induction h with
  | nil => exact .nil
  | cons hlinks _ ih =>
      refine .cons hlinks (List.rel_filter ?_ ih)
      intro a b hab
      simp [hab.1, hlinks.1]

theorem leadsTo_of_forall₂ (h : List.Forall₂ check.SameLinks items others) :
    check.LeadsTo others = check.LeadsTo items := by
  have hmono : ∀ {items others : List α}, List.Forall₂ check.SameLinks items others →
      ∀ {a b}, check.LeadsTo items a b → check.LeadsTo others a b := by
    intro items others h a b hleads
    rcases hleads with ⟨item, hitem, hid, hb⟩
    rcases List.mem_iff_get.mp hitem with ⟨i, hi⟩
    have hfirsts := List.forall₂_iff_get.mp (forall₂_firsts h)
    have hlinks := hfirsts.2 i i.2 (hfirsts.1 ▸ i.2)
    subst hi
    exact ⟨_, List.get_mem _ _, hlinks.1.symm.trans hid, hlinks.2.mem_iff.mp hb⟩
  have hback : List.Forall₂ check.SameLinks others items :=
    h.flip.imp fun a b hlinks => ⟨hlinks.1.symm, hlinks.2.symm⟩
  funext a b
  exact propext ⟨hmono hback, hmono h⟩

theorem leadsTo_of_perm (hdistinct : (items.map check.id).Nodup) (hperm : others.Perm items) :
    check.LeadsTo others = check.LeadsTo items := by
  have hothers : (others.map check.id).Nodup := (hperm.map check.id).nodup_iff.mpr hdistinct
  funext a b
  unfold LeadsTo firsts
  rw [distinctBy_eq_self hdistinct, distinctBy_eq_self hothers]
  simp only [hperm.mem_iff]

/-! ## Reports -/

theorem reportedAt_issues : reportedAt (check.issues items) check.circularKind =
    ((check.firsts items).filter fun item => (check.graph items).hasCycle (check.id item)).map
      check.id := by
  apply reportedAt_flatMap
  intro item
  have hunknown : reportedAt (check.unknownIssues items item) check.circularKind = [] := by
    unfold reportedAt unknownIssues
    simp [List.filter_map, check.kind_unknown, check.kinds_ne, Function.comp_def]
  unfold issuesAt
  rw [reportedAt_append, hunknown, List.nil_append]
  unfold circularIssues Graph.hasCycle
  cases (check.graph items).findCycle (check.id item) with
  | none => rfl
  | some path => simp [reportedAt, check.kind_circular, check.nodeId?_circular]

theorem mem_reportedAt_iff {id : String} :
    id ∈ reportedAt (check.issues items) check.circularKind ↔
      RunsIntoCycle (check.LeadsTo items) id := by
  rw [reportedAt_issues, ← edge_eq_leadsTo, List.mem_map]
  constructor
  · intro hreported
    rcases hreported with ⟨item, hitem, hid⟩
    rw [← hid]
    exact Graph.hasCycle_iff.mp (List.mem_filter.mp hitem).2
  · intro hruns
    have hlink := hruns.exists_link
    rw [edge_eq_leadsTo] at hlink
    rcases hlink with ⟨next, ⟨item, hitem, hid, -⟩, -⟩
    rw [← hid] at hruns
    exact ⟨item, List.mem_filter.mpr ⟨hitem, Graph.hasCycle_iff.mpr hruns⟩, hid⟩

/-- The ids that run into a cycle are reported as circular, each of them
once. -/
theorem reportedOnce : ReportedOnce (check.issues items) check.circularKind
    (RunsIntoCycle (check.LeadsTo items)) := by
  constructor
  · rw [reportedAt_issues]
    exact (nodup_map_distinctBy check.id items).sublist (List.filter_sublist.map check.id)
  · exact fun id => mem_reportedAt_iff

theorem mem_issues_iff {issue : Issue} : issue ∈ check.issues items ↔
    ∃ item ∈ check.firsts items,
      issue ∈ check.unknownIssues items item ∨ issue ∈ check.circularIssues items item := by
  unfold issues issuesAt
  rw [List.mem_flatMap]
  simp only [List.mem_append]

theorem contains_ids {target : String} :
    (!(check.ids items).contains target) = true ↔ target ∉ items.map check.id := by
  unfold ids firsts
  rw [Bool.not_eq_true', List.contains_eq_mem, decide_eq_false_iff_not, mem_map_distinctBy_iff]

theorem mem_unknownIssues_iff {issue : Issue} {item : α} :
    issue ∈ check.unknownIssues items item ↔ ∃ target ∈ check.targets item,
      target ∉ items.map check.id ∧ issue = check.unknown (check.id item) target := by
  unfold unknownIssues
  rw [List.mem_map]
  simp only [List.mem_filter, contains_ids]
  constructor
  · intro hissue
    rcases hissue with ⟨target, ⟨htarget, hunknown⟩, heq⟩
    exact ⟨target, htarget, hunknown, heq.symm⟩
  · intro hissue
    rcases hissue with ⟨target, htarget, hunknown, heq⟩
    exact ⟨target, ⟨htarget, hunknown⟩, heq.symm⟩

theorem closesCycle_of_mem {issue : Issue} {item : α}
    (h : issue ∈ check.circularIssues items item) :
    ∃ path, issue = check.circular (check.id item) path ∧
      (check.graph items).ClosesCycle (check.id item) path := by
  unfold circularIssues at h
  rw [Option.mem_toList, Option.map_eq_some_iff] at h
  rcases h with ⟨path, hfound, heq⟩
  exact ⟨path, heq.symm, (Graph.findCycle_lasso hfound).closesCycle⟩

theorem unknown_ne_circular {id other target : String} {path : List String} :
    check.unknown id target ≠ check.circular other path := by
  intro heq
  apply check.kinds_ne
  rw [← check.kind_unknown id target, heq, check.kind_circular]

theorem count_unknownIssues (item : α) (target : String) :
    (check.unknownIssues items item).count (check.unknown (check.id item) target) =
      if target ∈ items.map check.id then 0 else (check.targets item).count target := by
  have hinjective : Function.Injective (check.unknown (check.id item)) :=
    fun a b heq => (check.unknown_injective heq).2
  unfold unknownIssues
  rw [List.count_map_of_injective _ _ hinjective]
  by_cases hknown : target ∈ items.map check.id
  · rw [if_pos hknown, List.count_eq_zero]
    intro hmem
    exact contains_ids.mp (List.mem_filter.mp hmem).2 hknown
  · rw [if_neg hknown]
    exact List.count_filter (contains_ids.mpr hknown)

/-- Only the item itself reports its unknown links. -/
theorem count_unknown {item : α} (hitem : item ∈ check.firsts items) (target : String) :
    (check.issues items).count (check.unknown (check.id item) target) =
      if target ∈ items.map check.id then 0 else (check.targets item).count target := by
  have hcircular : ∀ other,
      (check.circularIssues items other).count (check.unknown (check.id item) target) = 0 := by
    intro other
    rw [List.count_eq_zero]
    intro hmem
    rcases closesCycle_of_mem hmem with ⟨_, heq, -⟩
    exact unknown_ne_circular heq
  have helsewhere : ∀ other, other ≠ item → other ∈ check.firsts items →
      (List.count (check.unknown (check.id item) target) ∘ check.issuesAt items) other = 0 := by
    intro other hne hother
    have hunknown :
        (check.unknownIssues items other).count (check.unknown (check.id item) target) = 0 := by
      rw [List.count_eq_zero]
      intro hmem
      rcases mem_unknownIssues_iff.mp hmem with ⟨_, -, -, heq⟩
      exact hne (distinctBy_unique hother hitem (check.unknown_injective heq).1.symm)
    rw [Function.comp_apply, issuesAt, List.count_append, hunknown, hcircular]
  classical
  have honce : (check.firsts items).count item = 1 :=
    List.count_eq_one_of_mem (List.Nodup.of_map _ (nodup_map_distinctBy check.id items)) hitem
  unfold issues
  rw [List.count_flatMap, List.sum_map_eq_nsmul_single item _ helsewhere, honce, one_nsmul,
    Function.comp_apply, issuesAt, List.count_append, hcircular, Nat.add_zero,
    count_unknownIssues]

/-- Without links there is no way into a cycle. -/
theorem circularIssues_of_no_targets {item : α} (hitem : item ∈ check.firsts items)
    (hnone : check.targets item = []) : check.circularIssues items item = [] := by
  have hoff : ¬ RunsIntoCycle (check.graph items).Edge (check.id item) := by
    intro hruns
    have hlink := hruns.exists_link
    rw [edge_eq_leadsTo] at hlink
    rcases hlink with ⟨next, ⟨other, hother, hid, hnext⟩, -⟩
    rw [distinctBy_unique hother hitem hid, hnone] at hnext
    simp at hnext
  unfold circularIssues
  rw [Graph.findCycle_eq_none_iff.mpr hoff]
  rfl

/-- A check of links reports exactly the ids that run into a cycle and the links
that lead to no item, whatever the ids and links are taken from. -/
theorem decides (check : LinkCheck α) : check.Decides check.issues := by
  constructor
  · exact fun items => reportedOnce
  · exact fun items item hitem target => count_unknown hitem target
  · intro items issue hissue
    rcases mem_issues_iff.mp hissue with ⟨item, hitem, hunknown | hcircular⟩
    · exact .inl ⟨item, hitem, mem_unknownIssues_iff.mp hunknown⟩
    · rcases closesCycle_of_mem hcircular with ⟨path, heq, hcloses⟩
      exact .inr ⟨_, path, heq, hcloses⟩
  · intro items others hlinks id
    rw [mem_reportedAt_iff, mem_reportedAt_iff, leadsTo_of_forall₂ hlinks]
  · intro items others hdistinct hperm id
    rw [mem_reportedAt_iff, mem_reportedAt_iff, leadsTo_of_perm hdistinct hperm]

end LinkCheck

/-! ## Dependencies and steps -/

def Nodes.dependencyCheck : LinkCheck Node where
  id := Node.id
  targets := Node.dependencies
  unknown := .unknownDependency
  circular := .circularDependency
  unknownKind := .unknownDependency
  circularKind := .circularDependency
  unknown_injective := by
    intro a b c d heq
    simpa using heq
  kind_unknown := fun _ _ => rfl
  kind_circular := fun _ _ => rfl
  kinds_ne := by simp
  nodeId?_circular := fun _ _ => rfl

def Steps.nextCheck : LinkCheck Step where
  id := Step.id
  targets := Step.next
  unknown := .unknownStep
  circular := .circularStepChain
  unknownKind := .unknownStep
  circularKind := .circularStepChain
  unknown_injective := by
    intro a b c d heq
    simpa using heq
  kind_unknown := fun _ _ => rfl
  kind_circular := fun _ _ => rfl
  kinds_ne := by simp
  nodeId?_circular := fun _ _ => rfl

theorem Nodes.dependencyIssues_eq : dependencyIssues = dependencyCheck.issues := by
  funext nodes
  unfold dependencyIssues dependencies
  rw [List.flatMap_map]
  refine List.flatMap_congr fun node hnode => ?_
  change dependencyIssuesOf (ids nodes) _ node.id node.dependencies =
    dependencyCheck.issuesAt nodes node
  unfold dependencyIssuesOf
  split
  · rename_i hempty
    have hnone : dependencyCheck.targets node = [] := List.isEmpty_iff.mp hempty
    unfold LinkCheck.issuesAt LinkCheck.unknownIssues
    rw [LinkCheck.circularIssues_of_no_targets hnode hnone, hnone]
    rfl
  · rfl

theorem Steps.issues_eq : issues = nextCheck.issues := by
  funext steps
  have hkeys : (links steps).keys = nextCheck.ids steps := by
    unfold links Assoc.keys
    rw [List.map_map]
    rfl
  unfold issues
  simp only [hkeys]
  unfold links
  rw [List.flatMap_map]
  rfl

/-- Dependencies of nodes and next steps of steps are checked for cycles alike. -/
theorem circularLinks_reported :
    dependencyCheck.Decides dependencyIssues ∧ Steps.nextCheck.Decides Steps.issues := by
  rw [dependencyIssues_eq, Steps.issues_eq]
  exact ⟨dependencyCheck.decides, Steps.nextCheck.decides⟩

/-- Two ways to one step are no cycle; `"u"` leads into one it does not lie on. -/
example :
    Steps.issues [⟨"x", ["y", "z"]⟩, ⟨"y", ["w"]⟩, ⟨"z", ["w"]⟩, ⟨"w", []⟩, ⟨"u", ["c", "y"]⟩,
        ⟨"c", ["g", "c", "g"]⟩, ⟨"c", ["x"]⟩] =
      [.circularStepChain "u" ["u", "c", "c"], .unknownStep "c" "g", .unknownStep "c" "g",
        .circularStepChain "c" ["c", "c"]] := by
  decide +kernel

end FormRules
