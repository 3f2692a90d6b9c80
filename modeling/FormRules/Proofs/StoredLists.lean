import FormRules.Proofs.ReadConditions
import FormRules.Proofs.RepairedList

/-!
# Stored lists are taken all or none

A stored list can be used when it is null or a list of which every item can be
read.  Then every check answers for the items that were read.  Otherwise the
checks report that and nothing else, the tree and the repaired list are empty
and the metrics are zero.  The repaired list and the metrics of a list without
items are empty, too, so only a report tells the two apart.

Lists of workflow steps have a guard of their own, which lets an empty text and
an empty object through.
-/

namespace FormRules

/-! ## Lists whose items can be read -/

namespace Value

variable {α : Type} {read : Value → Reading α}

/-- Null, or a list of which every item can be read. -/
def Usable (read : Value → Reading α) (v : Value) : Prop :=
  v = .null ∨ ∃ items, v = .list items ∧ ∀ item ∈ items, ∃ a, read item = .ok a

/-- What the items of a usable list are read as, in order. -/
def ReadsAs (read : Value → Reading α) (v : Value) (as : List α) : Prop :=
  match v with
  | .null => as = []
  | .list items => List.Forall₂ (fun item a => read item = .ok a) items as
  | _ => False

theorem exists_forall₂_read {items : List Value} :
    (∃ as, List.Forall₂ (fun item a => read item = .ok a) items as) ↔
      ∀ item ∈ items, ∃ a, read item = .ok a := by
  induction items with
  | nil => simp
  | cons item rest ih =>
      simp only [List.forall₂_cons_left_iff, List.forall_mem_cons, ← ih]
      constructor
      · rintro ⟨_, a, as, hitem, hrest, -⟩
        exact ⟨⟨a, hitem⟩, as, hrest⟩
      · rintro ⟨⟨a, hitem⟩, as, hrest⟩
        exact ⟨a :: as, a, as, hitem, hrest, rfl⟩

theorem usable_iff_readsAs {v : Value} : v.Usable read ↔ ∃ as, v.ReadsAs read as := by
  cases v <;> simp [Usable, ReadsAs, exists_forall₂_read]

end Value

namespace Nodes

variable {defaultPriority : Reading Int} {v : Value} {nodes : List Node}

theorem read_eq_ok_iff :
    (read defaultPriority v).value = .ok nodes ↔ v.ReadsAs (Node.read defaultPriority) nodes := by
  cases v with
  | null => simp [read, Value.ReadsAs, @eq_comm _ [] nodes]
  | list items =>
      simp only [read, Value.ReadsAs, ← readFrom_eq_ok_iff 0]
      cases readFrom defaultPriority 0 items <;> simp
  | _ => simp [read, Value.ReadsAs]

end Nodes

namespace Steps

variable {v : Value} {steps : List Step}

theorem read_eq_ok_iff :
    read v = .ok steps ↔
      v.ReadsAs Step.read steps ∨ (v = .str "" ∨ v = .obj []) ∧ steps = [] := by
  cases v with
  | null => simp [read, Value.ReadsAs, @eq_comm _ [] steps]
  | list items =>
      simp only [read, Value.ReadsAs, ← Reading.each_eq_ok_iff]
      cases Reading.each Step.read items <;> simp
  | str s => by_cases hempty : s = "" <;>
      simp [read, Value.ReadsAs, hempty, @eq_comm _ [] steps]
  | obj fields => cases fields <;> simp [read, Value.ReadsAs, @eq_comm _ [] steps]
  | _ => simp [read, Value.ReadsAs]

end Steps

/-! ## Reports about the input -/

/-- One error about the input and nothing else. -/
def Issue.Refuses (issues : List Issue) : Prop :=
  ∃ issue, issues = [issue] ∧ issue.kind = .invalidInput ∧ issue.isError = true

theorem Issue.refuses_invalidInput (cause : InputError) : Refuses [.invalidInput cause] :=
  ⟨.invalidInput cause, rfl, rfl, rfl⟩

theorem Issue.not_refuses {issues : List Issue} (h : ∀ cause, .invalidInput cause ∉ issues) :
    ¬ Refuses issues := by
  rintro ⟨issue, hissues, hkind, -⟩
  cases issue with
  | invalidInput cause => exact h cause (by simp [hissues])
  | _ => cases hkind

namespace Nodes

variable {nodes : List Node} {cause : InputError}

open Issue

theorem invalidInput_not_mem_structureIssues : invalidInput cause ∉ structureIssues nodes := by
  have hlink : ∀ node, invalidInput cause ∉ linkIssues (ids nodes) node := by
    intro node
    unfold linkIssues
    split <;> split <;> simp
  have hcycle : ∀ node,
      cycleIssue? (Graph.ofParents (parents nodes)) node ≠ some (invalidInput cause) := by
    intro node
    unfold cycleIssue?
    split <;> simp
  simp [structureIssues, duplicateIssues, hlink, hcycle]

theorem invalidInput_not_mem_dependencyIssues : invalidInput cause ∉ dependencyIssues nodes := by
  have hentry : ∀ id names, invalidInput cause ∉
      dependencyIssuesOf (ids nodes) (Graph.ofLists (dependencies nodes)) id names := by
    intro id names
    unfold dependencyIssuesOf
    split <;> simp
  simp [dependencyIssues, hentry]

theorem invalidInput_not_mem_ruleIssues : invalidInput cause ∉ ruleIssues nodes := by
  have hrule : ∀ id rule, invalidInput cause ∉ ruleIssuesOf (ids nodes) id rule := by
    intro id rule
    unfold ruleIssuesOf
    cases rule.targetField <;> simp
  simp [ruleIssues, hrule]

theorem invalidInput_not_mem_allIssues : invalidInput cause ∉ allIssues nodes := by
  simp [allIssues, invalidInput_not_mem_structureIssues, invalidInput_not_mem_dependencyIssues,
    invalidInput_not_mem_ruleIssues]

end Nodes

theorem Steps.invalidInput_not_mem_issues {steps : List Step} {cause : InputError} :
    .invalidInput cause ∉ issues steps := by
  simp [issues, issuesOf]

/-! ## Empty results -/

namespace Nodes

variable {nodes : List Node}

theorem repaired_eq_nil_iff : repaired nodes = [] ↔ nodes = [] := by
  rw [← List.map_eq_nil_iff (f := Node.id), map_id_repaired, List.map_eq_nil_iff]

theorem ofNodes_eq_nil_iff : Forest.ofNodes nodes = [] ↔ nodes = [] := by
  cases nodes with
  | nil => exact ⟨fun _ => rfl, fun _ => rfl⟩
  | cons node rest => simp [Forest.ofNodes, firsts, distinctBy]

end Nodes

theorem Metrics.ofForest_eq_none_iff {forest : Forest} :
    ofForest forest = none ↔ forest = [] := by
  cases forest with
  | nil => exact ⟨fun _ => rfl, fun _ => rfl⟩
  | cons placed rest =>
      refine ⟨fun h => ?_, fun h => by cases h⟩
      have htotal := congrArg Metrics.totalNodes h
      simp [ofForest, none] at htotal

/-! ## All or none -/

namespace Check

/-- The checks that answer with issues. -/
def reporting : List Check := [.links, .dependencies, .rules, .all]

/-- The answers to a stored list are those to its items, or all say that there
are none to be had. -/
structure TakesAllOrNone (defaultPriority : Reading Int) (v : Value) : Prop where
  accepts : ∀ nodes, v.ReadsAs (Node.read defaultPriority) nodes → ∀ check : Check,
    (check.answerStored defaultPriority v).value = (check.answer (.ok nodes)).value
  refuses_iff : ∀ check ∈ reporting,
    ∃ issues, (check.answerStored defaultPriority v).value = .issues issues ∧
      (Issue.Refuses issues ↔ ¬ v.Usable (Node.read defaultPriority))
  /-- All answers refuse together, and for the same cause. -/
  empty_iff :
    (∃ cause,
      (∀ check ∈ reporting,
        (check.answerStored defaultPriority v).value = .issues [.invalidInput cause]) ∧
      (Check.tree.answerStored defaultPriority v).value = .tree ⟨[], [.invalidInput cause]⟩ ∧
      (Check.repair.answerStored defaultPriority v).value = .repaired ⟨[], []⟩ ∧
      (Check.metrics.answerStored defaultPriority v).value = .metrics Metrics.none) ↔
    ¬ v.Usable (Node.read defaultPriority)
  tree_iff :
    (∃ cause,
      (Check.tree.answerStored defaultPriority v).value = .tree ⟨[], [.invalidInput cause]⟩) ↔
    ¬ v.Usable (Node.read defaultPriority)
  /-- A list without items is repaired to an empty one, too. -/
  repair_iff :
    (Check.repair.answerStored defaultPriority v).value = .repaired ⟨[], []⟩ ↔
    ¬ v.Usable (Node.read defaultPriority) ∨ v.ReadsAs (Node.read defaultPriority) []
  metrics_iff :
    (Check.metrics.answerStored defaultPriority v).value = .metrics Metrics.none ↔
    ¬ v.Usable (Node.read defaultPriority) ∨ v.ReadsAs (Node.read defaultPriority) []

variable {defaultPriority : Reading Int} {v : Value} {nodes : List Node}

theorem answerStored_readsAs (h : v.ReadsAs (Node.read defaultPriority) nodes) (check : Check) :
    (check.answerStored defaultPriority v).value = (check.answer (.ok nodes)).value := by
  have hread := Nodes.read_eq_ok_iff.mpr h
  change (check.answer (Nodes.read defaultPriority v).value).value = _
  rw [hread]

theorem exists_answerStored_unusable (h : ¬ v.Usable (Node.read defaultPriority)) :
    ∃ cause, ∀ check : Check,
      (check.answerStored defaultPriority v).value = (check.answer (.error cause)).value := by
  cases hread : (Nodes.read defaultPriority v).value with
  | ok nodes => exact absurd (Value.usable_iff_readsAs.mpr ⟨nodes, Nodes.read_eq_ok_iff.mp hread⟩) h
  | error cause =>
      refine ⟨cause, fun check => ?_⟩
      change (check.answer (Nodes.read defaultPriority v).value).value = _
      rw [hread]

theorem exists_answer_ok_issues {check : Check} (hcheck : check ∈ reporting) (nodes : List Node) :
    ∃ issues, (check.answer (.ok nodes)).value = .issues issues ∧
      ∀ cause, .invalidInput cause ∉ issues := by
  simp only [reporting, List.mem_cons, List.not_mem_nil, or_false] at hcheck
  rcases hcheck with rfl | rfl | rfl | rfl
  · exact ⟨_, rfl, fun _ => Nodes.invalidInput_not_mem_structureIssues⟩
  · exact ⟨_, rfl, fun _ => Nodes.invalidInput_not_mem_dependencyIssues⟩
  · exact ⟨_, rfl, fun _ => Nodes.invalidInput_not_mem_ruleIssues⟩
  · exact ⟨_, rfl, fun _ => Nodes.invalidInput_not_mem_allIssues⟩

theorem answer_error_issues {check : Check} (hcheck : check ∈ reporting) (cause : InputError) :
    (check.answer (.error cause)).value = .issues [.invalidInput cause] := by
  simp only [reporting, List.mem_cons, List.not_mem_nil, or_false] at hcheck
  rcases hcheck with rfl | rfl | rfl | rfl <;> rfl

theorem takesAllOrNone_usable (h : v.ReadsAs (Node.read defaultPriority) nodes) :
    TakesAllOrNone defaultPriority v := by
  have hanswer := answerStored_readsAs h
  have husable : v.Usable (Node.read defaultPriority) := Value.usable_iff_readsAs.mpr ⟨nodes, h⟩
  have hitems : v.ReadsAs (Node.read defaultPriority) [] ↔ nodes = [] := by
    rw [← Nodes.read_eq_ok_iff, Nodes.read_eq_ok_iff.mpr h, Except.ok.injEq]
  have htree : ∀ cause, (Check.tree.answerStored defaultPriority v).value ≠
      .tree ⟨[], [.invalidInput cause]⟩ := by
    intro cause heq
    rw [hanswer] at heq
    have hissues : Nodes.structureIssues nodes = [.invalidInput cause] := by
      injection heq with htree
      exact congrArg Tree.issues htree
    have hmem : .invalidInput cause ∈ Nodes.structureIssues nodes := by
      rw [hissues]
      exact List.mem_singleton_self _
    exact Nodes.invalidInput_not_mem_structureIssues hmem
  constructor
  case accepts =>
    intro others hothers check
    exact answerStored_readsAs hothers check
  case refuses_iff =>
    intro check hcheck
    obtain ⟨issues, hissues, hfound⟩ := exists_answer_ok_issues hcheck nodes
    refine ⟨issues, (hanswer check).trans hissues, ?_⟩
    exact iff_of_false (Issue.not_refuses hfound) (not_not.mpr husable)
  case empty_iff =>
    refine iff_of_false ?_ (not_not.mpr husable)
    rintro ⟨cause, -, heq, -⟩
    exact htree cause heq
  case tree_iff =>
    refine iff_of_false ?_ (not_not.mpr husable)
    rintro ⟨cause, heq⟩
    exact htree cause heq
  case repair_iff =>
    rw [hanswer, hitems, or_iff_right (not_not.mpr husable)]
    constructor
    · intro heq
      injection heq with hrepaired
      exact Nodes.repaired_eq_nil_iff.mp (congrArg Repaired.nodes hrepaired)
    · intro hnil
      subst hnil
      rfl
  case metrics_iff =>
    rw [hanswer, hitems, or_iff_right (not_not.mpr husable)]
    change CheckResult.metrics (Metrics.ofForest (Forest.ofNodes nodes)) = _ ↔ _
    rw [CheckResult.metrics.injEq, Metrics.ofForest_eq_none_iff, Nodes.ofNodes_eq_nil_iff]

/-- Every check of a value that is no readable list refuses it, for one and the
same cause. -/
theorem takesAllOrNone_unusable (h : ¬ v.Usable (Node.read defaultPriority)) :
    TakesAllOrNone defaultPriority v := by
  obtain ⟨cause, hanswer⟩ := exists_answerStored_unusable h
  have hreports : ∀ check ∈ reporting,
      (check.answerStored defaultPriority v).value = .issues [.invalidInput cause] :=
    fun check hcheck => (hanswer check).trans (answer_error_issues hcheck cause)
  constructor
  case accepts =>
    intro nodes hnodes
    exact absurd (Value.usable_iff_readsAs.mpr ⟨nodes, hnodes⟩) h
  case refuses_iff =>
    intro check hcheck
    exact ⟨_, hreports check hcheck, iff_of_true (Issue.refuses_invalidInput cause) h⟩
  case empty_iff =>
    exact iff_of_true ⟨cause, hreports, hanswer .tree, hanswer .repair, hanswer .metrics⟩ h
  case tree_iff => exact iff_of_true ⟨cause, hanswer .tree⟩ h
  case repair_iff => exact iff_of_true (hanswer .repair) (.inl h)
  case metrics_iff => exact iff_of_true (hanswer .metrics) (.inl h)

end Check

namespace Steps

/-- The answer to a stored list of steps is that to its items, or says that
there are none to be had; nothing is said of an empty text or object. -/
structure TakesAllOrNone (v : Value) : Prop where
  accepts : ∀ steps, v.ReadsAs Step.read steps → (check v).value = issues steps
  refuses_iff :
    Issue.Refuses (check v).value ↔ ¬ v.Usable Step.read ∧ v ≠ .str "" ∧ v ≠ .obj []
  lets_through : v = .str "" ∨ v = .obj [] → (check v).value = []

theorem check_eq_of_read {v : Value} {steps : List Step} (h : read v = .ok steps) :
    (check v).value = issues steps := by
  rw [check, h]

theorem takesAllOrNone (v : Value) : TakesAllOrNone v := by
  constructor
  case accepts =>
    intro steps hsteps
    exact check_eq_of_read (read_eq_ok_iff.mpr (.inl hsteps))
  case refuses_iff =>
    cases hread : read v with
    | ok steps =>
        rw [check_eq_of_read hread]
        refine iff_of_false (Issue.not_refuses fun _ => invalidInput_not_mem_issues) ?_
        rintro ⟨hunusable, htext, hobject⟩
        rcases read_eq_ok_iff.mp hread with hitems | ⟨hempty, -⟩
        · exact hunusable (Value.usable_iff_readsAs.mpr ⟨steps, hitems⟩)
        · exact hempty.elim htext hobject
    | error cause =>
        have hunread : ∀ steps, read v ≠ .ok steps := by simp [hread]
        rw [check, hread]
        refine iff_of_true (Issue.refuses_invalidInput cause) ⟨fun husable => ?_, ?_, ?_⟩
        · obtain ⟨steps, hitems⟩ := Value.usable_iff_readsAs.mp husable
          exact hunread steps (read_eq_ok_iff.mpr (.inl hitems))
        · exact fun htext => hunread [] (read_eq_ok_iff.mpr (.inr ⟨.inl htext, rfl⟩))
        · exact fun hobject => hunread [] (read_eq_ok_iff.mpr (.inr ⟨.inr hobject, rfl⟩))
  case lets_through =>
    intro hempty
    exact check_eq_of_read (read_eq_ok_iff.mpr (.inr ⟨hempty, rfl⟩))

end Steps

/-- A stored list is taken as a whole or not at all, by every check of nodes and
by the check of steps; only an empty text or object passes for a list without
steps. -/
theorem Check.storedLists_takenAllOrNone (defaultPriority : Reading Int) (v : Value) :
    Check.TakesAllOrNone defaultPriority v ∧ Steps.TakesAllOrNone v := by
  refine ⟨?_, Steps.takesAllOrNone v⟩
  by_cases husable : v.Usable (Node.read defaultPriority)
  · obtain ⟨nodes, hnodes⟩ := Value.usable_iff_readsAs.mp husable
    exact takesAllOrNone_usable hnodes
  · exact takesAllOrNone_unusable husable

/-- A number after a node that can be read makes all of the list unusable. -/
theorem Check.storedLists_takenAllOrNone_lateNumber :
    let v : Value := .list [.obj [("id", .str "a")], .int 5]
    (∃ a, Node.read (.ok 100) (.obj [("id", .str "a")]) = .ok a) ∧
      (Check.links.answerStored (.ok 100) v).value = .issues [.invalidInput (.malformedNode 1)] ∧
      (Check.metrics.answerStored (.ok 100) v).value = .metrics Metrics.none ∧
      Issue.Refuses (Steps.check v).value := by
  intro v
  have hnode : ¬ v.Usable (Node.read (.ok 100)) := by
    simp [v, Value.Usable, Node.read, Reading.fault]
  have hstep : ¬ v.Usable Step.read := by
    simp [v, Value.Usable, Step.read, Reading.fault]
  have htaken := Check.storedLists_takenAllOrNone (.ok 100) v
  refine ⟨⟨_, rfl⟩, rfl, ?_, ?_⟩
  · exact htaken.1.metrics_iff.mpr (.inl hnode)
  · exact htaken.2.refuses_iff.mpr ⟨hstep, by simp [v], by simp [v]⟩

/-- An empty text is refused as a list of nodes and taken as a list of steps. -/
theorem Steps.emptyText_not_refused :
    ¬ Value.Usable Step.read (.str "") ∧ ¬ Issue.Refuses (Steps.check (.str "")).value ∧
      ¬ Value.Usable (Node.read (.ok 100)) (.str "") ∧
      (Check.links.answerStored (.ok 100) (.str "")).value =
        .issues [.invalidInput (.notNodes "str")] := by
  refine ⟨by simp [Value.Usable], ?_, by simp [Value.Usable], rfl⟩
  rw [(takesAllOrNone (.str "")).lets_through (.inl rfl)]
  exact Issue.not_refuses fun _ => List.not_mem_nil

end FormRules
