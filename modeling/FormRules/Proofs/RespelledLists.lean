import FormRules.Proofs.RespelledReadings
import FormRules.Proofs.RepairedList
import FormRules.Proofs.SettledLists
import FormRules.Rule.Evaluation

/-!
# Lists of respelled nodes

The checks of a list, its tree and its repair look at the fields of the nodes and
not at the objects they were read from.  A stored list in another spelling reads as
nodes with the same fields, or fails at the same node with as many faults; so every
check gives the same answer for it and makes the same records.
-/

namespace FormRules

theorem Node.sameContent_unsourced (node : Node) : node.SameContent node.unsourced := by
  constructor <;> rfl

namespace Nodes

/-! ## Checks of nodes without their sources -/

def unsourced (nodes : List Node) : List Node := nodes.map Node.unsourced

variable (nodes : List Node)

theorem firstsBy_unsourced : FirstsBy Node.unsourced nodes (unsourced nodes) :=
  firstsBy_map Node.sameContent_unsourced nodes

theorem structureIssues_unsourced : structureIssues (unsourced nodes) = structureIssues nodes := by
  have hfirsts := (firstsBy_unsourced nodes).1
  have hids := (firstsBy_unsourced nodes).ids_eq
  have hduplicates : duplicateIssues (unsourced nodes) = duplicateIssues nodes := by
    have hoccurrences : ∀ id, occurrences (unsourced nodes) id = occurrences nodes id := by
      intro id
      unfold occurrences unsourced
      rw [List.filter_map, List.length_map]
      rfl
    unfold duplicateIssues
    simp only [hids, hoccurrences]
  have hparents : parents (unsourced nodes) = parents nodes := by
    unfold parents
    rw [hfirsts, List.map_map]
    rfl
  rw [structureIssues_eq, structureIssues_eq, hduplicates, hparents, hids, hfirsts,
    List.flatMap_map, List.filterMap_map]
  rfl

theorem allIssues_unsourced : allIssues (unsourced nodes) = allIssues nodes := by
  unfold allIssues
  rw [structureIssues_unsourced, (firstsBy_unsourced nodes).dependencyIssues_eq,
    (firstsBy_unsourced nodes).ruleIssues_eq]

theorem repair_unsourced : Repair.ofNodes (unsourced nodes) = Repair.ofNodes nodes := by
  have horphans : Repair.clearOrphans (unsourced (firsts nodes)) =
      Repair.clearOrphans (firsts nodes) := by
    unfold Repair.clearOrphans unsourced
    simp only [List.map_map, List.filterMap_map]
    rfl
  have hfirsts : firsts (unsourced nodes) = unsourced (firsts nodes) := (firstsBy_unsourced nodes).1
  unfold Repair.ofNodes
  rw [(firstsBy_unsourced nodes).ids_eq, hfirsts, horphans]

theorem applyFrom_unsourced (repair : Repair) (before : List String) :
    repair.applyFrom before (unsourced nodes) = unsourced (repair.applyFrom before nodes) := by
  unfold unsourced
  induction nodes generalizing before with
  | nil => rfl
  | cons node rest ih =>
      rw [List.map_cons, Repair.applyFrom, Repair.applyFrom, List.map_cons]
      congr 1
      · exact (apply_ite Node.unsourced _ node (node.setParent _)).symm
      · exact ih (node.id :: before)

theorem repaired_unsourced : repaired (unsourced nodes) = unsourced (repaired nodes) := by
  unfold repaired Repair.apply
  rw [repair_unsourced, applyFrom_unsourced]

theorem fixes_unsourced : fixes (unsourced nodes) = fixes nodes := by
  unfold fixes
  rw [repair_unsourced]

/-- Forgetting what nodes were read from changes nothing of their tree but the
nodes. -/
theorem forest_unsourced :
    Forest.ofNodes (unsourced nodes) = (Forest.ofNodes nodes).onNodes Node.unsourced := by
  unfold Forest.ofNodes Forest.onNodes
  rw [repair_unsourced, (firstsBy_unsourced nodes).1, List.map_map, List.map_map]
  rfl

end Nodes

/-! ## Answers -/

/-- The nodes of the input without the objects they were read from. -/
def NodeInput.unsourced (input : NodeInput) : NodeInput := input.map Nodes.unsourced

/-- The answer, with the nodes in it without the objects they were read from. -/
def CheckResult.unsourced : CheckResult → CheckResult
  | .tree found => .tree ⟨found.forest.onNodes Node.unsourced, found.issues⟩
  | .repaired found => .repaired ⟨Nodes.unsourced found.nodes, found.fixes⟩
  | result => result

namespace Check

theorem treeLog_unsourced (nodes : List Node) :
    NodeInput.treeLog (.ok (Nodes.unsourced nodes)) = NodeInput.treeLog (.ok nodes) := by
  have hlength : ∀ forest : Forest, (forest.onNodes Node.unsourced).length = forest.length :=
    fun forest => List.length_map _
  unfold NodeInput.treeLog Nodes.fixNotes
  dsimp only
  rw [Nodes.fixes_unsourced, Nodes.forest_unsourced, Nodes.structureIssues_unsourced, hlength,
    Forest.roots_onNodes Node.sameContent_unsourced, List.length_map]

theorem repairLog_unsourced (nodes : List Node) :
    NodeInput.repairLog (.ok (Nodes.unsourced nodes)) = NodeInput.repairLog (.ok nodes) := by
  unfold NodeInput.repairLog Nodes.fixNotes
  dsimp only
  rw [Nodes.fixes_unsourced]

theorem tree_unsourced (nodes : List Node) :
    NodeInput.tree (.ok (Nodes.unsourced nodes)) =
      ⟨(Forest.ofNodes nodes).onNodes Node.unsourced, Nodes.structureIssues nodes⟩ := by
  unfold NodeInput.tree
  dsimp only
  rw [Nodes.forest_unsourced, Nodes.structureIssues_unsourced]

theorem repaired_unsourced (nodes : List Node) :
    NodeInput.repaired (.ok (Nodes.unsourced nodes)) =
      ⟨Nodes.unsourced (Nodes.repaired nodes), Nodes.fixes nodes⟩ := by
  unfold NodeInput.repaired
  dsimp only
  rw [Nodes.repaired_unsourced, Nodes.fixes_unsourced]

theorem metrics_unsourced (nodes : List Node) :
    NodeInput.metrics (.ok (Nodes.unsourced nodes)) = NodeInput.metrics (.ok nodes) := by
  unfold NodeInput.metrics
  rw [tree_unsourced, Metrics.ofForest_onNodes Node.sameContent_unsourced]
  rfl

/-- No check looks at the objects that nodes were read from, but for handing
them on. -/
theorem answer_unsourced (check : Check) (input : NodeInput) :
    check.answer input.unsourced = (check.answer input).map CheckResult.unsourced := by
  cases input with
  | error cause => cases check <;> rfl
  | ok nodes =>
      have hinput : NodeInput.unsourced (.ok nodes) = .ok (Nodes.unsourced nodes) := rfl
      have hissues : ∀ found others : List Issue, found = others →
          (⟨.issues found, []⟩ : Logged CheckResult) =
            Logged.map CheckResult.unsourced ⟨.issues others, []⟩ := by
        intro found others heq
        rw [heq]
        rfl
      have hfirsts := Nodes.firstsBy_unsourced nodes
      rw [hinput]
      cases check with
      | links => exact hissues _ _ (Nodes.structureIssues_unsourced nodes)
      | dependencies => exact hissues _ _ hfirsts.dependencyIssues_eq
      | rules => exact hissues _ _ hfirsts.ruleIssues_eq
      | all => exact hissues _ _ (Nodes.allIssues_unsourced nodes)
      | tree =>
          rw [answer, treeLog_unsourced, tree_unsourced]
          rfl
      | repair =>
          rw [answer, repairLog_unsourced, repaired_unsourced]
          rfl
      | metrics =>
          rw [answer, treeLog_unsourced, metrics_unsourced]
          rfl

end Check

/-! ## Lists in the plain spelling -/

namespace Stored

open Reading (Alike)

variable {defaultPriority : Reading Int}

theorem readFrom_plainItems {items : List Value} (h : unambiguousItems .node items = true)
    (start : Nat) :
    (Nodes.readFrom defaultPriority start (plainItems .node items)).map Nodes.unsourced =
      (Nodes.readFrom defaultPriority start items).map Nodes.unsourced := by
  induction items generalizing start with
  | nil => rfl
  | cons v rest ih =>
      rw [unambiguousItems, Bool.and_eq_true] at h
      have hnode := readNode_alike h.1 defaultPriority
      have hrest := ih h.2 (start + 1)
      rw [plainItems, Nodes.readFrom, Nodes.readFrom]
      generalize Node.read defaultPriority v = first at hnode
      generalize Node.read defaultPriority (plainForm (.one .node) v) = other at hnode
      cases hnode with
      | @ok node other hnode =>
          have hcons : ∀ (node : Node) (read : Except (Nat × Nat) (List Node)),
              (read.map (node :: ·)).map Nodes.unsourced =
                (read.map Nodes.unsourced).map (node.unsourced :: ·) := by
            intro node read
            cases read <;> rfl
          have heq : node.unsourced = other.unsourced := hnode
          dsimp only
          rw [hcons, hcons, hrest, heq]
      | faulty hnode =>
          dsimp only
          rw [hnode]

theorem readNodes_plainForm {v : Value} (h : unambiguous (.many .node) v = true) :
    (Nodes.read defaultPriority (plainForm (.many .node) v)).map NodeInput.unsourced =
      (Nodes.read defaultPriority v).map NodeInput.unsourced := by
  cases v with
  | list items =>
      have hitems := @readFrom_plainItems defaultPriority items h 0
      rw [plainForm, Nodes.read, Nodes.read]
      generalize Nodes.readFrom defaultPriority 0 items = first at hitems
      generalize Nodes.readFrom defaultPriority 0 (plainItems .node items) = other at hitems
      cases first with
      | ok nodes =>
          cases other with
          | ok others =>
              have heq : Nodes.unsourced others = Nodes.unsourced nodes := Except.ok.inj hitems
              exact congrArg (fun read => (⟨.ok read, []⟩ : Logged NodeInput)) heq
          | error failure => cases hitems
      | error failure =>
          cases other with
          | ok others => cases hitems
          | error other => rw [Except.error.inj hitems]
  | _ => rfl

/-- A list in preferred spelling gets the same answers from every check. -/
theorem answerStored_plainForm {v : Value} (h : unambiguous (.many .node) v = true)
    (check : Check) :
    (check.answerStored defaultPriority (plainForm (.many .node) v)).map CheckResult.unsourced =
      (check.answerStored defaultPriority v).map CheckResult.unsourced := by
  have hanswer : ∀ v, (check.answerStored defaultPriority v).map CheckResult.unsourced =
      ((Nodes.read defaultPriority v).map NodeInput.unsourced).andThen check.answer := by
    intro v
    unfold Check.answerStored Logged.andThen Logged.map
    rw [Check.answer_unsourced]
    rfl
  rw [hanswer, hanswer, readNodes_plainForm h]

/-! ## Either spelling -/

/-- Reads every value of a stored list. -/
def readEach {α : Type} (read : Value → Reading α) (v : Value) : Reading (List α) :=
  (Reading.list v).andThen (Reading.each read)

theorem readEach_alike {α : Type} {read : Value → Reading α} {layout : Layout} {v : Value}
    (h : unambiguous (.many layout) v = true)
    (hread : ∀ v, unambiguous (.one layout) v = true →
      Alike Eq (read v) (read (plainForm (.one layout) v))) :
    Alike Eq (readEach read v) (readEach read (plainForm (.many layout) v)) := by
  cases v with
  | list items =>
      have hitems := unambiguousItems_iff.mp h
      exact eachFrom_alike (fun w hw => hread w (hitems w hw)) 0
  | _ => exact .refl _

/-- What reading two values in one role has in common: the results and what comes
of them, or the number of faults. -/
def ReadAlike : Role → Value → Value → Prop
  | .plain, v, w => v = w
  | .comparator, v, w => Condition.readComparator v = Condition.readComparator w
  | .connective, v, w => Condition.readConnective v = Condition.readConnective w
  | .one .condition, v, w =>
    Alike Eq (Condition.read v) (Condition.read w) ∧
      Alike Eq (Condition.readEither v) (Condition.readEither w) ∧
      ∀ (e : Evaluator) (data : FormData),
        Alike Eq (e.evaluate data <$> Condition.read v) (e.evaluate data <$> Condition.read w)
  | .many .condition, v, w =>
    Alike Eq (readEach Condition.readEither v) (readEach Condition.readEither w)
  | .one .rule, v, w => ∀ defaultPriority,
    Alike Eq (Rule.read defaultPriority v) (Rule.read defaultPriority w)
  | .many .rule, v, w => ∀ defaultPriority,
    Alike Eq (readEach (Rule.read defaultPriority) v) (readEach (Rule.read defaultPriority) w) ∧
      ∀ (judge : Judge) (data : FormData) (includeErrors : Bool),
        Alike Eq
          ((judge.evaluateRules data · includeErrors) <$> readEach (Rule.read defaultPriority) v)
          ((judge.evaluateRules data · includeErrors) <$> readEach (Rule.read defaultPriority) w)
  | .one .node, v, w => ∀ defaultPriority,
    Alike Node.SameButSource (Node.read defaultPriority v) (Node.read defaultPriority w)
  | .many .node, v, w => ∀ defaultPriority,
    (Nodes.read defaultPriority v).map NodeInput.unsourced =
        (Nodes.read defaultPriority w).map NodeInput.unsourced ∧
      ∀ check : Check, (check.answerStored defaultPriority v).map CheckResult.unsourced =
        (check.answerStored defaultPriority w).map CheckResult.unsourced

section Respelled

variable {role : Role} {v w : Value}

theorem Respelled.unambiguous_eq (h : Respelled role v w) :
    unambiguous role w = unambiguous role v := by
  rw [← unambiguous_plainForm role w, ← h.plainForm_eq, unambiguous_plainForm]

/-- What holds of each value and its plain spelling holds of the two values. -/
theorem Respelled.alike {α : Type} {same : α → α → Prop} {read : Value → Reading α}
    (h : Respelled role v w) (honce : unambiguous role v = true) (hequiv : Equivalence same)
    (hread : ∀ v, unambiguous role v = true → Alike same (read v) (read (plainForm role v))) :
    Alike same (read v) (read w) := by
  have hv := hread v honce
  have hw := hread w (h.unambiguous_eq.trans honce)
  rw [h.plainForm_eq] at hv
  exact hv.trans (fun _ _ _ => hequiv.trans) (hw.symm fun _ _ => hequiv.symm)

theorem Respelled.value_eq {α : Type} {read : Value → α} (h : Respelled role v w)
    (honce : unambiguous role v = true)
    (hread : ∀ v, unambiguous role v = true → read (plainForm role v) = read v) :
    read v = read w := by
  rw [← hread v honce, ← hread w (h.unambiguous_eq.trans honce), h.plainForm_eq]

/-- Two spellings of a value are read alike: as the same condition, rule or
node, with as many faults otherwise, and every check or evaluation of what was
read comes to the same. -/
theorem respelled_readAlike (h : Respelled role v w) (honce : unambiguous role v = true) :
    ReadAlike role v w := by
  cases role with
  | plain =>
      have heq : id v = id w := h.value_eq honce fun v _ => plainForm_plain v
      exact heq
  | comparator => exact h.value_eq honce fun v _ => readComparator_plainForm v
  | connective => exact h.value_eq honce fun v _ => readConnective_plainForm v
  | one layout =>
      cases layout with
      | condition =>
          have hread := h.alike honce eq_equivalence fun v => read_alike
          have heither := h.alike honce eq_equivalence fun v => readEither_alike
          exact ⟨hread, heither, fun e data => hread.map fun _ => rfl⟩
      | rule =>
          intro defaultPriority
          exact h.alike honce eq_equivalence fun v hv => readRule_alike hv defaultPriority
      | node =>
          intro defaultPriority
          have hequiv : Equivalence Node.SameButSource := InvImage.equivalence _ _ eq_equivalence
          exact h.alike honce hequiv fun v hv => readNode_alike hv defaultPriority
  | many layout =>
      cases layout with
      | condition =>
          exact h.alike honce eq_equivalence fun v hv =>
            readEach_alike hv fun w => readEither_alike
      | rule =>
          intro defaultPriority
          have hread : Alike Eq (readEach (Rule.read defaultPriority) v)
              (readEach (Rule.read defaultPriority) w) :=
            h.alike honce eq_equivalence fun v hv =>
              readEach_alike hv fun w hw => readRule_alike hw defaultPriority
          exact ⟨hread, fun judge data includeErrors => hread.map fun _ => rfl⟩
      | node =>
          intro defaultPriority
          have hnodes : (Nodes.read defaultPriority v).map NodeInput.unsourced =
              (Nodes.read defaultPriority w).map NodeInput.unsourced :=
            @Respelled.value_eq _ v w _
              (fun v => (Nodes.read defaultPriority v).map NodeInput.unsourced) h honce
              fun v hv => readNodes_plainForm hv
          refine ⟨hnodes, fun check => ?_⟩
          exact @Respelled.value_eq _ v w _
            (fun v => (check.answerStored defaultPriority v).map CheckResult.unsourced) h honce
            fun v hv => answerStored_plainForm hv check

end Respelled

/-- A node in a cycle with a rule on nested conditions and one that cannot be read. -/
def camelCased : Value :=
  .list [.obj [("id", .str "a"), ("parentId", .str "a"), ("type", .str "Section"),
    ("conditionalRules", .list [
      .obj [("id", .str "r"), ("action", .str "show"), ("targetFieldId", .str "b"),
        ("condition", .obj [("logicalOp", .str "Not"), ("conditions", .list [
          .obj [("field", .str "f"), ("operator", .str "IsNull")],
          .obj [("field", .str "g"), ("operator", .str "Near")]])])],
      .obj [("id", .str "q"), ("isActive", .str "Section"), ("condition", .null)]])]]

def snakeCased : Value :=
  .list [.obj [("id", .str "a"), ("parent_id", .str "a"), ("node_type", .str "Section"),
    ("conditional_rules", .list [
      .obj [("id", .str "r"), ("action", .str "show"), ("target_field_id", .str "b"),
        ("condition", .obj [("logical_op", .str "N_OT"), ("children", .list [
          .obj [("field", .str "f"), ("operator", .str "is null")],
          .obj [("field", .str "g"), ("operator", .str "Near")]])])],
      .obj [("id", .str "q"), ("is_active", .str "Section"), ("condition", .null)]])]]

theorem respelled_readAlike_cased :
    Respelled (.many .node) camelCased snakeCased ∧
      unambiguous (.many .node) camelCased = true ∧
      ((Nodes.read (.ok 100) camelCased).value.toOption.map fun nodes =>
        nodes.map fun node => (node.rules.length, node.rejected)) =
        some [(1, [⟨1, some "q", 4⟩])] ∧
      ReadAlike (.many .node) camelCased snakeCased := by
  have hrespelled : Respelled (.many .node) camelCased snakeCased := by decide
  have honce : unambiguous (.many .node) camelCased = true := by decide
  refine ⟨hrespelled, honce, by with_unfolding_all rfl, ?_⟩
  exact respelled_readAlike hrespelled honce

end Stored

end FormRules
