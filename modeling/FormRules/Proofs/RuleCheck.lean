import FormRules.Hierarchy.Check
import FormRules.Proofs.EvaluationFailures
import FormRules.Rule.Evaluation
import FormRules.Settings.Basic

/-!
# Rules that pass the check

The check of the rules attached to nodes reports every operator that an
evaluation would reject.  It passes over blank references and does not look at
how deep a condition is nested.  So a rule that passes it is evaluated without
an error unless its condition holds a blank reference or goes below the deepest
level allowed, and the error is then one of these two.
-/

namespace FormRules

/-- The settings without any variable or file. -/
def Settings.initial : Settings := ⟨false, 64, "current", 100, "INFO"⟩

theorem Settings.read_nothing : Settings.read [] none = .ok initial := rfl

namespace Evaluator

theorem evaluateRule_error_iff {e : Evaluator} {data : FormData} {rule : Rule}
    {message : String} :
    (e.judge.evaluateRule data rule).error = some message ↔
      rule.isActive = true ∧
        ∃ err, e.evaluate data rule.condition = .error err ∧ err.failure.text = message := by
  unfold Judge.evaluateRule judge
  cases hactive : rule.isActive with
  | false => simp
  | true =>
      cases hverdict : e.evaluate data rule.condition with
      | ok triggered => simp [hverdict, Except.mapError]
      | error err => simp [hverdict, Except.mapError]

end Evaluator

namespace Nodes

variable {nodes : List Node}

/-- No rule of the list is reported as an error. -/
def RulesPass (nodes : List Node) : Prop := ∀ issue ∈ ruleIssues nodes, issue.isError = false

theorem isError_of_mem_ruleIssuesOf {ids : List String} {id : String} {rule : Rule}
    {issue : Issue} (hsupported : rule.condition.unsupportedOperators = [])
    (h : issue ∈ ruleIssuesOf ids id rule) : issue.isError = false := by
  unfold ruleIssuesOf at h
  rw [hsupported, List.map_nil, List.nil_append] at h
  rcases List.mem_append.mp h with htarget | hfield
  · split at htarget
    · split at htarget
      · simp at htarget
      · have heq := List.mem_singleton.mp htarget
        subst heq
        rfl
    · simp at htarget
  · obtain ⟨field, -, heq⟩ := List.mem_map.mp hfield
    subst heq
    rfl

theorem rejectedRule_mem_ruleIssues {node : Node} (hnode : node ∈ firsts nodes)
    {rejected : RejectedRule} (h : rejected ∈ node.rejected) :
    .rejectedRule node.id rejected ∈ ruleIssues nodes := by
  refine List.mem_flatMap.mpr ⟨node, hnode, ?_⟩
  exact List.mem_append_left _ (List.mem_map_of_mem h)

theorem unsupportedOperator_mem_ruleIssues {node : Node} (hnode : node ∈ firsts nodes)
    {rule : Rule} (hrule : rule ∈ node.rules) {name : String}
    (h : name ∈ rule.condition.unsupportedOperators) :
    .unsupportedOperator node.id rule.id name ∈ ruleIssues nodes := by
  have hof : .unsupportedOperator node.id rule.id name ∈
      ruleIssuesOf (ids nodes) node.id rule := by
    unfold ruleIssuesOf
    rw [List.append_assoc]
    exact List.mem_append_left _ (List.mem_map_of_mem h)
  refine List.mem_flatMap.mpr ⟨node, hnode, List.mem_append_right _ ?_⟩
  exact List.mem_flatMap.mpr ⟨rule, hrule, hof⟩

/-- A list passes when all of its rules were read and use only known operators. -/
theorem rulesPass_iff :
    RulesPass nodes ↔ ∀ node ∈ firsts nodes, node.rejected = [] ∧
      ∀ rule ∈ node.rules, rule.condition.unsupportedOperators = [] := by
  constructor
  · intro h node hnode
    constructor
    · apply List.eq_nil_iff_forall_not_mem.mpr
      intro rejected hrejected
      have herror := h _ (rejectedRule_mem_ruleIssues hnode hrejected)
      simp [Issue.isError, Issue.severity, Issue.kind, IssueKind.severity] at herror
    · intro rule hrule
      apply List.eq_nil_iff_forall_not_mem.mpr
      intro name hname
      have herror := h _ (unsupportedOperator_mem_ruleIssues hnode hrule hname)
      simp [Issue.isError, Issue.severity, Issue.kind, IssueKind.severity] at herror
  · intro h issue hissue
    obtain ⟨node, hnode, hmem⟩ := List.mem_flatMap.mp hissue
    obtain ⟨hrejected, hsupported⟩ := h node hnode
    rw [hrejected, List.map_nil, List.nil_append] at hmem
    obtain ⟨rule, hrule, hof⟩ := List.mem_flatMap.mp hmem
    exact isError_of_mem_ruleIssuesOf (hsupported rule hrule) hof

/-! ## Lists with one rule -/

def leafOn (field : String) : Condition := .leaf field (.known .isNull) .null

def storedLeaf (field : String) : Value :=
  .obj [("field", .str field), ("operator", .str "IsNull")]

def storedNegation (condition : Value) : Value :=
  .obj [("logicalOp", .str "Not"), ("conditions", .list [condition])]

def showRule (condition : Condition) : Rule :=
  ⟨"r", none, condition, "show", none, none, none, 100, true, none, []⟩

def storedRule (condition : Value) : Value :=
  .obj [("id", .str "r"), ("condition", condition), ("action", .str "show")]

def ruledFields (condition : Value) : Fields :=
  [("id", .str "f"), ("conditionalRules", .list [storedRule condition])]

/-- A node with one rule, as it is read. -/
def ruledNode (stored : Value) (condition : Condition) : Node :=
  Node.ofRead (ruledFields stored) "f" none none 0 [] ([showRule condition], []) []

theorem unsupportedOperators_leafOn (field : String) :
    (leafOn field).unsupportedOperators = [] := by
  unfold Condition.unsupportedOperators
  rw [Condition.walk_eq_preorder]
  rfl

theorem readEither_storedNegation {v : Value} {c : Condition}
    (h : Condition.readEither v = .ok c) :
    Condition.readEither (storedNegation v) = .ok (.negate c) := by
  have hchildren : Condition.readChildrenFrom 0 [v] = .ok [c] := by
    rw [Condition.readChildrenFrom, Condition.readChildrenFrom]
    change Reading.ap (((Condition.readEither v).within "0").map List.cons) (.ok []) = _
    rw [h]
    rfl
  have hgroup : Condition.readGroup (storedNegation v) = .ok (.negate c) := by
    unfold storedNegation
    rw [Condition.readGroup]
    change ((Reading.ok (Condition.group (.known .negation))).ap
      ((Condition.readChildrenFrom 0 [v]).within "conditions")).withFaults [] = _
    rw [hchildren]
    rfl
  unfold Condition.readEither
  rw [hgroup]
  rfl

theorem readEither_storedNegations {v : Value} {c : Condition}
    (h : Condition.readEither v = .ok c) (n : Nat) :
    Condition.readEither (storedNegation^[n] v) = .ok (Condition.negate^[n] c) := by
  induction n with
  | zero => exact h
  | succ n ih =>
      rw [Function.iterate_succ_apply', Function.iterate_succ_apply']
      exact readEither_storedNegation ih

theorem unsupportedOperators_negations (c : Condition) (n : Nat) :
    (Condition.negate^[n] c).unsupportedOperators = c.unsupportedOperators := by
  induction n with
  | zero => rfl
  | succ n ih =>
      rw [Function.iterate_succ_apply', ← ih]
      unfold Condition.unsupportedOperators
      rw [Condition.walk_eq_preorder, Condition.walk_eq_preorder]
      simp [Condition.negate, Condition.preorder, Condition.preorderAll,
        Condition.unsupportedOperator?, OperatorId.known?]

theorem evaluateAt_negations {e : Evaluator} {data : FormData} {level n : Nat} {c : Condition}
    (h : e.maxDepth < level + n) :
    e.evaluateAt data level (Condition.negate^[n] c) = .error (.tooDeep e.maxDepth) := by
  induction n generalizing level with
  | zero => exact Evaluator.evaluateAt_of_deep (by simpa using h) c
  | succ n ih =>
      by_cases hdeep : e.maxDepth < level
      · exact Evaluator.evaluateAt_of_deep hdeep _
      · have hinner : e.evaluateAt data (level + 1) (Condition.negate^[n] c) =
            .error (.tooDeep e.maxDepth) := by
          apply ih
          push_cast at h ⊢
          omega
        rw [Function.iterate_succ_apply']
        simp [Condition.negate, Evaluator.evaluateAt, hdeep, Evaluator.allHold, hinner,
          Except.map]

theorem read_storedRule {v : Value} {c : Condition} (h : Condition.readEither v = .ok c) :
    Rule.read (.ok 100) (storedRule v) = .ok (showRule c) := by
  have hcondition : Reading.required
      [("id", .str "r"), ("condition", v), ("action", .str "show")]
      Rule.conditionKey Condition.readEither = .ok c := by
    change (Condition.readEither v).within "condition" = .ok c
    rw [h]
    rfl
  simp only [Rule.read, storedRule, Rule.readWith, hcondition]
  rfl

theorem read_ruledNode {v : Value} {c : Condition} (h : Condition.readEither v = .ok c) :
    (read (.ok 100) (.list [.obj (ruledFields v)])).value = .ok [ruledNode v c] := by
  have hrules : Node.readRules (.ok 100) (ruledFields v) = .ok ([showRule c], []) := by
    change Reading.ok (Node.readRulesFrom (.ok 100) 0 [storedRule v]) = _
    simp only [Node.readRulesFrom, read_storedRule h]
  have hnode : Node.read (.ok 100) (.obj (ruledFields v)) = .ok (ruledNode v c) := by
    simp only [Node.read, hrules]
    rfl
  have hfrom : readFrom (.ok 100) 0 [.obj (ruledFields v)] = .ok [ruledNode v c] := by
    simp only [readFrom, hnode]
    rfl
  simp only [read, hfrom]

theorem rulesPass_ruledNode {v : Value} {c : Condition} (h : c.unsupportedOperators = []) :
    RulesPass [ruledNode v c] := by
  apply rulesPass_iff.mpr
  intro node hnode
  have heq : node = ruledNode v c := List.mem_singleton.mp hnode
  subst heq
  refine ⟨rfl, fun rule hrule => ?_⟩
  have hrule' : rule = showRule c := List.mem_singleton.mp hrule
  subst hrule'
  exact h

/-! ## Evaluating rules that pass -/

/-- The result of evaluating a rule when no setting was changed. -/
def initialResult (data : FormData) (rule : Rule) : RuleResult :=
  (Settings.initial.evaluator none none).judge.evaluateRule data rule

/-- A rule of a list that passes fails for one of two reasons only: its condition
is nested too deeply, or a reference in it is blank. -/
theorem initialResult_error_of_rulesPass (h : RulesPass nodes) {node : Node}
    (hnode : node ∈ firsts nodes) {rule : Rule} (hrule : rule ∈ node.rules) (data : FormData) :
    ∀ message, (initialResult data rule).error = some message →
      message = "Condition nesting exceeds maximum depth of 64" ∧ 64 < rule.condition.depth ∨
      message = "Field reference cannot be null or empty" ∧
        ∃ field ∈ rule.condition.references, Text.isBlank field = true := by
  intro message hmessage
  obtain ⟨-, err, herr, htext⟩ := Evaluator.evaluateRule_error_iff.mp hmessage
  have hsupported := (rulesPass_iff.mp h node hnode).2 rule hrule
  rcases Evaluator.evaluate_error_of_supported hsupported herr with
    ⟨hdeep, hdepth⟩ | ⟨hblank, hfield⟩
  · subst hdeep
    have hlimit : (64 : Int) < rule.condition.depth := hdepth
    exact .inl ⟨htext.symm, by omega⟩
  · subst hblank
    exact .inr ⟨htext.symm, hfield⟩

/-- With no setting changed, a rule with a blank reference below a negation passes
and fails; it is not nested too deeply, so the cause is the reference. -/
theorem initialResult_error_of_rulesPass_blank :
    let stored := storedNegation (storedLeaf " ")
    let condition := (leafOn " ").negate
    Settings.read [] none = .ok Settings.initial ∧
      (read (.ok Settings.initial.defaultPriority) (.list [.obj (ruledFields stored)])).value =
        .ok [ruledNode stored condition] ∧
      RulesPass [ruledNode stored condition] ∧
      (initialResult .empty (showRule condition)).error =
        some "Field reference cannot be null or empty" ∧
      condition.depth = 2 ∧ ∃ field ∈ condition.references, Text.isBlank field = true := by
  intro stored condition
  have hread : Condition.readEither stored = .ok condition := readEither_storedNegation rfl
  have hpass : RulesPass [ruledNode stored condition] := by
    apply rulesPass_ruledNode
    exact (unsupportedOperators_negations (leafOn " ") 1).trans (unsupportedOperators_leafOn " ")
  have herror : (initialResult .empty (showRule condition)).error =
      some "Field reference cannot be null or empty" :=
    Evaluator.evaluateRule_error_iff.mpr ⟨rfl, .blankReference, rfl, rfl⟩
  refine ⟨Settings.read_nothing, read_ruledNode hread, hpass, herror, rfl, ?_⟩
  rcases initialResult_error_of_rulesPass hpass (List.mem_singleton.mpr rfl)
      (List.mem_singleton.mpr rfl) .empty _ herror with ⟨hdeep, -⟩ | ⟨-, hfield⟩
  · exact absurd hdeep (by decide)
  · exact hfield

/-- A blank reference and a condition of 65 levels pass, and fail when they are
evaluated. -/
theorem rulesPass_not_sufficient :
    ((read (.ok 100) (.list [.obj (ruledFields (storedLeaf " "))])).value =
        .ok [ruledNode (storedLeaf " ") (leafOn " ")] ∧
      RulesPass [ruledNode (storedLeaf " ") (leafOn " ")] ∧
      (initialResult .empty (showRule (leafOn " "))).error =
        some "Field reference cannot be null or empty") ∧
    ((read (.ok 100) (.list [.obj (ruledFields (storedNegation^[64] (storedLeaf "f")))])).value =
        .ok [ruledNode (storedNegation^[64] (storedLeaf "f"))
          (Condition.negate^[64] (leafOn "f"))] ∧
      RulesPass
        [ruledNode (storedNegation^[64] (storedLeaf "f")) (Condition.negate^[64] (leafOn "f"))] ∧
      (initialResult .empty (showRule (Condition.negate^[64] (leafOn "f")))).error =
        some "Condition nesting exceeds maximum depth of 64") := by
  constructor
  · refine ⟨read_ruledNode rfl, rulesPass_ruledNode (unsupportedOperators_leafOn " "), ?_⟩
    exact Evaluator.evaluateRule_error_iff.mpr ⟨rfl, .blankReference, rfl, rfl⟩
  · have hsupported : (Condition.negate^[64] (leafOn "f")).unsupportedOperators = [] := by
      rw [unsupportedOperators_negations, unsupportedOperators_leafOn]
    refine ⟨read_ruledNode (readEither_storedNegations rfl 64),
      rulesPass_ruledNode hsupported, ?_⟩
    refine Evaluator.evaluateRule_error_iff.mpr ⟨rfl, .tooDeep 64, ?_, rfl⟩
    exact evaluateAt_negations (by decide)

end Nodes

end FormRules
