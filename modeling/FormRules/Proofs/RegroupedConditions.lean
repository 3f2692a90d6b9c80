import FormRules.Proofs.ReorderedConditions

/-!
# Negated and nested groups

The negation of a conjunction or disjunction and the other operator over the
negated children visit the same children in the same order, each at the same level.
The two stop at the same child, so they end in the same decision or in the same
failure, also where the limit on the depth is what stops them.

Where a group stands directly in another one of the same operator, the outer one can
take over its children.  They then stand one level higher, which makes no difference
to a tree within the limit: the level of a part is looked at only to compare it with
the limit.
-/

namespace FormRules

namespace Outcome

variable {goOn : Bool}

theorem joint_singleton (outcome : Outcome) : joint goOn [outcome] = outcome := by
  cases outcome with
  | error err => rfl
  | ok b =>
      simp only [joint]
      split
      · rename_i heq
        rw [heq]
      · rfl

/-- Negating all outcomes negates what they come to, with the other boolean to go on. -/
theorem joint_map_not (outcomes : List Outcome) :
    joint (!goOn) (outcomes.map (Except.map (!·))) = (joint goOn outcomes).map (!·) := by
  induction outcomes with
  | nil => rfl
  | cons outcome rest ih =>
      cases outcome with
      | error err => rfl
      | ok b =>
          simp only [List.map_cons, Except.map, joint, Bool.not_inj_iff] at ih ⊢
          split
          · exact ih
          · rfl

theorem joint_append (outcomes rest : List Outcome) :
    joint goOn (outcomes ++ rest) = joint goOn (joint goOn outcomes :: rest) := by
  induction outcomes with
  | nil => simp [joint]
  | cons outcome outcomes ih =>
      cases outcome with
      | error err => rfl
      | ok b =>
          by_cases hb : b = goOn
          · simp only [List.cons_append, joint, if_pos hb]
            exact ih
          · simp only [List.cons_append, joint, if_neg hb]

/-- An outcome in the middle may be replaced by those it is the outcome of. -/
theorem joint_splice (before inner after : List Outcome) :
    joint goOn (before ++ joint goOn inner :: after) =
      joint goOn (before ++ (inner ++ after)) := by
  rw [joint_append before, joint_append before (inner ++ after)]
  cases joint goOn before with
  | error err => rfl
  | ok b =>
      simp only [joint]
      split
      · exact (joint_append inner after).symm
      · rfl

theorem joint_error {err : EvaluationError} {outcomes : List Outcome}
    (h : ∀ outcome ∈ outcomes, outcome = .error err) (hne : outcomes ≠ []) :
    joint goOn outcomes = .error err := by
  cases outcomes with
  | nil => exact absurd rfl hne
  | cons outcome rest =>
      rw [h outcome List.mem_cons_self]
      rfl

end Outcome

namespace Condition

/-- One group of the tree takes over the children of a group in it of the same
operator, in their place. -/
inductive Flattens : Condition → Condition → Prop
  | conjunction (before children after : List Condition) :
      Flattens (.allOf (before ++ .allOf children :: after)) (.allOf (before ++ children ++ after))
  | disjunction (before children after : List Condition) :
      Flattens (.anyOf (before ++ .anyOf children :: after)) (.anyOf (before ++ children ++ after))
  | inside (operator : OperatorId Connective) (before after : List Condition) {c d : Condition}
      (h : Flattens c d) :
      Flattens (.group operator (before ++ c :: after)) (.group operator (before ++ d :: after))

end Condition

namespace Evaluator

open Condition Outcome

variable {e : Evaluator} {data : FormData}

/-! ## Negated groups -/

section Level

variable {level : Nat} (hlevel : ¬ e.maxDepth < level) (children : List Condition)

include hlevel

theorem evaluateAt_allOf : e.evaluateAt data level (.allOf children) =
    joint true (children.map (e.evaluateAt data (level + 1))) :=
  evaluateAt_known hlevel .conjunction children

theorem evaluateAt_anyOf : e.evaluateAt data level (.anyOf children) =
    joint false (children.map (e.evaluateAt data (level + 1))) :=
  evaluateAt_known hlevel .disjunction children

theorem evaluateAt_negate (c : Condition) :
    e.evaluateAt data level (.negate c) = (e.evaluateAt data (level + 1) c).map (!·) := by
  rw [negate, evaluateAt_known hlevel, List.map_singleton, joined, joint_singleton]

/-- At a level that is still evaluated, the negations of all children come to what
negating the children's common outcome gives. -/
theorem joint_map_negate {goOn : Bool} :
    joint (!goOn) ((children.map negate).map (e.evaluateAt data level)) =
      (joint goOn (children.map (e.evaluateAt data (level + 1)))).map (!·) := by
  rw [← joint_map_not, List.map_map, List.map_map]
  apply congrArg (joint (!goOn))
  exact List.map_congr_left fun c _ => evaluateAt_negate hlevel c

end Level

section DeMorgan

variable {children : List Condition} (hne : children ≠ [])

include hne

/-- Beyond the limit no negation is entered, and there is one to stop at. -/
theorem joint_negated_deep {level : Nat} (hdeep : e.maxDepth < level) (goOn : Bool) :
    joint goOn ((children.map negate).map (e.evaluateAt data level)) =
      .error (.tooDeep e.maxDepth) := by
  apply joint_error
  · intro outcome houtcome
    rcases List.mem_map.mp houtcome with ⟨c, -, heq⟩
    rw [← heq]
    exact evaluateAt_of_deep hdeep c
  · simpa using hne

/-- The negation of And is Or of the negations, errors and depth included. -/
theorem evaluate_negate_allOf :
    e.evaluate data (.negate (.allOf children)) =
      e.evaluate data (.anyOf (children.map negate)) := by
  unfold evaluate
  by_cases hroot : e.maxDepth < (1 : Nat)
  · rw [evaluateAt_of_deep hroot, evaluateAt_of_deep hroot]
  · rw [evaluateAt_negate hroot, evaluateAt_anyOf hroot]
    by_cases hdeep : e.maxDepth < (2 : Nat)
    · rw [joint_negated_deep hne hdeep, evaluateAt_of_deep hdeep]
      rfl
    · rw [evaluateAt_allOf hdeep]
      exact (joint_map_negate hdeep children).symm

/-- The negation of Or is And of the negations, errors and depth included. -/
theorem evaluate_negate_anyOf :
    e.evaluate data (.negate (.anyOf children)) =
      e.evaluate data (.allOf (children.map negate)) := by
  unfold evaluate
  by_cases hroot : e.maxDepth < (1 : Nat)
  · rw [evaluateAt_of_deep hroot, evaluateAt_of_deep hroot]
  · rw [evaluateAt_negate hroot, evaluateAt_allOf hroot]
    by_cases hdeep : e.maxDepth < (2 : Nat)
    · rw [joint_negated_deep hne hdeep, evaluateAt_of_deep hdeep]
      rfl
    · rw [evaluateAt_anyOf hdeep]
      exact (joint_map_negate hdeep children).symm

end DeMorgan

/-! ## Nested groups -/

/-- As long as a tree stays within the limit, it does not matter how deep it stands. -/
theorem evaluateAt_level_congr (c : Condition) {level level' : Nat}
    (hwithin : level + c.depth ≤ e.maxDepth + 1) (hwithin' : level' + c.depth ≤ e.maxDepth + 1) :
    e.evaluateAt data level c = e.evaluateAt data level' c := by
  have hpos := c.depth_pos
  have hlevel : ¬ e.maxDepth < level := by omega
  have hlevel' : ¬ e.maxDepth < level' := by omega
  induction c using Condition.induction_children generalizing level level' with
  | leaf field operator value => rw [evaluateAt_leaf hlevel, evaluateAt_leaf hlevel']
  | group operator children ih =>
      have hchildren : ∀ c ∈ children, e.evaluateAt data (level + 1) (id c) =
          e.evaluateAt data (level' + 1) c := by
        intro c hc
        have hdepth := depth_le_depthOfAll hc
        have hchild := c.depth_pos
        rw [depth] at hwithin hwithin'
        exact ih c hc (by omega) (by omega) hchild (by omega) (by omega)
      have hgroup := group_congr operator hlevel' hlevel hchildren
      rwa [List.map_id] at hgroup

/-- A group looks at nothing of its children but what they come to. -/
theorem evaluateAt_group_congr {level : Nat} (operator : OperatorId Connective)
    {children children' : List Condition}
    (h : children.map (e.evaluateAt data (level + 1)) =
      children'.map (e.evaluateAt data (level + 1))) :
    e.evaluateAt data level (.group operator children) =
      e.evaluateAt data level (.group operator children') := by
  by_cases hdeep : e.maxDepth < level
  · rw [evaluateAt_of_deep hdeep, evaluateAt_of_deep hdeep]
  · cases operator with
    | known op => rw [evaluateAt_known hdeep, evaluateAt_known hdeep, h]
    | named name => rw [evaluateAt_unknown hdeep rfl, evaluateAt_unknown hdeep rfl]
    | numbered n => rw [evaluateAt_unknown hdeep rfl, evaluateAt_unknown hdeep rfl]

section Flatten

variable {level : Nat} {goOn : Bool} {before children after : List Condition} {inner : Condition}

/-- A child that comes to the joint outcome of its own children gives way to them. -/
theorem joint_flatten
    (hinner : e.evaluateAt data (level + 1) inner =
      joint goOn (children.map (e.evaluateAt data (level + 2))))
    (hlevels : ∀ c ∈ children,
      e.evaluateAt data (level + 1) c = e.evaluateAt data (level + 2) c) :
    joint goOn ((before ++ inner :: after).map (e.evaluateAt data (level + 1))) =
      joint goOn ((before ++ children ++ after).map (e.evaluateAt data (level + 1))) := by
  have hchildren : children.map (e.evaluateAt data (level + 1)) =
      children.map (e.evaluateAt data (level + 2)) := List.map_congr_left hlevels
  rw [List.map_append, List.map_cons, hinner, joint_splice, ← hchildren, List.append_assoc,
    List.map_append, List.map_append]

/-- The parts of a group in a group are two levels down, and still within the limit. -/
theorem within_of_nested {outer operator : OperatorId Connective}
    (hwithin : level + (group outer (before ++ .group operator children :: after)).depth ≤
      e.maxDepth + 1) :
    ¬ e.maxDepth < level ∧ ¬ e.maxDepth < (level + 1 : Nat) ∧
      ∀ c ∈ children,
        e.evaluateAt data (level + 1) c = e.evaluateAt data (level + 2) c := by
  have hmem : .group operator children ∈ before ++ .group operator children :: after := by simp
  have hnested := depth_le_depthOfAll hmem
  rw [depth] at hwithin hnested
  refine ⟨by omega, by omega, fun c hc => ?_⟩
  have hdepth := depth_le_depthOfAll hc
  exact evaluateAt_level_congr c (by omega) (by omega)

/-- Flattening a group of the same operator within the depth changes no
outcome. -/
theorem evaluateAt_flattened {c d : Condition} (h : c.Flattens d)
    (hwithin : level + c.depth ≤ e.maxDepth + 1) :
    e.evaluateAt data level c = e.evaluateAt data level d := by
  induction h generalizing level with
  | conjunction before children after =>
      rcases within_of_nested hwithin with ⟨hlevel, hnext, hlevels⟩
      rw [evaluateAt_allOf hlevel, evaluateAt_allOf hlevel]
      exact joint_flatten (evaluateAt_allOf hnext children) hlevels
  | disjunction before children after =>
      rcases within_of_nested hwithin with ⟨hlevel, hnext, hlevels⟩
      rw [evaluateAt_anyOf hlevel, evaluateAt_anyOf hlevel]
      exact joint_flatten (evaluateAt_anyOf hnext children) hlevels
  | @inside operator before after c d _ ih =>
      have hmem : c ∈ before ++ c :: after := by simp
      have hdepth := depth_le_depthOfAll hmem
      rw [depth] at hwithin
      apply evaluateAt_group_congr
      rw [List.map_append, List.map_append, List.map_cons, List.map_cons, ih (by omega)]

end Flatten

/-- Negations may be moved into a group that is not empty, and groups taken apart where
they stand in groups of the same operator. -/
theorem evaluate_regrouped (e : Evaluator) (data : FormData) :
    (∀ children ≠ [],
      e.evaluate data (.negate (.allOf children)) =
          e.evaluate data (.anyOf (children.map negate)) ∧
        e.evaluate data (.negate (.anyOf children)) =
          e.evaluate data (.allOf (children.map negate))) ∧
      ∀ c d, c.Flattens d → c.depth ≤ e.maxDepth → e.evaluate data c = e.evaluate data d := by
  constructor
  · intro children hne
    exact ⟨evaluate_negate_allOf hne, evaluate_negate_anyOf hne⟩
  · intro c d hflat hdepth
    exact evaluateAt_flattened hflat (by omega)

/-- A disjunction in a negated one, with a part that cannot be evaluated. -/
def nestedDisjunction : Condition :=
  .group (.known .negation) [.anyOf [.leaf "f" (.known .isNotNull) .null,
    .anyOf [.leaf "g" (.named "near") .null, .leaf " " (.known .isNull) .null]]]

def flatDisjunction : Condition :=
  .group (.known .negation) [.anyOf [.leaf "f" (.known .isNotNull) .null,
    .leaf "g" (.named "near") .null, .leaf " " (.known .isNull) .null]]

theorem nestedDisjunction_flattens : nestedDisjunction.Flattens flatDisjunction :=
  .inside _ [] [] (.disjunction [_] [_, _] [])

/-- All forms meet the unknown operator before the blank reference. -/
theorem evaluate_regrouped_failing :
    let e : Evaluator := ⟨.folded, 4, "current"⟩
    let children : List Condition := [.leaf "f" (.known .isNotNull) .null,
      .leaf "g" (.named "near") .null, .leaf " " (.known .isNull) .null]
    e.evaluate .empty (.allOf (children.map negate)) = .error (.unsupportedComparator "near") ∧
      e.evaluate .empty (.negate (.anyOf children)) = .error (.unsupportedComparator "near") ∧
      nestedDisjunction.Flattens flatDisjunction ∧ nestedDisjunction.depth ≤ e.maxDepth ∧
      e.evaluate .empty nestedDisjunction = e.evaluate .empty flatDisjunction := by
  intro e children
  have hne : children ≠ [] := by simp [children]
  have hdepth : nestedDisjunction.depth ≤ e.maxDepth := by decide
  have hnegated : e.evaluate .empty (.allOf (children.map negate)) =
      .error (.unsupportedComparator "near") := rfl
  have hregrouped := evaluate_regrouped e .empty
  refine ⟨hnegated, ?_, nestedDisjunction_flattens, hdepth, ?_⟩
  · rw [(hregrouped.1 children hne).2, hnegated]
  · exact hregrouped.2 _ _ nestedDisjunction_flattens hdepth

end Evaluator

end FormRules
