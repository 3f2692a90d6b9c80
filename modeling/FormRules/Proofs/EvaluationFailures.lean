import FormRules.Condition.Walk
import FormRules.Proofs.ConditionTrees

/-!
# Why an evaluation fails

Whatever the data, an evaluation that fails has met one of four things in the
tree: a level below the deepest one allowed, a comparison or a logical operator
the library does not know, or a blank reference.  Each of them can be read off
the tree alone.
-/

namespace FormRules

namespace Condition

theorem walk_eq_preorder (c : Condition) : c.walk = c.preorder := by
  unfold walk
  rw [walkFrom_eq_preorderAll]
  simp [preorderAll]

theorem mem_walk_self (c : Condition) : c ∈ c.walk := by
  rw [walk_eq_preorder, preorder_eq]
  exact List.mem_cons_self ..

theorem mem_preorderAll_iff {d : Condition} {children : List Condition} :
    d ∈ preorderAll children ↔ ∃ c ∈ children, d ∈ c.preorder := by
  induction children with
  | nil => simp [preorderAll]
  | cons c rest ih => simp [preorderAll, ih]

theorem mem_walk_group {d child : Condition} {operator : OperatorId Connective}
    {children : List Condition} (hchild : child ∈ children) (h : d ∈ child.walk) :
    d ∈ (group operator children).walk := by
  rw [walk_eq_preorder] at h ⊢
  rw [preorder]
  exact List.mem_cons_of_mem _ (mem_preorderAll_iff.mpr ⟨child, hchild, h⟩)

theorem preorderAll_eq_flatMap (children : List Condition) :
    preorderAll children = children.flatMap preorder := by
  induction children with
  | nil => rfl
  | cons c rest ih => rw [preorderAll, List.flatMap_cons, ih]

theorem filterMap_preorder_group {α : Type} (f : Condition → Option α)
    (operator : OperatorId Connective) (children : List Condition) :
    (group operator children).preorder.filterMap f =
      (f (group operator children)).toList ++ children.flatMap fun c => c.preorder.filterMap f := by
  rw [preorder, preorderAll_eq_flatMap, List.filterMap_cons, List.filterMap_flatMap]
  cases f (group operator children) <;> rfl

theorem mem_references_iff {c : Condition} {field : String} :
    field ∈ c.references ↔ ∃ d ∈ c.walk, d.field? = some field := by
  unfold references
  rw [mem_distinct_iff, List.mem_filterMap]

theorem mem_unsupportedOperators_iff {c : Condition} {name : String} :
    name ∈ c.unsupportedOperators ↔ ∃ d ∈ c.walk, d.unsupportedOperator? = some name := by
  unfold unsupportedOperators
  rw [List.mem_filterMap]

/-- A tree without operators that evaluation rejects has none in any of its parts. -/
theorem unsupportedOperator?_eq_none {c d : Condition} (h : c.unsupportedOperators = [])
    (hd : d ∈ c.walk) : d.unsupportedOperator? = none := by
  unfold unsupportedOperators at h
  exact List.filterMap_eq_nil_iff.mp h d hd

end Condition

namespace Evaluator

open Condition

variable {e : Evaluator} {data : FormData} {level : Nat}

/-- A tree whose root stands at the given level bears a failure out. -/
def Explains (e : Evaluator) (level : Nat) (c : Condition) : EvaluationError → Prop
  | .tooDeep limit => limit = e.maxDepth ∧ e.maxDepth + 1 < level + c.depth
  | .unsupportedComparator name =>
    ∃ d ∈ c.walk, d.field?.isSome ∧ d.unsupportedOperator? = some name
  | .unsupportedConnective name =>
    ∃ d ∈ c.walk, d.field? = none ∧ d.unsupportedOperator? = some name
  | .blankReference => ∃ field ∈ c.references, Text.isBlank field = true
  | .notACondition _ => False

theorem Explains.group {child : Condition} {children : List Condition} {err : EvaluationError}
    (operator : OperatorId Connective) (hchild : child ∈ children)
    (h : e.Explains (level + 1) child err) : e.Explains level (.group operator children) err := by
  cases err with
  | tooDeep limit =>
      have hle := depth_le_depthOfAll hchild
      obtain ⟨hlimit, hdeep⟩ := h
      refine ⟨hlimit, ?_⟩
      rw [depth]
      omega
  | unsupportedComparator name | unsupportedConnective name =>
      obtain ⟨d, hd, hshape, hrejected⟩ := h
      exact ⟨d, mem_walk_group hchild hd, hshape, hrejected⟩
  | blankReference =>
      obtain ⟨field, hfield, hblank⟩ := h
      refine ⟨field, ?_, hblank⟩
      rw [mem_references_iff] at hfield ⊢
      obtain ⟨d, hd, hread⟩ := hfield
      exact ⟨d, mem_walk_group hchild hd, hread⟩
  | notACondition typeName => exact h

theorem explains_tooDeep {c : Condition} (h : e.maxDepth < level) :
    e.Explains level c (.tooDeep e.maxDepth) := by
  have hpos := depth_pos c
  refine ⟨rfl, ?_⟩
  omega

/-- A leaf fails for a blank reference or for an operator that is not known. -/
theorem leafHolds_explains {field : String} {operator : OperatorId Comparator} {value : Value}
    {err : EvaluationError} (h : e.leafHolds data field operator value = .error err) :
    e.Explains level (.leaf field operator value) err := by
  have hself := mem_walk_self (.leaf field operator value)
  unfold leafHolds at h
  cases hknown : operator.known? with
  | none =>
      rw [hknown] at h
      have herr := Except.error.inj h
      subst herr
      refine ⟨_, hself, rfl, ?_⟩
      simp [unsupportedOperator?, hknown]
  | some op =>
      cases hread : Reference.read? field with
      | none =>
          rw [hknown] at h
          simp only [hread] at h
          have herr := Except.error.inj h
          subst herr
          refine ⟨field, mem_references_iff.mpr ⟨_, hself, rfl⟩, ?_⟩
          exact Reference.read?_eq_none_iff.mp hread
      | some reference =>
          rw [hknown] at h
          simp [hread] at h

/-- A group without a known operator fails with the operator it has. -/
theorem explains_unsupportedConnective {operator : OperatorId Connective}
    {children : List Condition} (hknown : operator.known? = none) :
    e.Explains level (.group operator children)
      (.unsupportedConnective (operator.text Connective.name)) := by
  refine ⟨_, mem_walk_self _, rfl, ?_⟩
  simp [unsupportedOperator?, hknown]

/-- Whatever evaluation fails with, the tree bears it out. -/
theorem evaluateAt_explains (level : Nat) (c : Condition) {err : EvaluationError}
    (h : e.evaluateAt data level c = .error err) : e.Explains level c err := by
  induction c using Condition.induction_children generalizing level with
  | leaf field operator value =>
      by_cases hdeep : e.maxDepth < level
      · rw [evaluateAt_of_deep hdeep] at h
        cases h
        exact explains_tooDeep hdeep
      · rw [evaluateAt_leaf hdeep] at h
        exact leafHolds_explains h
  | group operator children ih =>
      by_cases hdeep : e.maxDepth < level
      · rw [evaluateAt_of_deep hdeep] at h
        cases h
        exact explains_tooDeep hdeep
      · cases operator with
        | known op =>
            rw [evaluateAt_known hdeep] at h
            obtain ⟨child, hchild, hfails⟩ := List.mem_map.mp (Outcome.error_mem_of_joined h)
            exact (ih child hchild (level + 1) hfails).group _ hchild
        | named name =>
            rw [evaluateAt_unknown hdeep rfl] at h
            cases h
            exact explains_unsupportedConnective rfl
        | numbered n =>
            rw [evaluateAt_unknown hdeep rfl] at h
            cases h
            exact explains_unsupportedConnective rfl

/-- Where every operator is known, only the depth and blank references are left
to fail for. -/
theorem evaluate_error_of_supported {c : Condition} {err : EvaluationError}
    (hsupported : c.unsupportedOperators = [])
    (h : e.evaluate data c = .error err) :
    err = .tooDeep e.maxDepth ∧ e.maxDepth < c.depth ∨
      err = .blankReference ∧ ∃ field ∈ c.references, Text.isBlank field = true := by
  have hexplains : e.Explains 1 c err := evaluateAt_explains 1 c h
  cases err with
  | tooDeep limit =>
      obtain ⟨hlimit, hdeep⟩ := hexplains
      subst hlimit
      exact .inl ⟨rfl, by omega⟩
  | blankReference => exact .inr ⟨rfl, hexplains⟩
  | unsupportedComparator name | unsupportedConnective name =>
      obtain ⟨d, hd, -, hrejected⟩ := hexplains
      simp [unsupportedOperator?_eq_none hsupported hd] at hrejected
  | notACondition typeName => exact hexplains.elim

end Evaluator

end FormRules
