import FormRules.Condition.Evaluation
import Mathlib.Data.List.Forall2
import Mathlib.Tactic

/-!
# The outcome of a group

A group looks at the outcomes of its children from left to right, goes on while
they are the one boolean and stops at the first that is not.  Conjunctions and
disjunctions differ in nothing but this boolean, so what is said about them is
said about lists of outcomes.

Two evaluations often run side by side: the same tree under another limit, or a
tree with other references.  What the children come to in the one they come to in
the other, and so does the group.  An outcome may have to be of a certain kind to
carry over; decisions must be of that kind, since a group passes over them.
-/

namespace FormRules

/-! ## Induction on trees -/

/-- Induction on a tree, with the property for every child of a group. -/
@[elab_as_elim]
theorem Condition.induction_children {motive : Condition → Prop}
    (leaf : ∀ field operator value, motive (.leaf field operator value))
    (group : ∀ operator children, (∀ child ∈ children, motive child) →
      motive (.group operator children)) (c : Condition) : motive c := by
  cases c with
  | leaf field operator value => exact leaf field operator value
  | group operator children =>
      apply group
      intro child hchild
      exact induction_children leaf group child
termination_by sizeOf c
decreasing_by
  have hlt := List.sizeOf_lt_of_mem hchild
  simp only [Condition.group.sizeOf_spec]
  omega

/-! ## Outcomes of groups -/

abbrev Outcome := Except EvaluationError Bool

namespace Outcome

/-- The first outcome that is not the given boolean, or that boolean. -/
def joint (goOn : Bool) : List Outcome → Outcome
  | [] => .ok goOn
  | .ok b :: rest => if b = goOn then joint goOn rest else .ok b
  | .error err :: _ => .error err

/-- The outcome of a group with a known operator. -/
def joined : Connective → List Outcome → Outcome
  | .conjunction, outcomes => joint true outcomes
  | .disjunction, outcomes => joint false outcomes
  | .negation, outcomes => (joint true outcomes).map (!·)

variable {goOn : Bool} {outcomes : List Outcome} {err : EvaluationError}

theorem error_mem_of_joint (h : joint goOn outcomes = .error err) : .error err ∈ outcomes := by
  induction outcomes with
  | nil => cases h
  | cons outcome rest ih =>
      cases outcome with
      | error cause =>
          cases h
          exact List.mem_cons_self
      | ok b =>
          simp only [joint] at h
          split at h
          · exact List.mem_cons_of_mem _ (ih h)
          · cases h

theorem error_mem_of_joined {op : Connective} (h : joined op outcomes = .error err) :
    .error err ∈ outcomes := by
  cases op with
  | conjunction => exact error_mem_of_joint h
  | disjunction => exact error_mem_of_joint h
  | negation =>
      have hjoint : joint true outcomes = .error err := by
        cases houtcome : joint true outcomes with
        | ok b => simp [joined, houtcome, Except.map] at h
        | error cause => simpa [joined, houtcome, Except.map] using h
      exact error_mem_of_joint hjoint

/-- Where the outcomes are those of a property, so is what a group decides by them. -/
theorem joint_eq_goOn_iff {α : Type} {outcome : α → Outcome} {holds : α → Bool} {xs : List α}
    {b : Bool} (hholds : ∀ x ∈ xs, ∀ b, outcome x = .ok b → holds x = b)
    (h : joint goOn (xs.map outcome) = .ok b) : b = goOn ↔ ∀ x ∈ xs, holds x = goOn := by
  induction xs with
  | nil =>
      cases h
      simp
  | cons x rest ih =>
      have hrest := ih fun y hy => hholds y (List.mem_cons_of_mem x hy)
      cases hx : outcome x with
      | error err => simp [hx, joint] at h
      | ok first =>
          have hfirst := hholds x List.mem_cons_self first hx
          rw [List.map_cons, hx, joint] at h
          split at h
          · rename_i hgoOn
            rw [hrest h, List.forall_mem_cons, hfirst]
            exact (and_iff_right hgoOn).symm
          · rename_i hstop
            cases h
            rw [List.forall_mem_cons, hfirst]
            exact ⟨fun h => absurd h hstop, fun h => absurd h.1 hstop⟩

theorem joint_true_eq_all {α : Type} {outcome : α → Outcome} {holds : α → Bool} {xs : List α}
    {b : Bool} (hholds : ∀ x ∈ xs, ∀ b, outcome x = .ok b → holds x = b)
    (h : joint true (xs.map outcome) = .ok b) : xs.all holds = b := by
  rw [Bool.eq_iff_iff, List.all_eq_true, joint_eq_goOn_iff hholds h]

theorem joint_false_eq_any {α : Type} {outcome : α → Outcome} {holds : α → Bool} {xs : List α}
    {b : Bool} (hholds : ∀ x ∈ xs, ∀ b, outcome x = .ok b → holds x = b)
    (h : joint false (xs.map outcome) = .ok b) : xs.any holds = b := by
  rw [← Bool.not_inj_iff, Bool.eq_iff_iff, Bool.not_eq_true', Bool.not_eq_true', List.any_eq_false,
    joint_eq_goOn_iff hholds h]
  simp only [Bool.not_eq_true]

end Outcome

namespace Evaluator

open Outcome

variable {e : Evaluator} {data : FormData} {level : Nat}

/-! ## The evaluation of a part -/

theorem evaluateAt_of_deep (h : e.maxDepth < level) (c : Condition) :
    e.evaluateAt data level c = .error (.tooDeep e.maxDepth) := by
  cases c <;> simp [evaluateAt, h]

theorem evaluateAt_leaf (hlevel : ¬ e.maxDepth < level) (field : String)
    (operator : OperatorId Comparator) (value : Value) :
    e.evaluateAt data level (.leaf field operator value) =
      e.leafHolds data field operator value := by
  rw [evaluateAt, if_neg hlevel]

theorem allHold_eq_joint (children : List Condition) :
    e.allHold data level children = joint true (children.map (e.evaluateAt data level)) := by
  induction children with
  | nil => rfl
  | cons c rest ih =>
      rw [allHold, List.map_cons, ih]
      cases e.evaluateAt data level c with
      | error err => rfl
      | ok b => cases b <;> rfl

theorem someHolds_eq_joint (children : List Condition) :
    e.someHolds data level children = joint false (children.map (e.evaluateAt data level)) := by
  induction children with
  | nil => rfl
  | cons c rest ih =>
      rw [someHolds, List.map_cons, ih]
      cases e.evaluateAt data level c with
      | error err => rfl
      | ok b => cases b <;> rfl

theorem evaluateAt_known (hlevel : ¬ e.maxDepth < level) (op : Connective)
    (children : List Condition) :
    e.evaluateAt data level (.group (.known op) children) =
      joined op (children.map (e.evaluateAt data (level + 1))) := by
  cases op with
  | conjunction => simp only [evaluateAt, if_neg hlevel, allHold_eq_joint, joined]
  | disjunction => simp only [evaluateAt, if_neg hlevel, someHolds_eq_joint, joined]
  | negation => simp only [evaluateAt, if_neg hlevel, allHold_eq_joint, joined]

theorem evaluateAt_unknown (hlevel : ¬ e.maxDepth < level) {operator : OperatorId Connective}
    (hunknown : operator.known? = none) (children : List Condition) :
    e.evaluateAt data level (.group operator children) =
      .error (.unsupportedConnective (operator.text Connective.name)) := by
  cases operator with
  | known op => exact absurd hunknown (Option.some_ne_none op)
  | named name => simp only [evaluateAt, if_neg hlevel]
  | numbered n => simp only [evaluateAt, if_neg hlevel]

end Evaluator

/-! ## Outcomes that carry over -/

namespace Outcome

/-- Where an outcome is of the given kind, the other one is the same. -/
def CarriesOver (kind : Outcome → Prop) (outcome outcome' : Outcome) : Prop :=
  kind outcome → outcome' = outcome

variable {kind : Outcome → Prop} (hkind : ∀ b, kind (.ok b)) {outcomes outcomes' : List Outcome}

include hkind

/-- What carries over from child to child carries over to the group, although
evaluation stops early. -/
theorem joint_carriesOver (goOn : Bool)
    (h : List.Forall₂ (CarriesOver kind) outcomes outcomes') :
    CarriesOver kind (joint goOn outcomes) (joint goOn outcomes') := by
  induction h with
  | nil => exact fun _ => rfl
  | @cons outcome outcome' rest rest' hfirst _ ih =>
      cases outcome with
      | error err =>
          intro herror
          rw [hfirst herror]
          rfl
      | ok b =>
          rw [hfirst (hkind b)]
          by_cases hb : b = goOn
          · simp only [joint, if_pos hb]
            exact ih
          · intro _
            simp only [joint, if_neg hb]

theorem joined_carriesOver (op : Connective)
    (h : List.Forall₂ (CarriesOver kind) outcomes outcomes') :
    CarriesOver kind (joined op outcomes) (joined op outcomes') := by
  cases op with
  | conjunction => exact joint_carriesOver hkind true h
  | disjunction => exact joint_carriesOver hkind false h
  | negation =>
      have hjoint := joint_carriesOver hkind true h
      intro hnot
      simp only [joined] at hnot ⊢
      cases houtcome : joint true outcomes with
      | ok b =>
          rw [houtcome] at hjoint
          rw [hjoint (hkind b)]
      | error err =>
          rw [houtcome] at hjoint hnot
          rw [hjoint hnot]

end Outcome

namespace Evaluator

open Outcome

theorem group_carriesOver {kind : Outcome → Prop} (hkind : ∀ b, kind (.ok b))
    {e e' : Evaluator} {data data' : FormData} {level level' : Nat} {f : Condition → Condition}
    {children : List Condition} (operator : OperatorId Connective)
    (hlevel : ¬ e.maxDepth < level) (hlevel' : ¬ e'.maxDepth < level')
    (h : ∀ c ∈ children, CarriesOver kind (e.evaluateAt data (level + 1) c)
      (e'.evaluateAt data' (level' + 1) (f c))) :
    CarriesOver kind (e.evaluateAt data level (.group operator children))
      (e'.evaluateAt data' level' (.group operator (children.map f))) := by
  have houtcomes : List.Forall₂ (CarriesOver kind) (children.map (e.evaluateAt data (level + 1)))
      ((children.map f).map (e'.evaluateAt data' (level' + 1))) := by
    rw [List.map_map, List.forall₂_map_left_iff, List.forall₂_map_right_iff, List.forall₂_same]
    exact h
  cases operator with
  | known op =>
      rw [evaluateAt_known hlevel, evaluateAt_known hlevel']
      exact joined_carriesOver hkind op houtcomes
  | named name =>
      intro _
      rw [evaluateAt_unknown hlevel rfl, evaluateAt_unknown hlevel' rfl]
  | numbered n =>
      intro _
      rw [evaluateAt_unknown hlevel rfl, evaluateAt_unknown hlevel' rfl]

/-- Children with the same outcomes make groups with the same outcome. -/
theorem group_congr {e e' : Evaluator} {data data' : FormData} {level level' : Nat}
    {f : Condition → Condition} {children : List Condition} (operator : OperatorId Connective)
    (hlevel : ¬ e.maxDepth < level) (hlevel' : ¬ e'.maxDepth < level')
    (h : ∀ c ∈ children, e'.evaluateAt data' (level' + 1) (f c) =
      e.evaluateAt data (level + 1) c) :
    e'.evaluateAt data' level' (.group operator (children.map f)) =
      e.evaluateAt data level (.group operator children) := by
  have hcarries : ∀ c ∈ children, CarriesOver (fun _ => True)
      (e.evaluateAt data (level + 1) c) (e'.evaluateAt data' (level' + 1) (f c)) :=
    fun c hc _ => h c hc
  exact group_carriesOver (fun _ => trivial) operator hlevel hlevel' hcarries trivial

end Evaluator

end FormRules
