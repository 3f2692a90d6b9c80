import FormRules.Proofs.EvaluationFailures

/-!
# Raising the depth limit

The limit on the depth of a condition is looked at whenever an evaluation enters a
part of the tree, and parts behind an early stop are never entered.  So a tree
that is nested too deeply may be evaluated all the same, and what it comes to is
then settled: under a higher limit the evaluation enters the same parts and ends
in the same decision or the same failure.  A tree within the limit is never
refused for its depth.
-/

namespace FormRules

/-- The outcome does not come from the depth limit. -/
def Outcome.WithinLimit (outcome : Outcome) : Prop :=
  ∀ limit, outcome ≠ .error (.tooDeep limit)

theorem Outcome.withinLimit_ok (b : Bool) : WithinLimit (.ok b) := by
  intro limit h
  cases h

namespace Evaluator

open Outcome

variable {e : Evaluator} {data : FormData}

def withLimit (e : Evaluator) (limit : Int) : Evaluator := { e with maxDepth := limit }

theorem carriesOver_of_deep {level : Nat} (hdeep : e.maxDepth < level) (c : Condition)
    (outcome : Outcome) : CarriesOver WithinLimit (e.evaluateAt data level c) outcome := by
  intro hwithin
  rw [evaluateAt_of_deep hdeep] at hwithin
  exact absurd rfl (hwithin e.maxDepth)

/-- At every level, an outcome that is within the limit is that of any higher
limit. -/
theorem evaluateAt_withLimit {limit : Int} (hlimit : e.maxDepth ≤ limit) (c : Condition)
    (level : Nat) :
    CarriesOver WithinLimit (e.evaluateAt data level c)
      ((e.withLimit limit).evaluateAt data level c) := by
  -- At a level beyond the lower limit nothing carries over; at any other both go on.
  induction c using Condition.induction_children generalizing level with
  | leaf field operator value =>
      by_cases hdeep : e.maxDepth < level
      · exact carriesOver_of_deep hdeep _ _
      · have hlevel : ¬ (e.withLimit limit).maxDepth < level :=
          fun h => hdeep (hlimit.trans_lt h)
        intro _
        rw [evaluateAt_leaf hdeep, evaluateAt_leaf hlevel]
        rfl
  | group operator children ih =>
      by_cases hdeep : e.maxDepth < level
      · exact carriesOver_of_deep hdeep _ _
      · have hlevel : ¬ (e.withLimit limit).maxDepth < level :=
          fun h => hdeep (hlimit.trans_lt h)
        have hgroup := group_carriesOver (f := id) withinLimit_ok operator hdeep hlevel
          fun child hchild => ih child hchild (level + 1)
        rwa [List.map_id] at hgroup

theorem lt_depth_of_tooDeep {c : Condition} {limit : Int}
    (h : e.evaluate data c = .error (.tooDeep limit)) :
    limit = e.maxDepth ∧ e.maxDepth < c.depth := by
  have hexplains : e.Explains 1 c (.tooDeep limit) := evaluateAt_explains 1 c h
  obtain ⟨hlimit, hdeep⟩ := hexplains
  exact ⟨hlimit, by omega⟩

/-- A higher limit only matters to evaluations that the lower one stopped, and it
stops none that the tree is not too deep for. -/
theorem evaluate_withLimit (e : Evaluator) (data : FormData) (c : Condition) {limit : Int}
    (hlimit : e.maxDepth ≤ limit) :
    ((∀ n, e.evaluate data c ≠ .error (.tooDeep n)) →
        (e.withLimit limit).evaluate data c = e.evaluate data c) ∧
      (∀ n, e.evaluate data c = .error (.tooDeep n) → n = e.maxDepth ∧ e.maxDepth < c.depth) ∧
        ∀ b, e.evaluate data c = .ok b → (e.withLimit limit).evaluate data c = .ok b := by
  have hsame : CarriesOver WithinLimit (e.evaluate data c)
      ((e.withLimit limit).evaluate data c) := evaluateAt_withLimit hlimit c 1
  refine ⟨hsame, fun n h => lt_depth_of_tooDeep h, ?_⟩
  intro b hdecided
  have hwithin := hdecided ▸ withinLimit_ok b
  rw [hsame hwithin, hdecided]

/-- A disjunction whose second part is nested four levels deep. -/
def eitherMissing : Condition :=
  .anyOf [.leaf "f" (.known .isNull) .null,
    .negate (.negate (.leaf "g" (.known .isNotNull) .null))]

/-- The deep part is not entered where the first one holds. -/
theorem evaluate_withLimit_shortCut :
    Evaluator.evaluate ⟨.folded, 2, "current"⟩ .empty eitherMissing = .ok true ∧
      eitherMissing.depth = 4 ∧ (2 : Int) ≤ 64 ∧
        Evaluator.evaluate ⟨.folded, 64, "current"⟩ .empty eitherMissing = .ok true := by
  have hdecided : Evaluator.evaluate ⟨.folded, 2, "current"⟩ .empty eitherMissing = .ok true := rfl
  refine ⟨hdecided, rfl, by decide, ?_⟩
  have hlimit : (2 : Int) ≤ 64 := by decide
  exact (evaluate_withLimit ⟨.folded, 2, "current"⟩ .empty eitherMissing hlimit).2.2 true hdecided

end Evaluator

end FormRules
