import FormRules.Proofs.ConditionMeaning

/-!
# The order of children

An evaluation looks at the children of a group in order and stops early, so
another order can let it meet a fault or pass one by.  It cannot turn a decision
round: what a tree means does not depend on the order of children, in any of its
groups, and a decision is what the tree means.  A tree without a fault has none in
any order and is decided in all of them.
-/

namespace FormRules

namespace Condition

/-! ## Trees in another order -/

/-- The children of one group of the tree stand in another order. -/
inductive Reorders : Condition → Condition → Prop
  | children (operator : OperatorId Connective) {children children' : List Condition}
      (h : children.Perm children') :
      Reorders (.group operator children) (.group operator children')
  | inside (operator : OperatorId Connective) (before after : List Condition) {c d : Condition}
      (h : Reorders c d) :
      Reorders (.group operator (before ++ c :: after)) (.group operator (before ++ d :: after))

/-- The children of any groups of the tree stand in another order. -/
def Reordered : Condition → Condition → Prop := Relation.ReflTransGen Reorders

theorem Reordered.inside {c d : Condition} (h : c.Reordered d)
    (operator : OperatorId Connective) (before after : List Condition) :
    (group operator (before ++ c :: after)).Reordered (group operator (before ++ d :: after)) :=
  Relation.ReflTransGen.lift (fun child => group operator (before ++ child :: after))
    (fun _ _ hstep => Reorders.inside operator before after hstep) c d h

theorem reordered_of_forall₂ (operator : OperatorId Connective)
    {children children' : List Condition} (h : List.Forall₂ Reordered children children')
    (before : List Condition) :
    (group operator (before ++ children)).Reordered (group operator (before ++ children')) := by
  induction h generalizing before with
  | nil => exact .refl
  | @cons c d rest rest' hfirst _ ih =>
      have hrest := ih (before ++ [d])
      rw [List.append_assoc, List.append_assoc] at hrest
      exact (hfirst.inside operator before rest).trans hrest

/-- All children reordered, and then put in another order themselves. -/
theorem Reordered.group (operator : OperatorId Connective)
    {children children' children'' : List Condition}
    (h : List.Forall₂ Reordered children children') (hperm : children'.Perm children'') :
    (group operator children).Reordered (group operator children'') :=
  (reordered_of_forall₂ operator h []).tail (.children operator hperm)

/-! ## What the order leaves alone -/

theorem meaning_group_congr {e : Evaluator} {data : FormData}
    (operator : OperatorId Connective) {children children' : List Condition}
    (hall : meaningOfAll e data children = meaningOfAll e data children')
    (hsome : meaningOfSome e data children = meaningOfSome e data children') :
    (group operator children).meaning e data = (group operator children').meaning e data := by
  simp only [meaning, hall, hsome]

/-- The meaning of a tree does not depend on the order of children. -/
theorem Reorders.meaning_eq {c d : Condition} (h : c.Reorders d) (e : Evaluator)
    (data : FormData) : c.meaning e data = d.meaning e data := by
  induction h with
  | children operator hperm =>
      apply meaning_group_congr operator
      · rw [meaningOfAll_eq, meaningOfAll_eq, hperm.all_eq]
      · rw [meaningOfSome_eq, meaningOfSome_eq, hperm.any_eq]
  | inside operator before after _ ih =>
      apply meaning_group_congr operator
      · simp [meaningOfAll_eq, ih]
      · simp [meaningOfSome_eq, ih]

theorem depthOfAll_le_iff {children : List Condition} {n : Nat} :
    depthOfAll children ≤ n ↔ ∀ c ∈ children, c.depth ≤ n := by
  induction children with
  | nil => simp [depthOfAll]
  | cons c rest ih => simp [depthOfAll, ih]

theorem depth_group_congr (operator : OperatorId Connective) {children children' : List Condition}
    (h : ∀ n, (∀ c ∈ children, c.depth ≤ n) ↔ ∀ c ∈ children', c.depth ≤ n) :
    (group operator children).depth = (group operator children').depth := by
  rw [depth, depth]
  apply congrArg (· + 1)
  apply eq_of_forall_ge_iff
  intro n
  rw [depthOfAll_le_iff, depthOfAll_le_iff]
  exact h n

theorem Reorders.depth_eq {c d : Condition} (h : c.Reorders d) : c.depth = d.depth := by
  induction h with
  | children operator hperm =>
      apply depth_group_congr operator
      simp only [hperm.mem_iff, implies_true]
  | inside operator before after _ ih =>
      apply depth_group_congr operator
      simp [or_imp, forall_and, ih]

/-- Nothing is lost or gained of what is read off each condition of the tree without a
look at its children. -/
theorem Reorders.filterMap_walk_perm {α : Type} {f : Condition → Option α}
    (hf : ∀ operator children children',
      f (.group operator children) = f (.group operator children'))
    {c d : Condition} (h : c.Reorders d) :
    (c.walk.filterMap f).Perm (d.walk.filterMap f) := by
  rw [walk_eq_preorder, walk_eq_preorder]
  induction h with
  | @children operator children children' hperm =>
      rw [filterMap_preorder_group, filterMap_preorder_group, hf operator children children']
      exact (hperm.flatMap_right _).append_left _
  | inside operator before after _ ih =>
      rw [filterMap_preorder_group, filterMap_preorder_group, hf operator _ (before ++ _ :: after),
        List.flatMap_append, List.flatMap_append, List.flatMap_cons, List.flatMap_cons]
      exact ((ih.append_right _).append_left _).append_left _

theorem Reorders.unsupportedOperators_perm {c d : Condition} (h : c.Reorders d) :
    c.unsupportedOperators.Perm d.unsupportedOperators :=
  h.filterMap_walk_perm fun _ _ _ => rfl

theorem Reorders.mem_references_iff {c d : Condition} (h : c.Reorders d) {field : String} :
    field ∈ c.references ↔ field ∈ d.references := by
  unfold references
  rw [mem_distinct_iff, mem_distinct_iff]
  exact (h.filterMap_walk_perm fun _ _ _ => rfl).mem_iff

theorem Reorders.faultless {c d : Condition} (h : c.Reorders d) {limit : Int}
    (hc : c.Faultless limit) : d.Faultless limit where
  supported := by
    have hperm := h.unsupportedOperators_perm
    rw [hc.supported] at hperm
    exact hperm.nil_eq.symm
  named := fun field hfield => hc.named field (h.mem_references_iff.mpr hfield)
  within := h.depth_eq ▸ hc.within

namespace Reordered

variable {c d : Condition}

theorem meaning_eq (h : c.Reordered d) (e : Evaluator) (data : FormData) :
    c.meaning e data = d.meaning e data := by
  induction h with
  | refl => rfl
  | tail _ hstep ih => rw [ih, hstep.meaning_eq]

theorem faultless (h : c.Reordered d) {limit : Int} (hc : c.Faultless limit) :
    d.Faultless limit := by
  induction h with
  | refl => exact hc
  | tail _ hstep ih => exact hstep.faultless ih

end Reordered

end Condition

namespace Evaluator

open Condition

/-- Another order of children turns no decision round, and keeps that of a tree
without a fault. -/
theorem evaluate_reordered {c d : Condition} (h : c.Reordered d) (e : Evaluator)
    (data : FormData) :
    (∀ b b', e.evaluate data c = .ok b → e.evaluate data d = .ok b' → b = b') ∧
      (c.Faultless e.maxDepth →
        ∃ b, e.evaluate data c = .ok b ∧ e.evaluate data d = .ok b) := by
  have hmeaning := h.meaning_eq e data
  constructor
  · intro b b' hc hd
    rw [← evaluateAt_meaning 1 c hc, ← evaluateAt_meaning 1 d hd, hmeaning]
  · intro hfaultless
    refine ⟨c.meaning e data, evaluate_of_faultless hfaultless data, ?_⟩
    rw [hmeaning]
    exact evaluate_of_faultless (h.faultless hfaultless) data

def leafFirst : Condition :=
  .group (.known .negation) [.leaf "f" (.known .isNotNull) .null,
    .anyOf [.leaf "g" (.known .isNull) .null, .leaf "h" (.known .isNotNull) .null]]

/-- Both groups in another order. -/
def leafLast : Condition :=
  .group (.known .negation) [
    .anyOf [.leaf "h" (.known .isNotNull) .null, .leaf "g" (.known .isNull) .null],
    .leaf "f" (.known .isNotNull) .null]

theorem leafFirst_reordered : leafFirst.Reordered leafLast := by
  have hinner : Reordered
      (.anyOf [.leaf "g" (.known .isNull) .null, .leaf "h" (.known .isNotNull) .null])
      (.anyOf [.leaf "h" (.known .isNotNull) .null, .leaf "g" (.known .isNull) .null]) :=
    .single (.children _ (.swap _ _ []))
  exact Reordered.group _ (.cons .refl (.cons hinner .nil)) (.swap _ _ [])

theorem evaluate_reordered_nested :
    leafFirst.Reordered leafLast ∧ leafFirst.Faultless 3 ∧
      ∃ b, Evaluator.evaluate ⟨.folded, 3, "current"⟩ .empty leafFirst = .ok b ∧
        Evaluator.evaluate ⟨.folded, 3, "current"⟩ .empty leafLast = .ok b := by
  have hfaultless : leafFirst.Faultless 3 := by decide
  exact ⟨leafFirst_reordered, hfaultless,
    (evaluate_reordered leafFirst_reordered ⟨.folded, 3, "current"⟩ .empty).2 hfaultless⟩

end Evaluator

end FormRules
