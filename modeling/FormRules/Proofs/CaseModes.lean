import FormRules.Proofs.ConditionMeaning

/-!
# Comparing without regard to case

Folding works on each character alone, so it keeps prefixes, suffixes and parts of
a text, even where it makes the text longer.  Whether values are compared as
numbers does not depend on the mode.  So what is found with regard to case is found
without it, and only the operators that ask for a difference can lose by it.

In a tree a negation turns the direction round: what holds in one mode holds in
the other as long as every operator is on the right side of the negations above
it.
-/

namespace FormRules

namespace Text

/-! ## Folding keeps parts -/

theorem beginsWith_folded {hay needle : String} (h : beginsWith hay needle = true) :
    beginsWith (folded hay) (folded needle) = true := by
  unfold beginsWith at h ⊢
  rw [List.isPrefixOf_iff_prefix] at h ⊢
  rw [toList_folded, toList_folded]
  exact h.flatMap foldChar

theorem endsWith_folded {hay needle : String} (h : endsWith hay needle = true) :
    endsWith (folded hay) (folded needle) = true := by
  unfold endsWith at h ⊢
  rw [List.isSuffixOf_iff_suffix] at h ⊢
  rw [toList_folded, toList_folded]
  exact h.flatMap foldChar

theorem holds_folded {hay needle : String} (h : holds hay needle = true) :
    holds (folded hay) (folded needle) = true := by
  unfold holds at h ⊢
  rw [holdsChars_iff] at h ⊢
  rw [toList_folded, toList_folded]
  exact h.flatMap foldChar

end Text

namespace Value

variable {a b : Value}

/-! ## What folding keeps of a comparison -/

theorem comparedText_folded (v : Value) :
    v.comparedText .folded = Text.folded (v.comparedText .exact) := rfl

theorem textsSatisfy_folded {r : String → String → Bool}
    (hr : ∀ {s t}, r s t = true → r (Text.folded s) (Text.folded t) = true)
    (h : textsSatisfy r .exact a b = true) : textsSatisfy r .folded a b = true := by
  unfold textsSatisfy at h ⊢
  split at h
  · cases h
  · rw [if_neg ‹_›, comparedText_folded, comparedText_folded]
    exact hr h

theorem equals_folded (h : a.equals .exact b = true) : a.equals .folded b = true := by
  have htexts : (a.comparedText .exact == b.comparedText .exact) = true →
      (a.comparedText .folded == b.comparedText .folded) = true := by
    intro heq
    rw [comparedText_folded, comparedText_folded, eq_of_beq heq]
    exact beq_self_eq_true _
  unfold equals at h ⊢
  split at h
  · rw [if_pos ‹_›]
    exact h
  · rw [if_neg ‹_›]
    cases hx : a.number? with
    | none =>
        rw [hx] at h
        exact htexts h
    | some x =>
        cases hy : b.number? with
        | none =>
            rw [hx, hy] at h
            exact htexts h
        | some y =>
            rw [hx, hy] at h
            exact h

theorem any_equals_folded {items : List Value} {f g : Value → Value}
    (h : (items.any fun item => (f item).equals .exact (g item)) = true) :
    (items.any fun item => (f item).equals .folded (g item)) = true := by
  rw [List.any_eq_true] at h ⊢
  obtain ⟨item, hitem, hequal⟩ := h
  exact ⟨item, hitem, equals_folded hequal⟩

theorem memberOf_folded (h : a.memberOf .exact b = true) : a.memberOf .folded b = true := by
  cases b with
  | list items =>
      simp only [memberOf, Bool.and_eq_true] at h ⊢
      exact ⟨h.1, any_equals_folded h.2⟩
  | _ => cases h

theorem holds_folded (h : a.holds .exact b = true) : a.holds .folded b = true := by
  cases a with
  | list items =>
      simp only [holds, Bool.and_eq_true] at h ⊢
      exact ⟨h.1, any_equals_folded h.2⟩
  | _ => exact textsSatisfy_folded Text.holds_folded h

end Value

namespace CaseMode

def other : CaseMode → CaseMode
  | .exact => .folded
  | .folded => .exact

@[simp] theorem other_other (mode : CaseMode) : mode.other.other = mode := by
  cases mode <;> rfl

end CaseMode

namespace Comparator

/-! ## Operators in both modes -/

/-- The operators that look for a text or a value. -/
def matching : List Comparator := [equals, contains, startsWith, endsWith, isIn]

/-- The operators that hold where something is not found. -/
def mismatching : List Comparator := [notEquals, notContains, isNotIn]

variable {op : Comparator} {mode : CaseMode} {a b : Value}

/-- An operator that looks for a match finds without case whatever it finds with
it. -/
theorem holds_folded_of_exact (hop : op ∈ matching) (h : op.holds .exact a b = true) :
    op.holds .folded a b = true := by
  simp only [matching, List.mem_cons, List.not_mem_nil, or_false] at hop
  rcases hop with heq | heq | heq | heq | heq
  · subst heq
    exact Value.equals_folded h
  · subst heq
    exact Value.holds_folded h
  · subst heq
    exact Value.textsSatisfy_folded Text.beginsWith_folded h
  · subst heq
    exact Value.textsSatisfy_folded Text.endsWith_folded h
  · subst heq
    exact Value.memberOf_folded h

theorem not_of_imp {x y : Bool} (h : x = true → y = true) (hy : (!y) = true) : (!x) = true := by
  cases x with
  | false => rfl
  | true => rwa [h rfl] at hy

/-- An operator that looks for a difference finds with case whatever it finds
without it. -/
theorem holds_exact_of_folded (hop : op ∈ mismatching) (h : op.holds .folded a b = true) :
    op.holds .exact a b = true := by
  simp only [mismatching, List.mem_cons, List.not_mem_nil, or_false] at hop
  rcases hop with heq | heq | heq
  · subst heq
    exact not_of_imp Value.equals_folded h
  · subst heq
    exact not_of_imp Value.holds_folded h
  · subst heq
    exact not_of_imp Value.memberOf_folded h

/-- The orderings and the tests for missing and empty values know no case. -/
theorem holds_folded_eq_exact (hmatching : op ∉ matching) (hmismatching : op ∉ mismatching)
    (a b : Value) : op.holds .folded a b = op.holds .exact a b := by
  cases op with
  | equals | contains | startsWith | endsWith | isIn => exact absurd (by decide) hmatching
  | notEquals | notContains | isNotIn => exact absurd (by decide) hmismatching
  | greaterThan | greaterThanOrEqual | lessThan | lessThanOrEqual => rfl
  | isNull | isNotNull | isEmpty | isNotEmpty => rfl

/-- What the operator finds to hold in the mode holds in the other one too. -/
def Keeps (op : Comparator) : CaseMode → Prop
  | .exact => op ∉ mismatching
  | .folded => op ∉ matching

theorem Keeps.holds (h : op.Keeps mode) (hholds : op.holds mode a b = true) :
    op.holds mode.other a b = true := by
  cases mode with
  | exact =>
      by_cases hop : op ∈ matching
      · exact holds_folded_of_exact hop hholds
      · exact (holds_folded_eq_exact hop h a b).trans hholds
  | folded =>
      by_cases hop : op ∈ mismatching
      · exact holds_exact_of_folded hop hholds
      · exact (holds_folded_eq_exact h hop a b).symm.trans hholds

end Comparator

namespace Evaluator

def inMode (e : Evaluator) (mode : CaseMode) : Evaluator := { e with mode := mode }

end Evaluator

namespace Condition

/-! ## Trees in both modes -/

/-- What a tree means in the mode it means in the other one too, by the operators of
its leaves and the negations above them. -/
inductive Keeps : CaseMode → Condition → Prop
  | leaf {mode : CaseMode} {field : String} {operator : OperatorId Comparator} {value : Value}
      (h : ∀ op, operator = .known op → op.Keeps mode) :
      Keeps mode (.leaf field operator value)
  | negation {mode : CaseMode} {children : List Condition}
      (h : ∀ c ∈ children, Keeps mode.other c) :
      Keeps mode (.group (.known .negation) children)
  | group {mode : CaseMode} {operator : OperatorId Connective} {children : List Condition}
      (hoperator : operator ≠ .known .negation) (h : ∀ c ∈ children, Keeps mode c) :
      Keeps mode (.group operator children)

/-- A tree that keeps what it means is fulfilled in the other mode where it is in
this one. -/
theorem Keeps.meaning {mode : CaseMode} {c : Condition} (h : c.Keeps mode) (e : Evaluator)
    (data : FormData) (hmeans : c.meaning (e.inMode mode) data = true) :
    c.meaning (e.inMode mode.other) data = true := by
  induction h with
  | @leaf mode field operator value hkeeps =>
      cases operator with
      | known op => exact (hkeeps op rfl).holds hmeans
      | named name => cases hmeans
      | numbered n => cases hmeans
  | @negation mode children _ ih =>
      -- The children are compared the other way, from the other mode back to this one.
      have hall : meaningOfAll (e.inMode mode.other) data children = true →
          meaningOfAll (e.inMode mode) data children = true := by
        rw [meaningOfAll_eq, meaningOfAll_eq, List.all_eq_true, List.all_eq_true]
        intro hother c hc
        have hback := ih c hc (hother c hc)
        rwa [CaseMode.other_other] at hback
      exact Comparator.not_of_imp hall hmeans
  | @group mode operator children hoperator _ ih =>
      cases operator with
      | known op =>
          cases op with
          | conjunction =>
              change meaningOfAll _ data children = true at hmeans ⊢
              rw [meaningOfAll_eq, List.all_eq_true] at hmeans ⊢
              exact fun c hc => ih c hc (hmeans c hc)
          | disjunction =>
              change meaningOfSome _ data children = true at hmeans ⊢
              rw [meaningOfSome_eq, List.any_eq_true] at hmeans ⊢
              obtain ⟨c, hc, hholds⟩ := hmeans
              exact ⟨c, hc, ih c hc hholds⟩
          | negation => exact absurd rfl hoperator
      | named name => cases hmeans
      | numbered n => cases hmeans

/-- The root of the tree is no negation and asks for no difference. -/
def AffirmativeRoot : Condition → Prop
  | .leaf _ operator _ => ∀ op ∈ Comparator.mismatching, operator ≠ .known op
  | .group operator _ => operator ≠ .known .negation

instance : DecidablePred AffirmativeRoot
  | .leaf _ operator _ =>
    inferInstanceAs (Decidable (∀ op ∈ Comparator.mismatching, operator ≠ .known op))
  | .group operator _ => inferInstanceAs (Decidable (operator ≠ .known .negation))

/-- No group of the tree is a negation and no leaf asks for a difference. -/
def Affirmative (c : Condition) : Prop := ∀ d ∈ c.walk, d.AffirmativeRoot

instance (c : Condition) : Decidable c.Affirmative :=
  decidable_of_iff (∀ d ∈ c.preorder, d.AffirmativeRoot) (by rw [Affirmative, walk_eq_preorder])

theorem Affirmative.child {operator : OperatorId Connective} {children : List Condition}
    (h : (group operator children).Affirmative) {child : Condition} (hchild : child ∈ children) :
    child.Affirmative :=
  fun d hd => h d (mem_walk_group hchild hd)

theorem Affirmative.keeps {c : Condition} (h : c.Affirmative) : c.Keeps .exact := by
  induction c using Condition.induction_children with
  | leaf field operator value =>
      have hself := h _ (mem_walk_self _)
      refine .leaf fun op hop hmismatching => ?_
      exact hself op hmismatching hop
  | group operator children ih =>
      have hself := h _ (mem_walk_self _)
      exact .group hself fun child hchild => ih child hchild (h.child hchild)

end Condition

namespace Evaluator

open Condition

theorem evaluate_other {e : Evaluator} {data : FormData} {c : Condition} {mode : CaseMode}
    (hkeeps : c.Keeps mode) (hfaultless : c.Faultless e.maxDepth)
    (h : (e.inMode mode).evaluate data c = .ok true) :
    (e.inMode mode.other).evaluate data c = .ok true := by
  have hmeans : c.meaning (e.inMode mode) data = true := evaluateAt_meaning 1 c h
  have hother : c.Faultless (e.inMode mode.other).maxDepth := hfaultless
  rw [evaluate_of_faultless hother, hkeeps.meaning e data hmeans]

/-- Leaving case out of account loses no match. -/
structure FoldingKeepsMatches : Prop where
  matching : ∀ op ∈ Comparator.matching, ∀ a b,
    op.holds .exact a b = true → op.holds .folded a b = true
  mismatching : ∀ op ∈ Comparator.mismatching, ∀ a b,
    op.holds .folded a b = true → op.holds .exact a b = true
  affirmative : ∀ (e : Evaluator) (data : FormData) (c : Condition), c.Affirmative →
    c.Faultless e.maxDepth → (e.inMode .exact).evaluate data c = .ok true →
      (e.inMode .folded).evaluate data c = .ok true

/-- Leaving case out of account loses no match, of an operator or of a tree
without negations and operators that look for a difference. -/
theorem folding_keepsMatches : FoldingKeepsMatches where
  matching := fun _ hop _ _ h => Comparator.holds_folded_of_exact hop h
  mismatching := fun _ hop _ _ h => Comparator.holds_exact_of_folded hop h
  affirmative := fun _ _ _ haffirmative hfaultless h =>
    evaluate_other haffirmative.keeps hfaultless h

def streetOrTag : Condition :=
  .allOf [.leaf "street" (.known .startsWith) (.str "Groß"),
    .anyOf [.leaf "tags" (.known .contains) (.str "1e400"),
      .leaf "note" (.known .isNotNull) .null]]

def capturedStreet : FormData :=
  ⟨[("p", [("street", .str "Große Gasse"), ("tags", .list [.null, .str "1E400"]),
    ("note", .int 0)])], .str "p"⟩

/-- Folding makes the texts of the first leaf longer. -/
theorem folding_keepsMatches_street :
    Text.folded "Groß" = "gross" ∧
      Comparator.startsWith.holds .folded (.str "Große Gasse") (.str "Groß") = true ∧
        streetOrTag.Affirmative ∧ streetOrTag.Faultless 3 ∧
          Evaluator.evaluate ⟨.exact, 3, "p"⟩ capturedStreet streetOrTag = .ok true ∧
            Evaluator.evaluate ⟨.folded, 3, "p"⟩ capturedStreet streetOrTag = .ok true := by
  have hfound : Comparator.startsWith.holds .exact (.str "Große Gasse") (.str "Groß") = true := by
    decide +kernel
  have haffirmative : streetOrTag.Affirmative := by decide
  have hfaultless : streetOrTag.Faultless 3 := by decide
  have hexact : Evaluator.evaluate ⟨.exact, 3, "p"⟩ capturedStreet streetOrTag = .ok true := by
    with_unfolding_all rfl
  refine ⟨by decide +kernel, ?_, haffirmative, hfaultless, hexact, ?_⟩
  · exact folding_keepsMatches.matching .startsWith (by decide) _ _ hfound
  · exact folding_keepsMatches.affirmative ⟨.exact, 3, "p"⟩ capturedStreet streetOrTag
      haffirmative hfaultless hexact

end Evaluator

end FormRules
