import FormRules.Proofs.EvaluationFailures
import FormRules.Proofs.ReadConditions

/-!
# The meaning of a condition

A tree means the comparison at a leaf, and a group what its operator says of the
meanings of its children.  An evaluation that stops early still gives this
meaning: what it leaves out cannot change it.  So the only question is whether
it gives anything, and an evaluation fails for nothing but a cause in the tree.

Reading leaves no operator unknown that some spelling names.  The list of
unsupported operators may therefore be made by looking at each identifier alone.
-/

namespace FormRules

namespace Condition

/-! ## The plain meaning -/

mutual

/-- What a tree means for captured data. -/
def meaning (e : Evaluator) (data : FormData) : Condition → Bool
  | .leaf field operator value =>
    operator.known?.any fun op =>
      op.holds e.mode (data.resolve e.defaultModule (Reference.ofText field)) value
  | .group operator children =>
    match operator.known? with
    | some .conjunction => meaningOfAll e data children
    | some .disjunction => meaningOfSome e data children
    | some .negation => !meaningOfAll e data children
    | none => false

def meaningOfAll (e : Evaluator) (data : FormData) : List Condition → Bool
  | [] => true
  | c :: rest => c.meaning e data && meaningOfAll e data rest

def meaningOfSome (e : Evaluator) (data : FormData) : List Condition → Bool
  | [] => false
  | c :: rest => c.meaning e data || meaningOfSome e data rest

end

section Meaning

variable {e : Evaluator} {data : FormData}

theorem meaningOfAll_eq (children : List Condition) :
    meaningOfAll e data children = children.all (meaning e data) := by
  induction children with
  | nil => rfl
  | cons c rest ih => simp [meaningOfAll, ih]

theorem meaningOfSome_eq (children : List Condition) :
    meaningOfSome e data children = children.any (meaning e data) := by
  induction children with
  | nil => rfl
  | cons c rest ih => simp [meaningOfSome, ih]

/-- A leaf means its comparison with the value behind its reference, a group that
all, some or not all of its children hold. -/
structure IsPlain (e : Evaluator) (data : FormData) (m : Condition → Bool) : Prop where
  leaf : ∀ field op value, m (.leaf field (.known op) value) =
    op.holds e.mode (data.resolve e.defaultModule (Reference.ofText field)) value
  conjunction : ∀ children, m (.group (.known .conjunction) children) = children.all m
  disjunction : ∀ children, m (.group (.known .disjunction) children) = children.any m
  negation : ∀ children, m (.group (.known .negation) children) = !children.all m

/-- The meaning is the plain one, whatever number of children a group has. -/
theorem meaning_isPlain (e : Evaluator) (data : FormData) : IsPlain e data (meaning e data) := by
  constructor
  · exact fun field op value => rfl
  · exact meaningOfAll_eq
  · exact meaningOfSome_eq
  · intro children
    rw [← meaningOfAll_eq]
    rfl

end Meaning

/-! ## Conditions as read -/

/-- Every operator of the tree is known or is no spelling of a known one. -/
def Settled (c : Condition) : Prop :=
  ∀ d ∈ c.walk, match d with
    | .leaf _ operator _ => operator.Settled Comparator.ofName?
    | .group operator _ => operator.Settled Connective.ofName?

theorem settled_group {operator : OperatorId Connective} {children : List Condition}
    (hoperator : operator.Settled Connective.ofName?) (hchildren : ∀ c ∈ children, c.Settled) :
    (group operator children).Settled := by
  intro d hd
  rw [walk_eq_preorder, preorder] at hd
  rcases List.mem_cons.mp hd with heq | hd
  · subst heq
    exact hoperator
  · obtain ⟨c, hc, hdc⟩ := mem_preorderAll_iff.mp hd
    rw [← walk_eq_preorder] at hdc
    exact hchildren c hc d hdc

theorem Storable.settled {c : Condition} (h : c.Storable) : c.Settled := by
  induction h with
  | @leaf field operator value _ hoperator =>
      intro d hd
      have heq : d = .leaf field operator value := by
        simpa [walk_eq_preorder, preorder] using hd
      rw [heq]
      exact hoperator
  | group hoperator _ ih => exact settled_group hoperator ih

/-- A condition that was read holds no unknown operator whose name spells a
known one. -/
theorem readEither_settled {v : Value} {c : Condition} (h : readEither v = .ok c) :
    c.Settled :=
  (readEither_storable h).settled

/-! ## Trees without a fault -/

/-- Nothing in the tree can make an evaluation under the limit fail. -/
structure Faultless (limit : Int) (c : Condition) : Prop where
  supported : c.unsupportedOperators = []
  named : ∀ field ∈ c.references, Text.isBlank field = false
  within : c.depth ≤ limit

/-- A tree is without fault when each of its parts is, and it does not go too
deep. -/
theorem faultless_iff {limit : Int} {c : Condition} :
    c.Faultless limit ↔ c.preorder.filterMap unsupportedOperator? = [] ∧
      (∀ field ∈ c.preorder.filterMap field?, Text.isBlank field = false) ∧ c.depth ≤ limit := by
  have hfields : ∀ field, field ∈ c.references ↔ field ∈ c.preorder.filterMap field? := by
    intro field
    rw [mem_references_iff, List.mem_filterMap, walk_eq_preorder]
  rw [← walk_eq_preorder] at hfields ⊢
  constructor
  · intro h
    exact ⟨h.supported, fun field hfield => h.named field ((hfields field).mpr hfield), h.within⟩
  · intro h
    exact ⟨h.1, fun field hfield => h.2.1 field ((hfields field).mp hfield), h.2.2⟩

instance (limit : Int) (c : Condition) : Decidable (c.Faultless limit) :=
  decidable_of_iff _ faultless_iff.symm

end Condition

namespace Evaluator

open Condition

variable {e : Evaluator} {data : FormData}

/-! ## Evaluations that come to an end -/

theorem leafHolds_meaning {field : String} {operator : OperatorId Comparator} {value : Value}
    {b : Bool} (h : e.leafHolds data field operator value = .ok b) :
    (leaf field operator value).meaning e data = b := by
  unfold leafHolds at h
  rw [meaning]
  cases hknown : operator.known? with
  | none => simp [hknown] at h
  | some op =>
      cases hread : Reference.read? field with
      | none => simp [hknown, hread] at h
      | some reference =>
          have hreference : reference = Reference.ofText field := by
            unfold Reference.read? at hread
            split at hread
            · simp at hread
            · exact (Option.some.inj hread).symm
          subst hreference
          simpa [hknown, hread] using h

/-- A truth value that evaluation gives is the meaning of the tree, although it
stops at the first child that settles a group. -/
theorem evaluateAt_meaning (level : Nat) (c : Condition) {b : Bool}
    (h : e.evaluateAt data level c = .ok b) : c.meaning e data = b := by
  induction c using Condition.induction_children generalizing level b with
  | leaf field operator value =>
      by_cases hdeep : e.maxDepth < level
      · simp [evaluateAt_of_deep hdeep] at h
      · rw [evaluateAt_leaf hdeep] at h
        exact leafHolds_meaning h
  | group operator children ih =>
      by_cases hdeep : e.maxDepth < level
      · simp [evaluateAt_of_deep hdeep] at h
      · have hchildren : ∀ child ∈ children, ∀ b, e.evaluateAt data (level + 1) child = .ok b →
            child.meaning e data = b :=
          fun child hchild b hb => ih child hchild (level + 1) hb
        cases operator with
        | known op =>
            rw [evaluateAt_known hdeep] at h
            cases op with
            | conjunction =>
                exact (meaningOfAll_eq children).trans (Outcome.joint_true_eq_all hchildren h)
            | disjunction =>
                exact (meaningOfSome_eq children).trans (Outcome.joint_false_eq_any hchildren h)
            | negation =>
                cases hall : Outcome.joint true (children.map (e.evaluateAt data (level + 1))) with
                | error err => simp [Outcome.joined, hall, Except.map] at h
                | ok holds =>
                    have hb : (!holds) = b := by simpa [Outcome.joined, hall, Except.map] using h
                    rw [← hb, ← Outcome.joint_true_eq_all hchildren hall]
                    exact congrArg not (meaningOfAll_eq children)
        | named name =>
            rw [evaluateAt_unknown hdeep rfl] at h
            cases h
        | numbered n =>
            rw [evaluateAt_unknown hdeep rfl] at h
            cases h

/-- A tree without fault is always decided, whatever the data. -/
theorem evaluate_of_faultless {c : Condition} (h : c.Faultless e.maxDepth) (data : FormData) :
    e.evaluate data c = .ok (c.meaning e data) := by
  cases houtcome : e.evaluate data c with
  | ok b => rw [evaluateAt_meaning 1 c houtcome]
  | error err =>
      rcases evaluate_error_of_supported h.supported houtcome with
        ⟨-, hdeep⟩ | ⟨-, field, hfield, hblank⟩
      · exact absurd h.within (Int.not_le.mpr hdeep)
      · rw [h.named field hfield] at hblank
        cases hblank

/-! ## Every outcome -/

/-- What comes of evaluating a tree: its meaning, or a failure the tree bears out. -/
structure Decides (e : Evaluator) (data : FormData) (c : Condition) : Prop where
  plain : IsPlain e data (meaning e data)
  ok : ∀ b, e.evaluate data c = .ok b → b = c.meaning e data
  sound : c.unsupportedOperators = [] → (∀ field ∈ c.references, Text.isBlank field = false) →
    c.depth ≤ e.maxDepth → e.evaluate data c = .ok (c.meaning e data)
  tooDeep : ∀ limit, e.evaluate data c = .error (.tooDeep limit) →
    limit = e.maxDepth ∧ e.maxDepth < c.depth
  unsupportedComparator : ∀ name, e.evaluate data c = .error (.unsupportedComparator name) →
    name ∈ c.unsupportedOperators ∧ ∃ field operator value,
      .leaf field operator value ∈ c.walk ∧ name = operator.text Comparator.name ∧
        operator.known? = none ∧ operator.Settled Comparator.ofName?
  unsupportedConnective : ∀ name, e.evaluate data c = .error (.unsupportedConnective name) →
    name ∈ c.unsupportedOperators ∧ ∃ operator children,
      .group operator children ∈ c.walk ∧ name = operator.text Connective.name ∧
        operator.known? = none ∧ operator.Settled Connective.ofName?
  blankReference : e.evaluate data c = .error .blankReference →
    ∃ field operator value, .leaf field operator value ∈ c.walk ∧ Text.isBlank field = true
  nothingElse : ∀ typeName, e.evaluate data c ≠ .error (.notACondition typeName)

/-- Every tree that was read evaluates to what it means or to an error, each
error has its cause in the tree, and a tree without a cause for one is
decided. -/
theorem evaluate_decides {v : Value} {c : Condition} (hread : readEither v = .ok c)
    (e : Evaluator) (data : FormData) : e.Decides data c := by
  have hsettled := readEither_settled hread
  have hexplains : ∀ err, e.evaluate data c = .error err → e.Explains 1 c err :=
    fun err h => evaluateAt_explains 1 c h
  constructor
  · exact meaning_isPlain e data
  · exact fun b h => (evaluateAt_meaning 1 c h).symm
  · intro hsupported hfields hdepth
    cases houtcome : e.evaluate data c with
    | ok b => rw [evaluateAt_meaning 1 c houtcome]
    | error err =>
        have h := hexplains err houtcome
        cases err with
        | tooDeep limit =>
            obtain ⟨-, hdeep⟩ := h
            omega
        | unsupportedComparator name | unsupportedConnective name =>
            obtain ⟨d, hd, -, hrejected⟩ := h
            simp [unsupportedOperator?_eq_none hsupported hd] at hrejected
        | blankReference =>
            obtain ⟨field, hfield, hblank⟩ := h
            simp [hfields field hfield] at hblank
        | notACondition typeName => exact h.elim
  · intro limit h
    obtain ⟨hlimit, hdeep⟩ := hexplains _ h
    exact ⟨hlimit, by omega⟩
  · intro name h
    obtain ⟨d, hd, hleaf, hrejected⟩ := hexplains _ h
    refine ⟨mem_unsupportedOperators_iff.mpr ⟨d, hd, hrejected⟩, ?_⟩
    cases d with
    | leaf field operator value =>
        have hd' := hsettled _ hd
        simp only [unsupportedOperator?] at hrejected
        split at hrejected
        · simp at hrejected
        · exact ⟨field, operator, value, hd, (Option.some.inj hrejected).symm, by simp_all, hd'⟩
    | group operator children => simp [field?] at hleaf
  · intro name h
    obtain ⟨d, hd, hgroup, hrejected⟩ := hexplains _ h
    refine ⟨mem_unsupportedOperators_iff.mpr ⟨d, hd, hrejected⟩, ?_⟩
    cases d with
    | leaf field operator value => simp [field?] at hgroup
    | group operator children =>
        have hd' := hsettled _ hd
        simp only [unsupportedOperator?] at hrejected
        split at hrejected
        · simp at hrejected
        · exact ⟨operator, children, hd, (Option.some.inj hrejected).symm, by simp_all, hd'⟩
  · intro h
    obtain ⟨field, hfield, hblank⟩ := hexplains _ h
    obtain ⟨d, hd, hof⟩ := mem_references_iff.mp hfield
    cases d with
    | leaf own operator value =>
        have hown : own = field := Option.some.inj hof
        subst hown
        exact ⟨own, operator, value, hd, hblank⟩
    | group operator children => simp [field?] at hof
  · exact fun typeName h => hexplains _ h

/-- A group whose first child has a numbered operator and a blank field. -/
def storedMixed : Value :=
  .obj [("logical_op", .str "not"), ("children", .list [
    .obj [("field", .str " "), ("operator", .int 7)],
    .obj [("field", .str "f"), ("operator", .str "is_null")]])]

def mixed : Condition :=
  .group (.known .negation) [.leaf " " (.numbered 7) .null, .leaf "f" (.known .isNull) .null]

theorem readEither_storedMixed : readEither storedMixed = .ok mixed := by
  with_unfolding_all rfl

theorem evaluate_decides_mixed :
    readEither storedMixed = .ok mixed ∧
      Evaluator.evaluate ⟨.folded, 2, "current"⟩ .empty mixed =
        .error (.unsupportedComparator "7") ∧
      Evaluator.Decides ⟨.folded, 2, "current"⟩ .empty mixed :=
  ⟨readEither_storedMixed, rfl, evaluate_decides readEither_storedMixed _ _⟩

end Evaluator

end FormRules
