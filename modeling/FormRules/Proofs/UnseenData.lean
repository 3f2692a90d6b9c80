import FormRules.Proofs.ChangedData
import FormRules.Proofs.EvaluationFailures
import FormRules.Rule.Evaluation

/-!
# Data a condition does not read

An evaluation looks at captured data through the references of the tree and in
no other way.  Where two sets of data give each of these references the same
value, it ends in the same result or the same failure, and leaves the same
records, whatever the modules and the current module are.  So a rule cannot be
told apart by anything its condition does not name, and writing a field that
none of its references leads to changes nothing.
-/

namespace FormRules

namespace FormData

variable {data : FormData} {module field : String}

/-- A reference leads to a field of a module. -/
def LeadsTo (data : FormData) (defaultModule : String) (reference : Reference)
    (module field : String) : Prop :=
  (reference.module <|> data.effectiveModule? defaultModule) = some module ∧
    reference.field = field

theorem resolve_set_of_not_leadsTo {defaultModule : String} {reference : Reference}
    (value : Value) (h : ¬ data.LeadsTo defaultModule reference module field) :
    (data.set module field value).resolve defaultModule reference =
      data.resolve defaultModule reference := by
  have hcurrent : (data.set module field value).effectiveModule? defaultModule =
      data.effectiveModule? defaultModule := rfl
  unfold resolve FormData.value
  rw [hcurrent]
  cases hmodule : (reference.module <|> data.effectiveModule? defaultModule) with
  | none => rfl
  | some other =>
      have hne : other ≠ module ∨ reference.field ≠ field := by
        by_contra hsame
        rw [not_or, not_not, not_not] at hsame
        exact h ⟨by rw [hmodule, hsame.1], hsame.2⟩
      rw [Option.map_some, Option.map_some, valueAt_set_of_ne value hne]

end FormData

namespace Evaluator

open Condition

variable {e : Evaluator} {data data' : FormData}

/-- Two sets of data give every reference of a tree the same value; a blank one
is no reference. -/
def SeesSame (e : Evaluator) (data data' : FormData) (c : Condition) : Prop :=
  ∀ field ∈ c.references, ∀ reference, Reference.read? field = some reference →
    data.resolve e.defaultModule reference = data'.resolve e.defaultModule reference

theorem SeesSame.child {operator : OperatorId Connective} {children : List Condition}
    (h : e.SeesSame data data' (.group operator children)) {child : Condition}
    (hchild : child ∈ children) : e.SeesSame data data' child := by
  intro field hfield
  apply h field
  rw [mem_references_iff] at hfield ⊢
  rcases hfield with ⟨d, hd, hread⟩
  exact ⟨d, mem_walk_group hchild hd, hread⟩

theorem leafHolds_congr {field : String} {operator : OperatorId Comparator} {value : Value}
    (h : e.SeesSame data data' (.leaf field operator value)) :
    e.leafHolds data field operator value = e.leafHolds data' field operator value := by
  have hself := mem_walk_self (.leaf field operator value)
  unfold leafHolds
  cases operator.known? with
  | none => rfl
  | some op =>
      cases hread : Reference.read? field with
      | none => rfl
      | some reference =>
          have hsame := h field (mem_references_iff.mpr ⟨_, hself, rfl⟩) reference hread
          simp only [hsame]

/-- The data counts only through the values of the references, at any level of a
tree. -/
theorem evaluateAt_congr (level : Nat) (c : Condition) (h : e.SeesSame data data' c) :
    e.evaluateAt data level c = e.evaluateAt data' level c := by
  induction c using Condition.induction_children generalizing level with
  | leaf field operator value => rw [evaluateAt, evaluateAt, leafHolds_congr h]
  | group operator children ih =>
      by_cases hdeep : e.maxDepth < level
      · rw [evaluateAt_of_deep hdeep, evaluateAt_of_deep hdeep]
      · have hgroup := group_congr (f := id) operator hdeep hdeep fun child hchild =>
          ih child hchild (level + 1) (h.child hchild)
        rwa [List.map_id] at hgroup

-- By recursion on the tree, along the two functions that collect the records.
mutual

theorem wideNegationsAt_congr (level : Nat) : (c : Condition) → e.SeesSame data data' c →
    e.wideNegationsAt data level c = e.wideNegationsAt data' level c
  | .leaf _ _ _, _ => by rw [wideNegationsAt, wideNegationsAt]
  | .group operator children, h => by
      have hchildren : ∀ goOn, e.wideNegationsWhile data (level + 1) goOn children =
          e.wideNegationsWhile data' (level + 1) goOn children := fun goOn =>
        wideNegationsWhile_congr (level + 1) goOn children fun child hchild => h.child hchild
      cases operator with
      | known op =>
          cases op with
          | conjunction => rw [wideNegationsAt, wideNegationsAt, hchildren]
          | disjunction => rw [wideNegationsAt, wideNegationsAt, hchildren]
          | negation => rw [wideNegationsAt, wideNegationsAt, hchildren]
      | named name => simp only [wideNegationsAt]
      | numbered n => simp only [wideNegationsAt]

theorem wideNegationsWhile_congr (level : Nat) (goOn : Bool) : (children : List Condition) →
    (∀ child ∈ children, e.SeesSame data data' child) →
    e.wideNegationsWhile data level goOn children = e.wideNegationsWhile data' level goOn children
  | [], _ => by rw [wideNegationsWhile, wideNegationsWhile]
  | c :: rest, h => by
      have hc := h c List.mem_cons_self
      have hfirst := wideNegationsAt_congr level c hc
      have houtcome := evaluateAt_congr level c hc
      have hrest := wideNegationsWhile_congr level goOn rest fun d hd =>
        h d (List.mem_cons_of_mem c hd)
      rw [wideNegationsWhile, wideNegationsWhile, hfirst, houtcome, hrest]

end

/-! ## What cannot be told apart -/

/-- With either data a condition and every rule that has it come to the same. -/
structure Indistinct (e : Evaluator) (data data' : FormData) (c : Condition) : Prop where
  evaluate_eq : e.evaluate data c = e.evaluate data' c
  log_eq : e.log c data = e.log c data'
  result_eq : ∀ rule : Rule, rule.condition = c →
    e.judge.evaluateRule data rule = e.judge.evaluateRule data' rule
  ruleLog_eq : ∀ rule : Rule, rule.condition = c →
    e.judge.ruleLog data rule = e.judge.ruleLog data' rule

/-- Evaluation, its log and the results of rules are blind to whatever data no
reference of the condition leads to. -/
theorem evaluate_blindToUnseen {c : Condition} (h : e.SeesSame data data' c) :
    e.Indistinct data data' c := by
  have houtcome : e.evaluate data c = e.evaluate data' c := evaluateAt_congr 1 c h
  have hlog : e.log c data = e.log c data' := by
    unfold log
    rw [wideNegationsAt_congr 1 c h]
  have hverdict : e.judge.verdict c data = e.judge.verdict c data' := by
    change (e.evaluate data c).mapError _ = (e.evaluate data' c).mapError _
    rw [houtcome]
  constructor
  · exact houtcome
  · exact hlog
  · intro rule hrule
    unfold Judge.evaluateRule
    rw [hrule, hverdict]
  · intro rule hrule
    have hrecords : e.judge.log c data = e.judge.log c data' := hlog
    unfold Judge.ruleLog
    rw [hrule, hverdict, hrecords]

def noteMissing : Condition :=
  .allOf [.leaf "p.tags" (.known .isNotEmpty) .null, .leaf "p.note" (.known .isNull) .null,
    .leaf " " (.known .isNull) .null]

def capturedInPerson : FormData :=
  ⟨[("p", [("tags", .list [.bool true]), ("note", .null)])], .str "p"⟩

/-- Another current module, another module and no entry for what is null. -/
def capturedElsewhere : FormData :=
  ⟨[("q", [("note", .bool true)]), ("p", [("tags", .list [.bool true])])], .str "q"⟩

theorem evaluate_blindToUnseen_elsewhere :
    SeesSame ⟨.folded, 64, "current"⟩ capturedInPerson capturedElsewhere noteMissing ∧
      Evaluator.evaluate ⟨.folded, 64, "current"⟩ capturedInPerson noteMissing =
        .error .blankReference ∧
      Indistinct ⟨.folded, 64, "current"⟩ capturedInPerson capturedElsewhere noteMissing := by
  have hsame : SeesSame ⟨.folded, 64, "current"⟩ capturedInPerson capturedElsewhere
      noteMissing := by
    have hfields : noteMissing.references = ["p.tags", "p.note", " "] := by
      with_unfolding_all rfl
    intro field hfield reference hread
    rw [hfields] at hfield
    simp only [List.mem_cons, List.not_mem_nil, or_false] at hfield
    rcases hfield with heq | heq | heq
    · subst heq
      cases hread
      rfl
    · subst heq
      cases hread
      rfl
    · subst heq
      cases hread
  exact ⟨hsame, rfl, evaluate_blindToUnseen hsame⟩

/-! ## Fields no reference leads to -/

theorem seesSame_set {module field : String} {c : Condition} (value : Value)
    (hunread : ∀ name ∈ c.references, ∀ reference, Reference.read? name = some reference →
      ¬ data.LeadsTo e.defaultModule reference module field) :
    e.SeesSame (data.set module field value) data c := by
  intro name hname reference hread
  exact FormData.resolve_set_of_not_leadsTo value (hunread name hname reference hread)

/-- Writing a field that no reference of a tree leads to changes no outcome. -/
theorem evaluate_set_of_unread {module field : String} {c : Condition} (value : Value)
    (hunread : ∀ name ∈ c.references, ∀ reference, Reference.read? name = some reference →
      ¬ data.LeadsTo e.defaultModule reference module field) :
    e.evaluate (data.set module field value) c = e.evaluate data c :=
  evaluateAt_congr 1 c (seesSame_set value hunread)

end Evaluator

end FormRules
