import FormRules.Proofs.StableSort
import FormRules.Rule.Evaluation
import FormRules.Settings.Basic

/-!
# The results of a list of rules

Evaluating a list of rules gives one result for each occurrence of a rule that
triggers, by priority and then by position, and, if asked for, one for each
occurrence of a rule that fails, by position.  Each result depends on its rule
alone.  So rules that do not trigger can stand anywhere without any effect on
those that do, the results of two lists merge by priority, and choosing rules by
what they are aimed at may be done before or after they are evaluated.
-/

namespace FormRules

/-! ## Results by position -/

section Lists

variable {α β : Type} {f : α → Option β} {xs : List α}

/-- The results of the elements that have one, each occurrence once, their
positions in the given order. -/
def Lists (xs : List α) (f : α → Option β) (order : Nat → Nat → Prop) (results : List β) :
    Prop :=
  ∃ positions : List Nat, positions.Pairwise order ∧
    (∀ i, i ∈ positions ↔ (xs[i]?.bind f).isSome) ∧
    results.map some = positions.map fun i => xs[i]?.bind f

/-- The results of the elements that have one, with their positions. -/
def located (xs : List α) (f : α → Option β) : List (β × Nat) :=
  xs.zipIdx.filterMap fun e => (f e.1).map fun b => (b, e.2)

theorem map_fst_located : (located xs f).map Prod.fst = xs.filterMap f := by
  have hfirst : ∀ e : α × Nat, ((f e.1).map fun b => (b, e.2)).map Prod.fst = f e.1 := by
    intro e
    cases f e.1 <;> rfl
  calc (located xs f).map Prod.fst = xs.zipIdx.filterMap (f ∘ Prod.fst) := by
        rw [located, List.map_filterMap]
        simp only [hfirst]
        rfl
    _ = (xs.zipIdx.map Prod.fst).filterMap f := List.filterMap_map.symm
    _ = xs.filterMap f := by rw [List.zipIdx_map_fst]

theorem mem_located_iff {b : β} {i : Nat} :
    (b, i) ∈ located xs f ↔ xs[i]?.bind f = some b := by
  simp only [located, List.mem_filterMap, Option.map_eq_some_iff, Option.bind_eq_some_iff,
    Prod.mk.injEq, Prod.exists, List.mem_zipIdx_iff_getElem?]
  constructor
  · rintro ⟨a, j, ha, c, hc, rfl, rfl⟩
    exact ⟨a, ha, hc⟩
  · rintro ⟨a, ha, hb⟩
    exact ⟨a, i, ha, b, hb, rfl, rfl⟩

theorem pairwise_located (xs : List α) (f : α → Option β) :
    (located xs f).Pairwise fun a b => a.2 < b.2 := by
  have hzip : xs.zipIdx.Pairwise fun a b => a.2 < b.2 := by
    have h : (xs.zipIdx.map Prod.snd).Pairwise (· < ·) := by
      rw [List.zipIdx_map_snd]
      exact List.pairwise_lt_range'
    exact List.pairwise_map.mp h
  refine hzip.filterMap _ fun a b hab c hc d hd => ?_
  simp only [Option.map_eq_some_iff] at hc hd
  obtain ⟨_, -, rfl⟩ := hc
  obtain ⟨_, -, rfl⟩ := hd
  exact hab

/-- Results with positions, in any order, list the elements they come from. -/
theorem lists_of_perm {order : Nat → Nat → Prop} {ys : List (β × Nat)}
    (hperm : ys.Perm (located xs f)) (horder : ys.Pairwise fun a b => order a.2 b.2) :
    Lists xs f order (ys.map Prod.fst) := by
  have hmem : ∀ b i, (b, i) ∈ ys ↔ xs[i]?.bind f = some b := by
    intro b i
    rw [hperm.mem_iff, mem_located_iff]
  refine ⟨ys.map Prod.snd, List.pairwise_map.mpr horder, fun i => ?_, ?_⟩
  · simp [Option.isSome_iff_exists, hmem]
  · rw [List.map_map, List.map_map]
    refine List.map_congr_left fun e he => ?_
    exact ((hmem e.1 e.2).mp he).symm

theorem lists_filterMap (xs : List α) (f : α → Option β) :
    Lists xs f (· < ·) (xs.filterMap f) := by
  rw [← map_fst_located]
  exact lists_of_perm (List.Perm.refl _) (pairwise_located xs f)

/-- Sorting results by a key lists them by key and, where keys are equal, by
position. -/
theorem lists_mergeSort (xs : List α) (f : α → Option β) (key : β → Int) :
    Lists xs f
      (fun i j => ∃ a b, xs[i]?.bind f = some a ∧ xs[j]?.bind f = some b ∧
        (key a < key b ∨ key a = key b ∧ i < j))
      ((xs.filterMap f).mergeSort (byKey key)) := by
  have hsorted := pairwise_mergeSort_byKey (fun e : β × Nat => key e.1) (pairwise_located xs f)
  have hfirst : ((located xs f).mergeSort (byKey fun e => key e.1)).map Prod.fst =
      (xs.filterMap f).mergeSort (byKey key) := by
    rw [← map_fst_located]
    exact List.map_mergeSort fun a _ b _ => rfl
  rw [← hfirst]
  refine lists_of_perm (List.mergeSort_perm _ _) ?_
  refine hsorted.imp_of_mem fun {a b} ha hb hab => ?_
  rw [List.mem_mergeSort] at ha hb
  exact ⟨a.1, b.1, mem_located_iff.mp ha, mem_located_iff.mp hb, hab⟩

theorem Lists.mono {order order' : Nat → Nat → Prop} {results : List β}
    (himp : ∀ i j, order i j → order' i j) (h : Lists xs f order results) :
    Lists xs f order' results := by
  obtain ⟨positions, horder, hmem, hresults⟩ := h
  exact ⟨positions, horder.imp fun {i j} => himp i j, hmem, hresults⟩

end Lists

/-! ## Rules that trigger and rules that fail -/

namespace Judge

variable {judge : Judge} {data : FormData} {rules : List Rule}

/-- The result of a rule that is active and whose condition holds. -/
def triggeredResult? (judge : Judge) (data : FormData) (rule : Rule) : Option RuleResult :=
  match rule.isActive, judge.verdict rule.condition data with
  | true, .ok true => some ⟨rule, true, none⟩
  | _, _ => none

/-- The result of a rule that is active and whose condition fails. -/
def failedResult? (judge : Judge) (data : FormData) (rule : Rule) : Option RuleResult :=
  match rule.isActive, judge.verdict rule.condition data with
  | true, .error failure => some ⟨rule, false, some failure.text⟩
  | _, _ => none

theorem triggeredResult?_eq (rule : Rule) :
    judge.triggeredResult? data rule =
      Option.guard (·.triggered) (judge.evaluateRule data rule) := by
  unfold triggeredResult? evaluateRule
  cases rule.isActive with
  | false => rfl
  | true =>
      cases judge.verdict rule.condition data with
      | error failure => rfl
      | ok holds => cases holds <;> rfl

theorem failedResult?_eq (rule : Rule) :
    judge.failedResult? data rule =
      Option.guard (·.hasError) (judge.evaluateRule data rule) := by
  unfold failedResult? evaluateRule
  cases rule.isActive with
  | false => rfl
  | true => cases judge.verdict rule.condition data <;> rfl

theorem triggered_eq :
    judge.triggered data rules = (rules.filterMap (judge.triggeredResult? data)).mergeSort
      (byKey fun result => result.rule.priority) := by
  have hresults : (rules.map (judge.evaluateRule data)).filter (·.triggered) =
      rules.filterMap (judge.triggeredResult? data) := by
    rw [← List.filterMap_eq_filter, List.filterMap_map]
    congr 1
    funext rule
    exact (triggeredResult?_eq rule).symm
  unfold triggered
  rw [hresults]
  rfl

theorem failed_eq : judge.failed data rules = rules.filterMap (judge.failedResult? data) := by
  unfold failed
  rw [← List.filterMap_eq_filter, List.filterMap_map]
  congr 1
  funext rule
  exact (failedResult?_eq rule).symm

theorem rule_of_triggeredResult? {rule : Rule} {result : RuleResult}
    (h : judge.triggeredResult? data rule = some result) : result.rule = rule := by
  unfold triggeredResult? at h
  split at h
  · rw [← Option.some.inj h]
  · simp at h

theorem failedResult?_eq_some {rule : Rule} {result : RuleResult}
    (h : judge.failedResult? data rule = some result) :
    ∃ failure, judge.verdict rule.condition data = .error failure ∧
      result = ⟨rule, false, some failure.text⟩ := by
  unfold failedResult? at h
  split at h
  · exact ⟨_, ‹_›, (Option.some.inj h).symm⟩
  · simp at h

/-- A rule that triggers does not fail. -/
theorem failedResult?_of_triggered {rule : Rule}
    (h : (judge.triggeredResult? data rule).isSome) : judge.failedResult? data rule = none := by
  unfold triggeredResult? at h
  unfold failedResult?
  split at h
  · simp_all
  · simp at h

/-! ## Lists of rules -/

/-- What triggers among the rules of two lists is what triggers in each, merged
by priority. -/
theorem triggered_append (rules more : List Rule) :
    judge.triggered data (rules ++ more) =
      (judge.triggered data rules).merge (judge.triggered data more)
        (byKey fun result => result.rule.priority) := by
  rw [triggered_eq, triggered_eq, triggered_eq, List.filterMap_append, mergeSort_append]

/-- Rules that do not trigger can be put anywhere in a list. -/
theorem triggered_insert {idle : List Rule}
    (hidle : ∀ rule ∈ idle, judge.triggeredResult? data rule = none) (before after : List Rule) :
    judge.triggered data (before ++ idle ++ after) = judge.triggered data (before ++ after) := by
  have hnone : idle.filterMap (judge.triggeredResult? data) = [] :=
    List.filterMap_eq_nil_iff.mpr hidle
  simp [triggered_eq, hnone]

theorem triggered_filter (p : Rule → Bool) :
    judge.triggered data (rules.filter p) =
      (judge.triggered data rules).filter fun result => p result.rule := by
  have hresults : (rules.filter p).filterMap (judge.triggeredResult? data) =
      (rules.filterMap (judge.triggeredResult? data)).filter fun result => p result.rule := by
    induction rules with
    | nil => rfl
    | cons rule rest ih =>
        cases hresult : judge.triggeredResult? data rule with
        | none => by_cases hp : p rule <;> simp [hp, hresult, ih]
        | some result =>
            have hrule := rule_of_triggeredResult? hresult
            by_cases hp : p rule <;> simp [hp, hresult, hrule, ih]
  rw [triggered_eq, triggered_eq, hresults, filter_mergeSort]

/-- The rule at one position comes before that at another: by priority, and then
by position. -/
def Precedes (rules : List Rule) (i j : Nat) : Prop :=
  ∃ a b, rules[i]? = some a ∧ rules[j]? = some b ∧
    (a.priority < b.priority ∨ a.priority = b.priority ∧ i < j)

theorem lists_triggered (judge : Judge) (data : FormData) (rules : List Rule) :
    Lists rules (judge.triggeredResult? data) (Precedes rules)
      (judge.triggered data rules) := by
  rw [triggered_eq]
  refine (lists_mergeSort rules _ fun result : RuleResult => result.rule.priority).mono ?_
  intro i j h
  obtain ⟨a, b, ha, hb, hab⟩ := h
  obtain ⟨rule, hrule, hresult⟩ := Option.bind_eq_some_iff.mp ha
  obtain ⟨other, hother, hresult'⟩ := Option.bind_eq_some_iff.mp hb
  rw [rule_of_triggeredResult? hresult, rule_of_triggeredResult? hresult'] at hab
  exact ⟨rule, other, hrule, hother, hab⟩

theorem lists_failed (judge : Judge) (data : FormData) (rules : List Rule) :
    Lists rules (judge.failedResult? data) (· < ·) (judge.failed data rules) := by
  rw [failed_eq]
  exact lists_filterMap rules _

/-- Every failure is of a kind that has a name. -/
def NamesFailures (judge : Judge) : Prop :=
  ∀ condition data failure, judge.verdict condition data = .error failure → failure.kind ≠ ""

theorem failure_text_ne_empty {failure : Failure} (h : failure.kind ≠ "") :
    failure.text ≠ "" := by
  unfold Failure.text
  split
  · exact h
  · simp_all

/-- No failure of an evaluator has the empty text, which would pass for no
failure. -/
theorem evaluator_namesFailures (e : Evaluator) : e.judge.NamesFailures := by
  intro condition data failure h
  cases hverdict : e.evaluate data condition with
  | ok holds => simp [Evaluator.judge, hverdict, Except.mapError] at h
  | error err =>
      have heq : err.failure = failure := by
        simpa [Evaluator.judge, hverdict, Except.mapError] using h
      rw [← heq]
      cases err <;> simp [EvaluationError.failure, EvaluationError.kind]

/-- What evaluating a list of rules gives, and how it depends on the list. -/
structure EvaluatedInOrder (judge : Judge) (data : FormData) (rules : List Rule) : Prop where
  triggered : Lists rules (judge.triggeredResult? data) (Precedes rules)
    (judge.evaluateRules data rules false)
  failed : ∃ failed, judge.evaluateRules data rules true =
      judge.evaluateRules data rules false ++ failed ∧
    Lists rules (judge.failedResult? data) (· < ·) failed ∧
    ∀ result ∈ failed, ∃ message, result.error = some message ∧ message ≠ ""
  notBoth : ∀ rule ∈ rules, (judge.triggeredResult? data rule).isSome →
    judge.failedResult? data rule = none
  /-- Rules that do not trigger can be put in anywhere, or taken out. -/
  idle : ∀ before idle after, rules = before ++ after →
    (∀ rule ∈ idle, judge.triggeredResult? data rule = none) →
    judge.evaluateRules data (before ++ idle ++ after) false =
      judge.evaluateRules data rules false
  append : ∀ more, judge.evaluateRules data (rules ++ more) false =
    (judge.evaluateRules data rules false).merge (judge.evaluateRules data more false)
      fun a b => a.rule.priority ≤ b.rule.priority
  aimed : ∀ field step, judge.evaluateRulesFor data rules field step =
    (judge.evaluateRules data rules false).filter fun result =>
      (field = none ∨ result.rule.targetField = field) ∧
        (step = none ∨ result.rule.targetStep = step)

/-- For any judge that names its failures, the triggered results are sorted by
priority and then by position, the failed ones by position, each rule gives at
most one of the two, and lists of rules can be joined, filled up with idle ones
and filtered by target. -/
theorem evaluateRules_inOrder (h : judge.NamesFailures) (data : FormData) (rules : List Rule) :
    judge.EvaluatedInOrder data rules := by
  constructor
  · exact lists_triggered judge data rules
  · refine ⟨judge.failed data rules, rfl, lists_failed judge data rules, fun result hresult => ?_⟩
    rw [failed_eq] at hresult
    obtain ⟨rule, -, hfailed⟩ := List.mem_filterMap.mp hresult
    obtain ⟨failure, hverdict, heq⟩ := failedResult?_eq_some hfailed
    exact ⟨failure.text, by rw [heq], failure_text_ne_empty (h _ _ _ hverdict)⟩
  · exact fun rule _ => failedResult?_of_triggered
  · intro before idle after hrules hidle
    rw [hrules]
    exact triggered_insert hidle before after
  · exact triggered_append rules
  · intro field step
    refine (triggered_filter (aimsAt field step)).trans (List.filter_congr fun result _ => ?_)
    rw [Bool.eq_iff_iff]
    cases field <;> cases step <;> simp [aimsAt]

/-- A rule that triggers when a field is missing. -/
def whenMissing (id field : String) (priority : Int) (isActive : Bool) : Rule where
  id := id
  description := none
  condition := .leaf field (.known .isNull) .null
  action := "show"
  targetField := some field
  targetStep := none
  targetModule := none
  priority := priority
  isActive := isActive
  category := none
  tags := []

/-- Two rules of one priority, an inactive one, one that fails and one that comes
before all of them. -/
def mixedRules : List Rule :=
  [whenMissing "late" "a" 5 true, whenMissing "off" "b" 1 false, whenMissing "blank" " " 1 true,
    whenMissing "later" "c" 5 true, whenMissing "early" "a" 1 true]

theorem evaluateRules_inOrder_mixed :
    (Evaluator.judge ⟨.folded, 64, "current"⟩).NamesFailures ∧
      (mixedRules.map ((Evaluator.judge ⟨.folded, 64, "current"⟩).evaluateRule .empty)).map
        (fun result => (result.triggered, result.error)) =
          [(true, none), (false, none), (false, some "Field reference cannot be null or empty"),
            (true, none), (true, none)] ∧
      (Evaluator.judge ⟨.folded, 64, "current"⟩).EvaluatedInOrder .empty mixedRules := by
  have hnames := evaluator_namesFailures ⟨.folded, 64, "current"⟩
  exact ⟨hnames, rfl, evaluateRules_inOrder hnames .empty mixedRules⟩

end Judge

end FormRules
