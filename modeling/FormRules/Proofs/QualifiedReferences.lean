import FormRules.Proofs.ConditionTrees
import Mathlib.Data.List.TakeWhile

/-!
# References with a module

A reference names a module when a dot parts it into a module without dots and a
field, neither of them empty.  There is at most one such dot, the first of the
text; dots at its ends and further dots belong to the field.

A reference without a module is looked up in the current module or the default
one.  Writing that module in front of it gives a reference to the same value.  So
a condition may be written with all of its modules: it comes to the same, and then
does so whatever module is the current one.
-/

namespace FormRules

namespace Reference

/-! ## Reading at the first dot -/

theorem passes_of_no_dot {cs : List Char} (h : '.' ∉ cs) : ∀ c ∈ cs, (c != '.') = true := by
  intro c hc
  exact bne_iff_ne.mpr fun heq => h (heq ▸ hc)

theorem splitChars_at_dot {before : List Char} (hbefore : '.' ∉ before) (after : List Char) :
    splitChars (before ++ '.' :: after) =
      if before = [] ∨ after = [] then none else some (before, after) := by
  have hpasses := passes_of_no_dot hbefore
  have hspan : (before ++ '.' :: after).span (· != '.') = (before, '.' :: after) := by
    rw [List.span_eq_takeWhile_dropWhile, List.takeWhile_append_of_pos hpasses,
      List.dropWhile_append_of_pos hpasses]
    simp
  unfold splitChars
  rw [hspan]
  simp

theorem splitChars_of_no_dot {cs : List Char} (h : '.' ∉ cs) : splitChars cs = none := by
  have hpasses := passes_of_no_dot h
  have hspan : cs.span (· != '.') = (cs, []) := by
    rw [List.span_eq_takeWhile_dropWhile, List.takeWhile_eq_self_iff.mpr hpasses,
      List.dropWhile_eq_nil_iff.mpr hpasses]
  unfold splitChars
  rw [hspan]

theorem splitChars_eq_some_iff {cs before after : List Char} :
    splitChars cs = some (before, after) ↔
      cs = before ++ '.' :: after ∧ before ≠ [] ∧ '.' ∉ before ∧ after ≠ [] := by
  constructor
  · intro h
    by_cases hdot : '.' ∈ cs
    · obtain ⟨front, rest, hcs, hfront⟩ := List.eq_append_cons_of_mem hdot
      rw [hcs, splitChars_at_dot hfront] at h
      split at h
      · cases h
      · rename_i hnonempty
        cases h
        rw [not_or] at hnonempty
        exact ⟨hcs, hnonempty.1, hfront, hnonempty.2⟩
    · rw [splitChars_of_no_dot hdot] at h
      cases h
  · rintro ⟨hcs, hbefore, hfree, hafter⟩
    rw [hcs, splitChars_at_dot hfree, if_neg (not_or.mpr ⟨hbefore, hafter⟩)]

/-- A text is a module and a field with a dot between them. -/
def Splits (s module field : String) : Prop :=
  s = module ++ "." ++ field ∧ module ≠ "" ∧ '.' ∉ module.toList ∧ field ≠ ""

theorem splits_iff {s module field : String} :
    Splits s module field ↔ splitChars s.toList = some (module.toList, field.toList) := by
  have htext : s = module ++ "." ++ field ↔ s.toList = module.toList ++ '.' :: field.toList := by
    rw [← String.toList_inj, String.toList_append, String.toList_append, List.append_assoc]
    rfl
  rw [splitChars_eq_some_iff, Splits, htext, ne_eq, ne_eq, ne_eq, ne_eq, String.toList_eq_nil_iff,
    String.toList_eq_nil_iff]

theorem Splits.not_blank {s module field : String} (h : Splits s module field) :
    Text.isBlank s = false := by
  rw [← Bool.not_eq_true]
  intro hblank
  have hdot : '.' ∈ s.toList := by
    rw [h.1]
    simp
  exact absurd (List.all_eq_true.mp hblank '.' hdot) (by decide)

theorem ofText_eq_iff {s module field : String} :
    ofText s = ⟨some module, field⟩ ↔ Splits s module field := by
  rw [splits_iff]
  unfold ofText
  cases splitChars s.toList with
  | none => simp
  | some parts =>
      simp only [mk.injEq, Option.some.injEq, Prod.ext_iff]
      rw [← String.toList_inj, ← String.toList_inj, String.toList_ofList, String.toList_ofList]

theorem ofText_module_eq_none_iff {s : String} :
    (ofText s).module = none ↔ ∀ module field, ¬ Splits s module field := by
  constructor
  · intro hnone module field hsplits
    rw [ofText_eq_iff.mpr hsplits] at hnone
    exact Option.some_ne_none module hnone
  · intro hnever
    cases hmodule : (ofText s).module with
    | none => rfl
    | some module =>
        have hof : ofText s = ⟨some module, (ofText s).field⟩ := by rw [← hmodule]
        exact absurd (ofText_eq_iff.mp hof) (hnever module _)

theorem ofText_of_module_eq_none {s : String} (h : (ofText s).module = none) :
    ofText s = ⟨none, s⟩ := by
  unfold ofText at h ⊢
  cases hsplit : splitChars s.toList with
  | none => rfl
  | some parts => simp [hsplit] at h

/-- What a text reads as: nothing when it is blank, a module and a field when it
splits, and a field alone otherwise. -/
structure ReadsAtFirstDot : Prop where
  blank : ∀ s, read? s = none ↔ Text.isBlank s = true
  qualified : ∀ s module field,
    read? s = some ⟨some module, field⟩ ↔ Splits s module field
  unqualified : ∀ s field, read? s = some ⟨none, field⟩ ↔
    Text.isBlank s = false ∧ field = s ∧ ∀ module name, ¬ Splits s module name

theorem read?_eq_some_iff {s : String} {reference : Reference} :
    read? s = some reference ↔ Text.isBlank s = false ∧ ofText s = reference := by
  unfold read?
  cases Text.isBlank s <;> simp

/-- A text that is not blank is read at its first dot if there is something on
both sides of it, and as a field without a module otherwise. -/
theorem readsAtFirstDot : ReadsAtFirstDot where
  blank := fun _ => read?_eq_none_iff
  qualified := by
    intro s module field
    rw [read?_eq_some_iff, ofText_eq_iff]
    constructor
    · exact fun h => h.2
    · exact fun h => ⟨h.not_blank, h⟩
  unqualified := by
    intro s field
    rw [read?_eq_some_iff, ← ofText_module_eq_none_iff]
    constructor
    · rintro ⟨hblank, hof⟩
      have hnone : (ofText s).module = none := congrArg Reference.module hof
      have hself := ofText_of_module_eq_none hnone
      exact ⟨hblank, congrArg Reference.field (hof.symm.trans hself), hnone⟩
    · rintro ⟨hblank, hfield, hnone⟩
      rw [hfield]
      exact ⟨hblank, ofText_of_module_eq_none hnone⟩

/-! ## Naming the module -/

/-- A reference without a module gets the given one; any other text stays. -/
def qualify (module s : String) : String :=
  match read? s with
  | some ⟨none, _⟩ => module ++ "." ++ s
  | _ => s

variable {module s : String}

theorem read?_qualify (hmodule : module ≠ "") (hfree : '.' ∉ module.toList) :
    read? (qualify module s) =
      (read? s).map fun reference => ⟨reference.module <|> some module, reference.field⟩ := by
  unfold qualify
  cases hread : read? s with
  | none => exact hread
  | some reference =>
      obtain ⟨named, field⟩ := reference
      cases named with
      | some other => exact hread
      | none =>
          -- The added dot is the first one, since the module has none.
          obtain ⟨hblank, hfield, -⟩ := (readsAtFirstDot.unqualified s field).mp hread
          have hsplits : Splits (module ++ "." ++ s) module s :=
            ⟨rfl, hmodule, hfree, Text.ne_empty_of_not_blank hblank⟩
          rw [hfield]
          exact (readsAtFirstDot.qualified _ _ _).mpr hsplits

end Reference

namespace Condition

mutual

/-- The tree with other references. -/
def mapFields (f : String → String) : Condition → Condition
  | .leaf field operator value => .leaf (f field) operator value
  | .group operator children => .group operator (mapFieldsOfAll f children)

def mapFieldsOfAll (f : String → String) : List Condition → List Condition
  | [] => []
  | c :: rest => c.mapFields f :: mapFieldsOfAll f rest

end

theorem mapFieldsOfAll_eq_map (f : String → String) (children : List Condition) :
    mapFieldsOfAll f children = children.map (mapFields f) := by
  induction children with
  | nil => rfl
  | cons c rest ih => rw [mapFieldsOfAll, List.map_cons, ih]

/-- The tree in which every reference names a module. -/
def qualified (module : String) (c : Condition) : Condition :=
  c.mapFields (Reference.qualify module)

end Condition

namespace Evaluator

open Condition

variable {e : Evaluator} {data : FormData} {module : String}

/-- Renaming the fields of a tree changes no outcome if it changes none of a
leaf. -/
theorem evaluateAt_mapFields {data' : FormData} {f : String → String}
    (hleaf : ∀ field operator value, e.leafHolds data' (f field) operator value =
      e.leafHolds data field operator value) (c : Condition) (level : Nat) :
    e.evaluateAt data' level (c.mapFields f) = e.evaluateAt data level c := by
  induction c using Condition.induction_children generalizing level with
  | leaf field operator value => rw [mapFields, evaluateAt, evaluateAt, hleaf]
  | group operator children ih =>
      by_cases hdeep : e.maxDepth < level
      · rw [evaluateAt_of_deep hdeep, evaluateAt_of_deep hdeep]
      · rw [mapFields, mapFieldsOfAll_eq_map]
        exact group_congr operator hdeep hdeep fun child hchild => ih child hchild (level + 1)

theorem resolve_qualified (hcurrent : data.effectiveModule? e.defaultModule = some module)
    (other : Value) (reference : Reference) :
    (data.setCurrent other).resolve e.defaultModule
        ⟨reference.module <|> some module, reference.field⟩ =
      data.resolve e.defaultModule reference := by
  unfold FormData.resolve FormData.value
  rw [hcurrent]
  cases reference.module <;> rfl

/-- With the current module named in its reference, a leaf is what it was,
whatever module is current then. -/
theorem leafHolds_qualify (hcurrent : data.effectiveModule? e.defaultModule = some module)
    (hmodule : module ≠ "") (hfree : '.' ∉ module.toList) (other : Value) (field : String)
    (operator : OperatorId Comparator) (value : Value) :
    e.leafHolds (data.setCurrent other) (Reference.qualify module field) operator value =
      e.leafHolds data field operator value := by
  unfold leafHolds
  rw [Reference.read?_qualify hmodule hfree]
  cases operator.known? with
  | none => rfl
  | some op =>
      cases Reference.read? field with
      | none => rfl
      | some reference =>
          simp only [Option.map_some, resolve_qualified hcurrent other reference]

/-- A text is read at its first dot, and a tree may be written with the module its
references are looked up in. -/
theorem evaluate_qualified :
    Reference.ReadsAtFirstDot ∧
      ∀ (e : Evaluator) (data : FormData) (module : String) (c : Condition),
        data.effectiveModule? e.defaultModule = some module → module ≠ "" →
          '.' ∉ module.toList →
            e.evaluate data (c.qualified module) = e.evaluate data c ∧
              ∀ other, e.evaluate (data.setCurrent other) (c.qualified module) =
                e.evaluate data c := by
  refine ⟨Reference.readsAtFirstDot, ?_⟩
  intro e data module c hcurrent hmodule hfree
  have hanywhere : ∀ other, e.evaluate (data.setCurrent other) (c.qualified module) =
      e.evaluate data c := fun other =>
    evaluateAt_mapFields (leafHolds_qualify hcurrent hmodule hfree other) c 1
  exact ⟨hanywhere data.current, hanywhere⟩

def dottedEnds : Condition :=
  .allOf [.leaf ".a." (.known .isNotNull) .null, .negate (.leaf "m.." (.known .isNull) .null)]

/-- Two fields with dots at their ends, and no current module. -/
def capturedDotted : FormData := ⟨[("m", [(".a.", .bool true), (".", .int 0)])], .str ""⟩

theorem evaluate_qualified_dotted :
    capturedDotted.effectiveModule? "m" = some "m" ∧ "m" ≠ "" ∧ '.' ∉ "m".toList ∧
      dottedEnds.qualified "m" = .allOf [.leaf "m..a." (.known .isNotNull) .null,
        .negate (.leaf "m.." (.known .isNull) .null)] ∧
      Evaluator.evaluate ⟨.exact, 3, "m"⟩ capturedDotted dottedEnds = .ok true ∧
      Evaluator.evaluate ⟨.exact, 3, "m"⟩ (capturedDotted.setCurrent (.str "x"))
        (dottedEnds.qualified "m") = .ok true := by
  have hcurrent : capturedDotted.effectiveModule? "m" = some "m" := rfl
  have hplain : Evaluator.evaluate ⟨.exact, 3, "m"⟩ capturedDotted dottedEnds = .ok true := rfl
  have hqualified := evaluate_qualified.2 ⟨.exact, 3, "m"⟩ capturedDotted "m" dottedEnds hcurrent
    (by decide) (by decide)
  refine ⟨hcurrent, by decide, by decide, rfl, hplain, ?_⟩
  exact (hqualified.2 (.str "x")).trans hplain

end Evaluator

end FormRules
