import FormRules.Proofs.ReadConditions
import FormRules.Rule.Basic

/-!
# What was read reads back

A rule is stored with every field written out under its preferred key.  What
reading leaves of a rule, a name and an action that are not empty, a step from
one on and a storable condition, is enough for the stored form to read back as
the same rule, whatever the default priority is and whether or not it can be
read.  So a condition or a rule survives being stored and read any number of
times, in whatever spelling it came.
-/

namespace FormRules

namespace Reading

variable {α : Type} {fields : Fields} {key : FieldKey} {read : Value → Reading α}

theorem optional_eq_ok {default a : α} (h : optional fields key default read = .ok a) :
    a = default ∨ ∃ v, read v = .ok a := by
  unfold optional at h
  split at h
  · exact .inr ⟨_, within_eq_ok_iff.mp h⟩
  · exact .inl (Reading.ok.inj h).symm

theorem optional_of_find? {default a : α} {k : String} {v : Value}
    (hfind : key.find? fields = some (k, v)) (hread : read v = .ok a) :
    optional fields key default read = .ok a := by
  unfold optional
  rw [hfind]
  exact within_eq_ok_iff.mpr hread

theorem nullable_eq_ok {v : Value} {a : α} (h : nullable read v = .ok (some a)) :
    read v = .ok a := by
  unfold nullable at h
  split at h
  · simp at h
  · cases hread : read v with
    | ok b =>
        rw [hread] at h
        have heq : b = a := by simpa using h
        rw [heq]
    | faulty faults => simp [hread] at h

theorem nullable_text_ofText? (s : Option String) : nullable text (.ofText? s) = .ok s := by
  cases s <;> rfl

theorem integerFrom_eq_ok_iff {least n : Int} {v : Value} :
    integerFrom least v = .ok n ↔ integer v = .ok n ∧ least ≤ n := by
  unfold integerFrom andThen
  cases hread : integer v with
  | faulty faults => simp
  | ok m =>
      by_cases hsmall : m < least
      · simp only [hsmall, if_true, fault, reduceCtorEq, Reading.ok.injEq, false_iff, not_and]
        intro heq
        omega
      · simp only [hsmall, if_false, Reading.ok.injEq]
        constructor
        · intro heq
          exact ⟨heq, by omega⟩
        · exact fun h => h.1

theorem nullable_integerFrom {least : Int} {step : Option Int}
    (h : ∀ n, step = some n → least ≤ n) :
    nullable (integerFrom least) ((step.map Value.int).getD .null) = .ok step := by
  cases step with
  | none => rfl
  | some n =>
      have hread : integerFrom least (.int n) = .ok n :=
        integerFrom_eq_ok_iff.mpr ⟨rfl, h n rfl⟩
      simp [nullable, hread]

theorem texts_map_str (tags : List String) : texts (.list (tags.map Value.str)) = .ok tags := by
  change each text (tags.map Value.str) = .ok tags
  rw [each_eq_ok_iff, List.forall₂_map_left_iff, List.forall₂_same]
  exact fun _ _ => rfl

end Reading

namespace Rule

variable {priority : Int} {fields : Fields} {rule : Rule}

theorem readWith_obj_eq_ok_iff :
    readWith priority (.obj fields) = .ok rule ↔
      Reading.required fields idKey Reading.nonEmptyText = .ok rule.id ∧
      Reading.nullableField fields descriptionKey Reading.text = .ok rule.description ∧
      Reading.required fields conditionKey Condition.readEither = .ok rule.condition ∧
      Reading.required fields actionKey Reading.nonEmptyText = .ok rule.action ∧
      Reading.nullableField fields targetFieldKey Reading.text = .ok rule.targetField ∧
      Reading.nullableField fields targetStepKey (Reading.integerFrom 1) = .ok rule.targetStep ∧
      Reading.nullableField fields targetModuleKey Reading.text = .ok rule.targetModule ∧
      Reading.optional fields priorityKey priority Reading.integer = .ok rule.priority ∧
      Reading.optional fields isActiveKey true Reading.flag = .ok rule.isActive ∧
      Reading.nullableField fields categoryKey Reading.text = .ok rule.category ∧
      Reading.optional fields tagsKey [] Reading.texts = .ok rule.tags := by
  simp only [readWith, Reading.seq_eq_ok_iff, Reading.functorMap_eq_ok_iff]
  constructor
  · rintro ⟨_, tags, ⟨_, category, ⟨_, isActive, ⟨_, order, ⟨_, module, ⟨_, step, ⟨_, target,
      ⟨_, action, ⟨_, condition, ⟨_, description, ⟨id, hid, rfl⟩, hdescription, rfl⟩,
      hcondition, rfl⟩, haction, rfl⟩, htarget, rfl⟩, hstep, rfl⟩, hmodule, rfl⟩, horder, rfl⟩,
      hactive, rfl⟩, hcategory, rfl⟩, htags, rfl⟩
    exact ⟨hid, hdescription, hcondition, haction, htarget, hstep, hmodule, horder, hactive,
      hcategory, htags⟩
  · rintro ⟨hid, hdescription, hcondition, haction, htarget, hstep, hmodule, horder, hactive,
      hcategory, htags⟩
    exact ⟨_, _, ⟨_, _, ⟨_, _, ⟨_, _, ⟨_, _, ⟨_, _, ⟨_, _, ⟨_, _, ⟨_, _, ⟨_, _, ⟨_, hid, rfl⟩,
      hdescription, rfl⟩, hcondition, rfl⟩, haction, rfl⟩, htarget, rfl⟩, hstep, rfl⟩, hmodule,
      rfl⟩, horder, rfl⟩, hactive, rfl⟩, hcategory, rfl⟩, htags, rfl⟩

/-- What reading leaves of a rule. -/
structure Storable (rule : Rule) : Prop where
  id_ne : rule.id ≠ ""
  action_ne : rule.action ≠ ""
  condition : rule.condition.Storable
  targetStep : ∀ n, rule.targetStep = some n → 1 ≤ n

theorem readWith_storable {v : Value} (h : readWith priority v = .ok rule) : rule.Storable := by
  cases v with
  | obj fields =>
      rcases readWith_obj_eq_ok_iff.mp h with ⟨hid, -, hcondition, haction, -, hstep, -⟩
      rcases Reading.required_eq_ok_iff.mp hid with ⟨_, _, -, hname⟩
      rcases Reading.required_eq_ok_iff.mp haction with ⟨_, _, -, hnamed⟩
      rcases Reading.required_eq_ok_iff.mp hcondition with ⟨_, _, -, heither⟩
      constructor
      · exact (Reading.nonEmptyText_eq_ok_iff.mp hname).2
      · exact (Reading.nonEmptyText_eq_ok_iff.mp hnamed).2
      · exact Condition.readEither_storable heither
      · intro n hn
        rw [hn] at hstep
        rcases Reading.optional_eq_ok hstep with hnone | ⟨v, hread⟩
        · simp at hnone
        · exact (Reading.integerFrom_eq_ok_iff.mp (Reading.nullable_eq_ok hread)).2
  | _ => simp [readWith, Reading.fault] at h

theorem read_storable {defaultPriority : Reading Int} {v : Value}
    (h : read defaultPriority v = .ok rule) : rule.Storable := by
  unfold read at h
  split at h
  · exact readWith_storable h
  · split at h
    · simp at h
    · exact readWith_storable h

namespace Storable

variable (h : rule.Storable)

include h

/-- A rule that can be stored is read back from its stored form as it was. -/
theorem readWith_stored (priority : Int) : readWith priority rule.stored = .ok rule := by
  apply readWith_obj_eq_ok_iff.mpr
  have hid := Reading.nonEmptyText_eq_ok_iff.mpr ⟨rfl, h.id_ne⟩
  have haction := Reading.nonEmptyText_eq_ok_iff.mpr ⟨rfl, h.action_ne⟩
  refine ⟨?_, ?_, ?_, ?_, ?_, ?_, ?_, ?_, ?_, ?_, ?_⟩
  · exact Reading.required_eq_ok_iff.mpr ⟨_, _, rfl, hid⟩
  · exact Reading.optional_of_find? rfl (Reading.nullable_text_ofText? _)
  · exact Reading.required_eq_ok_iff.mpr ⟨_, _, rfl, h.condition.readEither_stored⟩
  · exact Reading.required_eq_ok_iff.mpr ⟨_, _, rfl, haction⟩
  · exact Reading.optional_of_find? rfl (Reading.nullable_text_ofText? _)
  · exact Reading.optional_of_find? rfl (Reading.nullable_integerFrom h.targetStep)
  · exact Reading.optional_of_find? rfl (Reading.nullable_text_ofText? _)
  · exact Reading.optional_of_find? rfl rfl
  · exact Reading.optional_of_find? rfl rfl
  · exact Reading.optional_of_find? rfl (Reading.nullable_text_ofText? _)
  · exact Reading.optional_of_find? rfl (Reading.texts_map_str _)

/-- The default priority is not asked for. -/
theorem read_stored (defaultPriority : Reading Int) :
    read defaultPriority rule.stored = .ok rule := by
  cases defaultPriority with
  | ok priority => exact h.readWith_stored priority
  | faulty faults =>
      have hstored : takesDefaultPriority rule.stored = false := rfl
      rw [read, hstored]
      exact h.readWith_stored 0

theorem survives : rule.survivesStorage = true := by
  rw [survivesStorage, h.readWith_stored]
  simp [Reading.value?]

end Storable

end Rule

/-! ## Round trips -/

/-- The stored form of a condition reads as the condition and nothing else, and
is what is stored again. -/
structure Condition.ReadsBack (c : Condition) : Prop where
  read_eq : Condition.read c.stored = .ok c
  readEither_eq : Condition.readEither c.stored = .ok c
  stored_again : ∀ again, Condition.read c.stored = .ok again ∨
    Condition.readEither c.stored = .ok again → again.stored = c.stored
  survives : c.survivesStorage = true

theorem Condition.Storable.readsBack {c : Condition} (h : c.Storable) : c.ReadsBack where
  read_eq := h.read_stored
  readEither_eq := h.readEither_stored
  stored_again := by
    intro again hagain
    rw [h.read_stored, h.readEither_stored, or_self] at hagain
    rw [Reading.ok.inj hagain]
  survives := h.survives

structure Rule.ReadsBack (rule : Rule) : Prop where
  read_eq : ∀ defaultPriority, Rule.read defaultPriority rule.stored = .ok rule
  stored_again : ∀ defaultPriority again,
    Rule.read defaultPriority rule.stored = .ok again → again.stored = rule.stored
  survives : rule.survivesStorage = true

theorem Rule.Storable.readsBack {rule : Rule} (h : rule.Storable) : rule.ReadsBack where
  read_eq := h.read_stored
  stored_again := by
    intro defaultPriority again hagain
    rw [h.read_stored] at hagain
    rw [Reading.ok.inj hagain]
  survives := h.survives

/-- Whatever a value reads as reads back from its stored form, and it does not
read both as a leaf and as a group. -/
structure RoundTrips (v : Value) : Prop where
  condition : ∀ c, Condition.read v = .ok c ∨ Condition.readEither v = .ok c → c.ReadsBack
  rule : ∀ defaultPriority rule, Rule.read defaultPriority v = .ok rule → rule.ReadsBack
  unambiguous : ∀ c d, Condition.readLeaf v = .ok c → Condition.readGroup v ≠ .ok d

/-- Conditions and rules that were read, from whatever value, are stored and
read back as the same, and stored again alike; no value reads both as a leaf and
as a group. -/
theorem stored_roundTrips (v : Value) : RoundTrips v := by
  constructor
  · intro c hc
    rcases hc with hread | heither
    · exact (Condition.read_storable hread).readsBack
    · exact (Condition.readEither_storable heither).readsBack
  · exact fun defaultPriority rule hread => (Rule.read_storable hread).readsBack
  · exact fun c d hleaf => Condition.readGroup_ne_ok_of_readLeaf hleaf

/-- A rule in other spellings, with an operator of each kind and no priority. -/
def respelledRule : Value :=
  .obj [("action", .str "show"), ("id", .str "r"), ("target_step_number", .bool true),
    ("is_active", .str "Yes"), ("color", .null), ("condition", .obj [("logical_op", .str "a_n d"),
      ("children", .list [
        .obj [("value", .list [.null, .obj [("x", .bool false)]]), ("field", .str "f"),
          ("operator", .str "greater_than")],
        .obj [("logicalOp", .bool true)],
        .obj [("field", .str "m.g"), ("operator", .str "near")]])])]

theorem stored_roundTrips_respelled :
    ∃ rule, Rule.read (.ok 100) respelledRule = .ok rule ∧
      rule.condition = .allOf [
        .leaf "f" (.known .greaterThan) (.list [.null, .obj [("x", .bool false)]]),
        .group (.numbered 1) [], .leaf "m.g" (.named "near") .null] ∧
      rule.targetStep = some 1 ∧ rule.priority = 100 ∧ rule.ReadsBack := by
  refine ⟨_, by with_unfolding_all rfl, rfl, rfl, rfl, ?_⟩
  exact (stored_roundTrips respelledRule).rule (.ok 100) _ (by with_unfolding_all rfl)

end FormRules
