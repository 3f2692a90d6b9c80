import FormRules.Condition.Stored
import Mathlib.Tactic

/-!
# Conditions as read and as stored

Reading leaves no empty field and no operator unknown that some spelling names.
A condition with these properties is storable: its stored form reads back as the
same condition, by itself as well as inside a group or a rule.

A stored leaf has a field, and that is a key no group admits.  So no value reads
as both, and which of the two shapes is tried first does not matter.
-/

namespace FormRules

namespace OperatorId

variable {Known : Type}

/-- The identifier is that of a known operator or is no spelling of one. -/
def Settled (ofName? : String → Option Known) : OperatorId Known → Prop
  | .known _ => True
  | .named s => ofName? s = none
  | .numbered _ => True

end OperatorId

namespace Reading

variable {α : Type}

theorem within_eq_ok_iff {step : String} {r : Reading α} {a : α} :
    r.within step = .ok a ↔ r = .ok a := by
  cases r <;> simp [within]

theorem withFaults_eq_ok_iff {r : Reading α} {more : List Fault} {a : α} :
    r.withFaults more = .ok a ↔ r = .ok a ∧ more = [] := by
  unfold withFaults
  cases more <;> simp

theorem eachFrom_eq_ok_iff {β : Type} {read : β → Reading α} (start : Nat) {bs : List β}
    {as : List α} :
    eachFrom read start bs = .ok as ↔ List.Forall₂ (fun b a => read b = .ok a) bs as := by
  induction bs generalizing start as with
  | nil => simp [eachFrom, eq_comm]
  | cons b rest ih =>
      rw [eachFrom, ap_eq_ok_iff, List.forall₂_cons_left_iff]
      cases hread : read b with
      | faulty faults => simp [within]
      | ok first => simp [ih]

theorem each_eq_ok_iff {β : Type} {read : β → Reading α} {bs : List β} {as : List α} :
    each read bs = .ok as ↔ List.Forall₂ (fun b a => read b = .ok a) bs as :=
  eachFrom_eq_ok_iff 0

theorem required_eq_ok_iff {fields : Fields} {key : FieldKey} {read : Value → Reading α} {a : α} :
    required fields key read = .ok a ↔
      ∃ k v, key.find? fields = some (k, v) ∧ read v = .ok a := by
  unfold required
  cases hfind : key.find? fields with
  | none => simp
  | some entry =>
      rcases entry with ⟨k, v⟩
      simp [within_eq_ok_iff]

theorem nonEmptyText_eq_ok_iff {v : Value} {s : String} :
    nonEmptyText v = .ok s ↔ v = .str s ∧ s ≠ "" := by
  cases v with
  | str t =>
      by_cases hempty : t = ""
      · rw [hempty]
        constructor
        · intro h
          simp [nonEmptyText, text, andThen, fault] at h
        · intro h
          exact absurd (Value.str.inj h.1).symm h.2
      · simp only [nonEmptyText, text, andThen, String.isEmpty_iff, hempty, if_false,
          Reading.ok.injEq, Value.str.injEq]
        constructor
        · intro h
          exact ⟨h, h ▸ hempty⟩
        · exact fun h => h.1
  | _ => simp [nonEmptyText, text, andThen, fault]

/-- No key is unknown exactly when each entry is the one read for some field. -/
theorem unknownKeyFaults_eq_nil_iff {fields : Fields} {keys : List FieldKey} :
    unknownKeyFaults fields keys = [] ↔
      ∀ entry ∈ fields, ∃ key ∈ keys, ∃ v, key.find? fields = some (entry.1, v) := by
  unfold unknownKeyFaults unknownEntries Assoc.without
  rw [List.map_eq_nil_iff, List.filter_eq_nil_iff]
  simp

end Reading

namespace Condition

/-! ## When an object reads -/

theorem readLeaf_obj_eq_ok_iff {fields : Fields} {c : Condition} :
    readLeaf (.obj fields) = .ok c ↔
      (∃ field operator value,
        Reading.required fields fieldKey Reading.nonEmptyText = .ok field ∧
        Reading.required fields operatorKey readComparator = .ok operator ∧
        Reading.optional fields valueKey .null .ok = .ok value ∧
        c = .leaf field operator value) ∧
      Reading.unknownKeyFaults fields leafKeys = [] := by
  rw [readLeaf, Reading.withFaults_eq_ok_iff]
  simp only [Reading.seq_eq_ok_iff, Reading.functorMap_eq_ok_iff]
  apply and_congr_left
  intro _
  constructor
  · intro h
    rcases h with ⟨_, value, ⟨_, operator, ⟨field, hfield, rfl⟩, hoperator, rfl⟩, hvalue, hc⟩
    exact ⟨field, operator, value, hfield, hoperator, hvalue, hc⟩
  · intro h
    rcases h with ⟨field, operator, value, hfield, hoperator, hvalue, hc⟩
    exact ⟨_, value, ⟨_, operator, ⟨field, hfield, rfl⟩, hoperator, rfl⟩, hvalue, hc⟩

theorem readGroup_obj_eq_ok_iff {fields : Fields} {c : Condition} :
    readGroup (.obj fields) = .ok c ↔
      (∃ operator children,
        Reading.required fields connectiveKey readConnective = .ok operator ∧
        (childrenKey.find? fields = none ∧ children = [] ∨
          ∃ k items, childrenKey.find? fields = some (k, .list items) ∧
            readChildrenFrom 0 items = .ok children) ∧
        c = .group operator children) ∧
      Reading.unknownKeyFaults fields groupKeys = [] := by
  rw [readGroup, Reading.withFaults_eq_ok_iff]
  simp only [Reading.seq_eq_ok_iff, Reading.functorMap_eq_ok_iff]
  apply and_congr_left
  intro _
  constructor
  · intro h
    rcases h with ⟨_, children, ⟨operator, hoperator, rfl⟩, hchildren, hc⟩
    refine ⟨operator, children, hoperator, ?_, hc⟩
    split at hchildren
    · rename_i k items hfind
      exact .inr ⟨k, items, hfind, Reading.within_eq_ok_iff.mp hchildren⟩
    · simp [Reading.fault, Reading.within] at hchildren
    · rename_i hfind
      exact .inl ⟨hfind, (Reading.ok.inj hchildren).symm⟩
  · intro h
    rcases h with ⟨operator, children, hoperator, hchildren, hc⟩
    refine ⟨_, children, ⟨operator, hoperator, rfl⟩, ?_, hc⟩
    rcases hchildren with ⟨hfind, hnil⟩ | ⟨k, items, hfind, hread⟩
    · split
      · simp_all
      · simp_all
      · rw [hnil]
    · split
      · rename_i k' items' hfind'
        rw [hfind] at hfind'
        cases hfind'
        exact Reading.within_eq_ok_iff.mpr hread
      · simp_all
      · simp_all

/-! ## What reading gives -/

/-- Fields are not empty, and operators are known or no spelling of a known one. -/
inductive Storable : Condition → Prop where
  | leaf {field : String} {operator : OperatorId Comparator} {value : Value}
      (hfield : field ≠ "") (hoperator : operator.Settled Comparator.ofName?) :
      Storable (.leaf field operator value)
  | group {operator : OperatorId Connective} {children : List Condition}
      (hoperator : operator.Settled Connective.ofName?)
      (hchildren : ∀ c ∈ children, Storable c) : Storable (.group operator children)

theorem readOperator_settled {Known : Type} {kindName : String}
    {ofName? : String → Option Known} {v : Value} {operator : OperatorId Known}
    (h : readOperator kindName ofName? v = .ok operator) : operator.Settled ofName? := by
  unfold readOperator at h
  split at h
  · split at h
    · rw [← Reading.ok.inj h]
      trivial
    · rw [← Reading.ok.inj h]
      assumption
  · split at h
    · rw [← Reading.ok.inj h]
      trivial
    · simp at h

theorem readLeaf_storable {v : Value} {c : Condition} (h : readLeaf v = .ok c) :
    c.Storable := by
  cases v with
  | obj fields =>
      rcases (readLeaf_obj_eq_ok_iff.mp h).1 with
        ⟨field, operator, value, hfield, hoperator, -, heq⟩
      rcases Reading.required_eq_ok_iff.mp hfield with ⟨_, name, -, hname⟩
      rcases Reading.required_eq_ok_iff.mp hoperator with ⟨_, stored, -, hread⟩
      rw [heq]
      exact .leaf (Reading.nonEmptyText_eq_ok_iff.mp hname).2 (readOperator_settled hread)
  | _ => simp [readLeaf, Reading.fault] at h

theorem eitherShape_eq_ok {leaf group : Reading Condition} {c : Condition}
    (h : eitherShape leaf group = .ok c) : leaf = .ok c ∨ group = .ok c := by
  unfold eitherShape at h
  split at h <;> simp_all

-- By recursion on the stored value, along the two functions that read groups.
mutual

theorem readGroup_storable : (v : Value) → {c : Condition} → readGroup v = .ok c → c.Storable
  | .obj fields, c, h => by
      rcases (readGroup_obj_eq_ok_iff.mp h).1 with
        ⟨operator, children, hoperator, hchildren, heq⟩
      rcases Reading.required_eq_ok_iff.mp hoperator with ⟨_, stored, -, hread⟩
      rw [heq]
      apply Storable.group (readOperator_settled hread)
      rcases hchildren with ⟨-, hnil⟩ | ⟨_, items, _, hitems⟩
      · simp [hnil]
      · exact readChildrenFrom_storable 0 items hitems
  | .absent, c, h | .null, c, h | .bool _, c, h | .int _, c, h | .float _, c, h
  | .str _, c, h | .list _, c, h => by simp [readGroup, Reading.fault] at h
termination_by v => sizeOf v
decreasing_by
  all_goals
    have := sizeOf_lt_of_find? ‹_›
    simp only [Value.list.sizeOf_spec, Value.obj.sizeOf_spec] at *
    omega

theorem readChildrenFrom_storable (start : Nat) : (items : List Value) →
    {children : List Condition} → readChildrenFrom start items = .ok children →
    ∀ c ∈ children, c.Storable
  | [], children, h => by
      rw [readChildrenFrom] at h
      have hnil : children = [] := (Reading.ok.inj h).symm
      simp [hnil]
  | v :: rest, children, h => by
      rw [readChildrenFrom, Reading.ap_eq_ok_iff] at h
      rcases h with ⟨_, others, hfirst, hrest, rfl⟩
      rcases Reading.functorMap_eq_ok_iff.mp hfirst with ⟨c, hc, rfl⟩
      intro d hd
      rcases List.mem_cons.mp hd with heq | hd
      · rw [heq]
        rcases eitherShape_eq_ok (Reading.within_eq_ok_iff.mp hc) with hleaf | hgroup
        · exact readLeaf_storable hleaf
        · exact readGroup_storable v hgroup
      · exact readChildrenFrom_storable (start + 1) rest hrest d hd
termination_by items => sizeOf items

end

/-- A condition that was read holds nothing but what its stored form can
hold. -/
theorem readEither_storable {v : Value} {c : Condition} (h : readEither v = .ok c) :
    c.Storable := by
  rcases eitherShape_eq_ok h with hleaf | hgroup
  · exact readLeaf_storable hleaf
  · exact readGroup_storable v hgroup

theorem read_storable {v : Value} {c : Condition} (h : read v = .ok c) : c.Storable := by
  unfold read at h
  split at h
  · split at h
    · exact readGroup_storable _ h
    · exact readLeaf_storable h
  · exact readLeaf_storable h

/-! ## No value reads as a leaf and as a group -/

theorem fieldKey_not_mem_spellings {key : FieldKey} (h : key ∈ groupKeys) :
    "field" ∉ key.spellings := by
  simp only [groupKeys, List.mem_cons, List.not_mem_nil, or_false] at h
  rcases h with heq | heq
  · rw [heq]
    decide
  · rw [heq]
    decide

/-- What reads as a leaf has a field, and so does not read as a group. -/
theorem readGroup_ne_ok_of_readLeaf {v : Value} {c d : Condition} (h : readLeaf v = .ok c) :
    readGroup v ≠ .ok d := by
  intro hgroup
  cases v with
  | obj fields =>
      rcases (readLeaf_obj_eq_ok_iff.mp h).1 with ⟨_, _, _, hfield, -⟩
      rcases Reading.required_eq_ok_iff.mp hfield with ⟨k, name, hfind, -⟩
      rcases Assoc.mem_of_first? hfind with ⟨hspelled, hentry⟩
      have hk : k = "field" := by
        simpa [fieldKey, FieldKey.single, FieldKey.spellings] using hspelled
      have hknown := Reading.unknownKeyFaults_eq_nil_iff.mp (readGroup_obj_eq_ok_iff.mp hgroup).2
      rcases hknown (k, name) hentry with ⟨key, hkey, v, hfound⟩
      have hmem := (Assoc.mem_of_first? hfound).1
      rw [hk] at hmem
      exact fieldKey_not_mem_spellings hkey hmem
  | _ => simp [readLeaf, Reading.fault] at h

theorem readEither_of_readLeaf {v : Value} {c : Condition} (h : readLeaf v = .ok c) :
    readEither v = .ok c := by
  rw [readEither, h]
  rfl

theorem readEither_of_readGroup {v : Value} {c : Condition} (h : readGroup v = .ok c) :
    readEither v = .ok c := by
  cases hleaf : readLeaf v with
  | ok d => exact absurd h (readGroup_ne_ok_of_readLeaf hleaf)
  | faulty faults =>
      rw [readEither, hleaf, h]
      rfl

/-! ## Reading back what is stored -/

theorem readOperator_storedOperator {Known : Type} {kindName : String}
    {ofName? : String → Option Known} {name : Known → String}
    (hname : ∀ op, ofName? (name op) = some op) {operator : OperatorId Known}
    (h : operator.Settled ofName?) :
    readOperator kindName ofName? (storedOperator name operator) = .ok operator := by
  cases operator with
  | known op => simp [storedOperator, readOperator, hname]
  | named s =>
      have hunknown : ofName? s = none := h
      simp [storedOperator, readOperator, hunknown]
  | numbered n => rfl

theorem readComparator_stored {operator : OperatorId Comparator}
    (h : operator.Settled Comparator.ofName?) :
    readComparator (storedOperator Comparator.name operator) = .ok operator := by
  apply readOperator_storedOperator ?_ h
  intro op
  cases op <;> decide

theorem readConnective_stored {operator : OperatorId Connective}
    (h : operator.Settled Connective.ofName?) :
    readConnective (storedOperator Connective.name operator) = .ok operator := by
  apply readOperator_storedOperator ?_ h
  intro op
  cases op <;> decide

theorem readLeaf_stored {field : String} {operator : OperatorId Comparator} {value : Value}
    (hfield : field ≠ "") (hoperator : operator.Settled Comparator.ofName?) :
    readLeaf (leaf field operator value).stored = .ok (.leaf field operator value) := by
  have hname : Reading.nonEmptyText (.str field) = .ok field :=
    Reading.nonEmptyText_eq_ok_iff.mpr ⟨rfl, hfield⟩
  apply readLeaf_obj_eq_ok_iff.mpr
  refine ⟨⟨field, operator, value, ?_, ?_, rfl, rfl⟩, rfl⟩
  · exact Reading.required_eq_ok_iff.mpr ⟨_, _, rfl, hname⟩
  · exact Reading.required_eq_ok_iff.mpr ⟨_, _, rfl, readComparator_stored hoperator⟩

theorem readChildrenFrom_storedAll (start : Nat) {children : List Condition}
    (h : ∀ c ∈ children, readEither c.stored = .ok c) :
    readChildrenFrom start (storedAll children) = .ok children := by
  induction children generalizing start with
  | nil =>
      rw [storedAll, readChildrenFrom]
  | cons c rest ih =>
      have hfirst : eitherShape (readLeaf c.stored) (readGroup c.stored) = .ok c :=
        h c List.mem_cons_self
      have hrest := ih (start + 1) fun d hd => h d (List.mem_cons_of_mem c hd)
      rw [storedAll, readChildrenFrom, hfirst, hrest]
      rfl

theorem readGroup_stored {operator : OperatorId Connective} {children : List Condition}
    (hoperator : operator.Settled Connective.ofName?)
    (hchildren : ∀ c ∈ children, readEither c.stored = .ok c) :
    readGroup (group operator children).stored = .ok (.group operator children) := by
  rw [stored]
  apply readGroup_obj_eq_ok_iff.mpr
  refine ⟨⟨operator, children, ?_, .inr ⟨_, _, rfl, ?_⟩, rfl⟩, rfl⟩
  · exact Reading.required_eq_ok_iff.mpr ⟨_, _, rfl, readConnective_stored hoperator⟩
  · exact readChildrenFrom_storedAll 0 hchildren

namespace Storable

variable {c : Condition}

/-- A condition that can be stored is read back as it was. -/
theorem readEither_stored (h : c.Storable) : readEither c.stored = .ok c := by
  induction h with
  | leaf hfield hoperator => exact readEither_of_readLeaf (readLeaf_stored hfield hoperator)
  | group hoperator _ ih => exact readEither_of_readGroup (readGroup_stored hoperator ih)

theorem read_stored (h : c.Storable) : read c.stored = .ok c := by
  cases h with
  | leaf hfield hoperator => exact readLeaf_stored hfield hoperator
  | group hoperator hchildren =>
      exact readGroup_stored hoperator fun d hd => (hchildren d hd).readEither_stored

theorem survives (h : c.Storable) : c.survivesStorage = true := by
  rw [survivesStorage, h.read_stored]
  simp [Reading.value?]

end Storable

end Condition

end FormRules
