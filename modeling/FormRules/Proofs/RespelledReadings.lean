import FormRules.Proofs.Spellings

/-!
# Readings of respelled values

Of an object that gives no field twice, a field is read from the one entry under
any of its spellings.  The plain spelling of the object has that entry under the
preferred key, so what is read for the field is the same but for the key in the
places of faults.  Entries that belong to no field stay.  Going through the fields
of conditions, rules and nodes one by one, and through their lists by induction,
either spelling gives the same reading, or as many faults.
-/

namespace FormRules

namespace Reading

variable {α β : Type}

/-- Both readings give a result, and these are the same, or both fail with as many
faults. -/
inductive Alike (same : α → α → Prop) : Reading α → Reading α → Prop where
  | ok {a b : α} (h : same a b) : Alike same (.ok a) (.ok b)
  | faulty {faults more : List Fault} (h : faults.length = more.length) :
      Alike same (.faulty faults) (.faulty more)

namespace Alike

theorem refl (a : Reading α) : Alike Eq a a := by
  cases a with
  | ok a => exact .ok rfl
  | faulty faults => exact .faulty rfl

theorem of_eq {a b : Reading α} (h : a = b) : Alike Eq a b := h ▸ refl a

section Relation

variable {same : α → α → Prop} {a b c : Reading α}

theorem symm (hsymm : ∀ x y, same x y → same y x) (h : Alike same a b) : Alike same b a := by
  cases h with
  | ok h => exact .ok (hsymm _ _ h)
  | faulty h => exact .faulty h.symm

theorem trans (htrans : ∀ x y z, same x y → same y z → same x z) (hab : Alike same a b)
    (hbc : Alike same b c) : Alike same a c := by
  cases hab with
  | ok hab =>
      cases hbc with
      | ok hbc => exact .ok (htrans _ _ _ hab hbc)
  | faulty hab =>
      cases hbc with
      | faulty hbc => exact .faulty (hab.trans hbc)

theorem within (h : Alike same a b) (step other : String) :
    Alike same (a.within step) (b.within other) := by
  cases h with
  | ok h => exact .ok h
  | faulty h =>
      apply Alike.faulty
      rw [List.length_map, List.length_map, h]

theorem withFaults (h : Alike same a b) {faults more : List Fault}
    (hlength : faults.length = more.length) :
    Alike same (a.withFaults faults) (b.withFaults more) := by
  have hempty : faults.isEmpty = more.isEmpty := by
    cases faults <;> cases more <;> simp_all
  unfold Reading.withFaults
  rw [hempty]
  split
  · exact h
  · apply Alike.faulty
    rw [List.length_append, List.length_append, hlength]
    cases h with
    | ok h => rfl
    | faulty h => exact congrArg (· + more.length) h

end Relation

theorem map {same : β → β → Prop} {f g : α → β} {a b : Reading α}
    (hfg : ∀ x, same (f x) (g x)) (h : Alike Eq a b) : Alike same (f <$> a) (g <$> b) := by
  cases h with
  | ok h => exact .ok (h ▸ hfg _)
  | faulty h => exact .faulty h

theorem seq {same : β → β → Prop} {f g : Reading (α → β)} {a b : Reading α}
    (hfg : Alike (fun f g => ∀ x, same (f x) (g x)) f g) (h : Alike Eq a b) :
    Alike same (f <*> a) (g <*> b) := by
  cases hfg with
  | ok hfg =>
      cases h with
      | ok h => exact .ok (h ▸ hfg _)
      | faulty h => exact .faulty h
  | faulty hfg =>
      cases h with
      | ok h => exact .faulty hfg
      | faulty h =>
          apply Alike.faulty
          rw [List.length_append, List.length_append, hfg, h]

end Alike

end Reading

/-- The node without the object it was read from. -/
def Node.unsourced (node : Node) : Node := { node with source := [] }

/-- The nodes agree in everything but the objects they were read from. -/
def Node.SameButSource (a b : Node) : Prop := a.unsourced = b.unsourced

namespace Stored

open Reading (Alike)

/-! ## Fields that are given once -/

section Fields

variable {key : FieldKey} {fields : Fields}

theorem eq_of_timesGiven_le_one (honce : timesGiven key fields ≤ 1) {a b : String × Value}
    (ha : a ∈ fields) (hb : b ∈ fields) (hka : a.1 ∈ key.spellings) (hkb : b.1 ∈ key.spellings) :
    a = b := by
  unfold timesGiven at honce
  rw [List.countP_eq_length_filter] at honce
  have hma : a ∈ fields.filter fun entry => key.spellings.contains entry.1 := by
    simpa using ⟨ha, hka⟩
  have hmb : b ∈ fields.filter fun entry => key.spellings.contains entry.1 := by
    simpa using ⟨hb, hkb⟩
  cases hgiven : fields.filter fun entry => key.spellings.contains entry.1 with
  | nil => exact absurd (hgiven ▸ hma) List.not_mem_nil
  | cons found rest =>
      rw [hgiven] at honce hma hmb
      have hrest : rest = [] := by simpa using honce
      rw [hrest, List.mem_singleton] at hma hmb
      exact hma.trans hmb.symm

theorem exists_find?_of_mem {entry : String × Value} (hentry : entry ∈ fields)
    (hk : entry.1 ∈ key.spellings) : ∃ found, key.find? fields = some found := by
  apply Option.ne_none_iff_exists'.mp
  intro hnone
  have hmissing : Assoc.get? fields entry.1 = none := by
    simpa using List.findSome?_eq_none_iff.mp hnone entry.1 hk
  have hne := List.lookup_eq_none_iff.mp hmissing entry hentry
  simp at hne

/-- Where a field is given once at most, the entry found for it is the one under
a spelling of it. -/
theorem find?_eq_some_iff (honce : timesGiven key fields ≤ 1) {entry : String × Value} :
    key.find? fields = some entry ↔ entry ∈ fields ∧ entry.1 ∈ key.spellings := by
  constructor
  · intro hfind
    exact (Assoc.mem_of_first? hfind).symm
  · intro hentry
    rcases exists_find?_of_mem hentry.1 hentry.2 with ⟨found, hfound⟩
    have hmem := Assoc.mem_of_first? hfound
    have heq : found = entry :=
      eq_of_timesGiven_le_one honce hmem.2 hentry.1 hmem.1 hentry.2
    rw [hfound, heq]

theorem unknownEntries_eq_filter {keys : List FieldKey}
    (honce : ∀ key ∈ keys, timesGiven key fields ≤ 1) :
    Reading.unknownEntries fields keys =
      fields.filter fun entry => keys.all fun key => !key.spellings.contains entry.1 := by
  unfold Reading.unknownEntries Assoc.without
  apply List.filter_congr
  intro entry hentry
  rw [Bool.eq_iff_iff]
  simp only [Bool.not_eq_true', List.contains_eq_mem, decide_eq_false_iff_not, List.mem_filterMap,
    List.all_eq_true, Option.map_eq_some_iff, not_exists, not_and]
  apply forall₂_congr
  intro key hkey
  constructor
  · intro hread hk
    exact hread entry ((find?_eq_some_iff (honce key hkey)).mpr ⟨hentry, hk⟩) rfl
  · intro hk found hfound heq
    exact hk (heq ▸ (Assoc.mem_of_first? hfound).1)

end Fields

section PlainEntries

variable {layout : Layout} {key : FieldKey} {role : Role} {fields : Fields}

/-- In preferred spelling, a field is found with its value in preferred
spelling. -/
theorem find?_plainEntries (hfield : (key, role) ∈ layout.fields)
    (honce : timesGiven key fields ≤ 1) :
    key.find? (plainEntries layout fields) =
      (key.find? fields).map fun entry => (key.preferred, plainForm role entry.2) := by
  apply Option.ext
  intro entry
  rw [find?_eq_some_iff ((timesGiven_plainEntries hfield fields).trans_le honce),
    plainEntries_eq_map, Option.map_eq_some_iff, List.mem_map]
  constructor
  · intro hentry
    rcases hentry with ⟨⟨old, hold, rfl⟩, hk⟩
    have hkold := (plainEntry_mem_spellings_iff hfield old).mp hk
    exact ⟨old, (find?_eq_some_iff honce).mpr ⟨hold, hkold⟩,
      (plainEntry_of_field hfield hkold).symm⟩
  · intro hfound
    rcases hfound with ⟨old, hold, rfl⟩
    rcases (find?_eq_some_iff honce).mp hold with ⟨hmem, hk⟩
    exact ⟨⟨old, hmem, plainEntry_of_field hfield hk⟩, List.mem_cons_self⟩

theorem unknownEntries_plainEntries {keys : List FieldKey} (hkeys : ∀ key ∈ keys, key ∈ layout.keys)
    (honce : ∀ key ∈ layout.keys, timesGiven key fields ≤ 1) :
    Reading.unknownEntries (plainEntries layout fields) keys =
      (Reading.unknownEntries fields keys).map (plainEntry layout) := by
  have honce' : ∀ key ∈ keys, timesGiven key (plainEntries layout fields) ≤ 1 := by
    intro key hkey
    rcases List.mem_map.mp (hkeys key hkey) with ⟨f, hf, rfl⟩
    exact (timesGiven_plainEntries hf fields).trans_le (honce _ (hkeys _ hkey))
  rw [unknownEntries_eq_filter honce', unknownEntries_eq_filter fun key hkey =>
    honce key (hkeys key hkey), plainEntries_eq_map, List.filter_map]
  congr 1
  apply List.filter_congr
  intro entry _
  rw [Bool.eq_iff_iff, Function.comp_apply, List.all_eq_true, List.all_eq_true]
  apply forall₂_congr
  intro key hkey
  rcases List.mem_map.mp (hkeys key hkey) with ⟨f, hf, rfl⟩
  simpa using not_congr (plainEntry_mem_spellings_iff hf entry)

section OneField

variable (hfield : (key, role) ∈ layout.fields)
  (honce : ∀ key ∈ layout.keys, timesGiven key fields ≤ 1)

include hfield honce

theorem isSome_find?_plainEntries :
    (key.find? (plainEntries layout fields)).isSome = (key.find? fields).isSome := by
  rw [find?_plainEntries hfield (honce key (List.mem_map.mpr ⟨_, hfield, rfl⟩)), Option.isSome_map]

theorem optional_alike {α : Type} {read : Value → Reading α} (default : α)
    (hread : ∀ entry, key.find? fields = some entry →
      Alike Eq (read entry.2) (read (plainForm role entry.2))) :
    Alike Eq (Reading.optional fields key default read)
      (Reading.optional (plainEntries layout fields) key default read) := by
  unfold Reading.optional
  rw [find?_plainEntries hfield (honce key (List.mem_map.mpr ⟨_, hfield, rfl⟩))]
  cases hfind : key.find? fields with
  | none => exact .refl _
  | some entry => exact (hread entry hfind).within entry.1 key.preferred

theorem required_alike {α : Type} {read : Value → Reading α}
    (hread : ∀ entry, key.find? fields = some entry →
      Alike Eq (read entry.2) (read (plainForm role entry.2))) :
    Alike Eq (Reading.required fields key read)
      (Reading.required (plainEntries layout fields) key read) := by
  unfold Reading.required
  rw [find?_plainEntries hfield (honce key (List.mem_map.mpr ⟨_, hfield, rfl⟩))]
  cases hfind : key.find? fields with
  | none => exact .refl _
  | some entry => exact (hread entry hfind).within entry.1 key.preferred

end OneField

section PlainField

variable {α : Type} (hfield : (key, .plain) ∈ layout.fields)
  (honce : ∀ key ∈ layout.keys, timesGiven key fields ≤ 1) (read : Value → Reading α)

include hfield honce

theorem optional_plain (default : α) :
    Alike Eq (Reading.optional fields key default read)
      (Reading.optional (plainEntries layout fields) key default read) :=
  optional_alike hfield honce default fun entry _ => .of_eq (by rw [plainForm_plain])

theorem required_plain :
    Alike Eq (Reading.required fields key read)
      (Reading.required (plainEntries layout fields) key read) :=
  required_alike hfield honce fun entry _ => .of_eq (by rw [plainForm_plain])

theorem nullableField_plain :
    Alike Eq (Reading.nullableField fields key read)
      (Reading.nullableField (plainEntries layout fields) key read) :=
  optional_plain hfield honce (Reading.nullable read) none

end PlainField

end PlainEntries

/-! ## Conditions -/

theorem readOperator_plainForm {Known : Type} {name : Known → String}
    {ofName? : String → Option Known} (h : Spells name ofName?) (kindName s : String) :
    Condition.readOperator kindName ofName? (.str (operatorName name ofName? s)) =
      Condition.readOperator kindName ofName? (.str s) := by
  unfold operatorName
  cases hs : ofName? s with
  | none => rfl
  | some op => simp [Condition.readOperator, hs, h.ofName?_name]

theorem readComparator_plainForm (v : Value) :
    Condition.readComparator (plainForm .comparator v) = Condition.readComparator v := by
  cases v with
  | str s => exact readOperator_plainForm spells_comparator "ComparisonOperator" s
  | _ => rfl

theorem readConnective_plainForm (v : Value) :
    Condition.readConnective (plainForm .connective v) = Condition.readConnective v := by
  cases v with
  | str s => exact readOperator_plainForm spells_connective "LogicalOperator" s
  | _ => rfl

theorem eitherShape_alike {leaf leaf' group group' : Reading Condition}
    (hleaf : Alike Eq leaf leaf') (hgroup : Alike Eq group group') :
    Alike Eq (Condition.eitherShape leaf group) (Condition.eitherShape leaf' group') := by
  cases hleaf with
  | ok hleaf => exact .ok hleaf
  | faulty hleaf =>
      cases hgroup with
      | ok hgroup => exact .ok hgroup
      | faulty hgroup =>
          apply Alike.faulty
          simp [hleaf, hgroup]

theorem unknownKeyFaults_length {layout : Layout} {fields : Fields} {keys : List FieldKey}
    (hkeys : ∀ key ∈ keys, key ∈ layout.keys)
    (honce : ∀ key ∈ layout.keys, timesGiven key fields ≤ 1) :
    (Reading.unknownKeyFaults fields keys).length =
      (Reading.unknownKeyFaults (plainEntries layout fields) keys).length := by
  unfold Reading.unknownKeyFaults
  rw [unknownEntries_plainEntries hkeys honce, List.length_map, List.length_map, List.length_map]

/-- Reads the children of a group from the value under their key. -/
def readChildren : Value → Reading (List Condition)
  | .list items => Condition.readChildrenFrom 0 items
  | _ => Reading.fault .notAList

theorem readGroup_obj (fields : Fields) :
    Condition.readGroup (.obj fields) =
      (Condition.group <$> Reading.required fields Condition.connectiveKey Condition.readConnective
        <*> Reading.optional fields Condition.childrenKey [] readChildren).withFaults
        (Reading.unknownKeyFaults fields Condition.groupKeys) := by
  rw [Condition.readGroup]
  congr 2
  unfold Reading.optional readChildren
  split
  · rename_i hfind
    rw [hfind]
  · rename_i k v hnot hfind
    rw [hfind]
    cases v with
    | list items => exact absurd rfl (hnot items)
    | _ => rfl
  · rename_i hfind
    rw [hfind]

theorem eachFrom_alike {α : Type} {read : Value → Reading α} {layout : Layout} {items : List Value}
    (h : ∀ v ∈ items, Alike Eq (read v) (read (plainForm (.one layout) v))) (start : Nat) :
    Alike Eq (Reading.eachFrom read start items)
      (Reading.eachFrom read start (plainItems layout items)) := by
  induction items generalizing start with
  | nil => exact .refl _
  | cons v rest ih =>
      rw [plainItems, Reading.eachFrom, Reading.eachFrom]
      have hfirst := h v List.mem_cons_self
      have hrest := ih (fun w hw => h w (List.mem_cons_of_mem v hw)) (start + 1)
      exact Alike.seq (Alike.map (fun _ _ => rfl) (hfirst.within _ _)) hrest

theorem readChildrenFrom_eq_eachFrom (start : Nat) (items : List Value) :
    Condition.readChildrenFrom start items =
      Reading.eachFrom Condition.readEither start items := by
  induction items generalizing start with
  | nil => rw [Condition.readChildrenFrom, Reading.eachFrom]
  | cons v rest ih =>
      rw [Condition.readChildrenFrom, Reading.eachFrom, ih]
      rfl

section Condition

variable {fields : Fields}

theorem readLeaf_alike (honce : ∀ key ∈ Layout.condition.keys, timesGiven key fields ≤ 1) :
    Alike Eq (Condition.readLeaf (.obj fields))
      (Condition.readLeaf (.obj (plainEntries .condition fields))) := by
  have hfield : (Condition.fieldKey, Role.plain) ∈ Layout.condition.fields := by decide
  have hoperator : (Condition.operatorKey, Role.comparator) ∈ Layout.condition.fields := by decide
  have hvalue : (Condition.valueKey, Role.plain) ∈ Layout.condition.fields := by decide
  rw [Condition.readLeaf, Condition.readLeaf]
  apply Alike.withFaults
  · refine .seq (.seq (.map (fun _ _ => ?_) (required_plain hfield honce _)) ?_) ?_
    · exact fun _ => rfl
    · exact required_alike hoperator honce fun entry _ =>
        .of_eq (readComparator_plainForm entry.2).symm
    · exact optional_plain hvalue honce _ _
  · exact unknownKeyFaults_length (by decide) honce

theorem readGroup_alike (honce : ∀ key ∈ Layout.condition.keys, timesGiven key fields ≤ 1)
    (hchildren : ∀ entry, Condition.childrenKey.find? fields = some entry →
      Alike Eq (readChildren entry.2) (readChildren (plainForm (.many .condition) entry.2))) :
    Alike Eq (Condition.readGroup (.obj fields))
      (Condition.readGroup (.obj (plainEntries .condition fields))) := by
  have hconnective : (Condition.connectiveKey, Role.connective) ∈ Layout.condition.fields := by
    decide
  have hmany : (Condition.childrenKey, Role.many .condition) ∈ Layout.condition.fields := by
    decide
  rw [readGroup_obj, readGroup_obj]
  apply Alike.withFaults
  · refine .seq (.map (fun _ _ => rfl) ?_) (optional_alike hmany honce _ hchildren)
    exact required_alike hconnective honce fun entry _ =>
      .of_eq (readConnective_plainForm entry.2).symm
  · exact unknownKeyFaults_length (by decide) honce

/-- A condition is read alike in preferred spelling, as a leaf and as a
group. -/
theorem readShapes_alike {v : Value} (h : unambiguous (.one .condition) v = true) :
    Alike Eq (Condition.readLeaf v) (Condition.readLeaf (plainForm (.one .condition) v)) ∧
      Alike Eq (Condition.readGroup v) (Condition.readGroup (plainForm (.one .condition) v)) := by
  induction hsize : sizeOf v using Nat.strong_induction_on generalizing v with
  | h n ih =>
      cases v with
      | obj fields =>
          rcases unambiguous_one_iff.mp h with ⟨honce, hentries⟩
          have hmany : (Condition.childrenKey, Role.many .condition) ∈ Layout.condition.fields := by
            decide
          refine ⟨readLeaf_alike honce, readGroup_alike honce fun entry hfind => ?_⟩
          have hsmaller := Condition.sizeOf_lt_of_find? hfind
          have hmem := Assoc.mem_of_first? hfind
          have hentry := unambiguous_value_of_mem hmany hentries hmem.2 hmem.1
          rcases entry with ⟨k, v⟩
          cases v with
          | list items =>
              rw [plainForm, readChildren, readChildren, readChildrenFrom_eq_eachFrom,
                readChildrenFrom_eq_eachFrom]
              refine eachFrom_alike (fun w hw => ?_) 0
              have hitem := unambiguousItems_iff.mp hentry w hw
              have hlt : sizeOf w < n := by
                have := List.sizeOf_lt_of_mem hw
                simp only [Value.list.sizeOf_spec, Value.obj.sizeOf_spec] at hsmaller hsize
                omega
              have hshapes := ih (sizeOf w) hlt hitem rfl
              exact eitherShape_alike hshapes.1 hshapes.2
          | _ => exact .refl _
      | _ => exact ⟨.refl _, .refl _⟩

theorem readEither_alike {v : Value} (h : unambiguous (.one .condition) v = true) :
    Alike Eq (Condition.readEither v) (Condition.readEither (plainForm (.one .condition) v)) :=
  eitherShape_alike (readShapes_alike h).1 (readShapes_alike h).2

theorem read_alike {v : Value} (h : unambiguous (.one .condition) v = true) :
    Alike Eq (Condition.read v) (Condition.read (plainForm (.one .condition) v)) := by
  cases v with
  | obj fields =>
      have hconnective : (Condition.connectiveKey, Role.connective) ∈ Layout.condition.fields := by
        decide
      have hsome := isSome_find?_plainEntries hconnective (unambiguous_one_iff.mp h).1
      have hshapes := readShapes_alike h
      rw [plainForm] at hshapes ⊢
      unfold Condition.read
      dsimp only
      rw [hsome]
      split
      · exact hshapes.2
      · exact hshapes.1
  | _ => exact .refl _

end Condition

/-! ## Rules -/

section Rule

theorem readWith_alike {v : Value} (h : unambiguous (.one .rule) v = true) (priority : Int) :
    Alike Eq (Rule.readWith priority v) (Rule.readWith priority (plainForm (.one .rule) v)) := by
  cases v with
  | obj fields =>
      rcases unambiguous_one_iff.mp h with ⟨honce, hentries⟩
      have hcondition : (Rule.conditionKey, Role.one .condition) ∈ Layout.rule.fields := by decide
      rw [plainForm, Rule.readWith, Rule.readWith]
      refine .seq (.seq (.seq (.seq (.seq (.seq (.seq (.seq (.seq (.seq (.map ?_ ?_) ?_) ?_) ?_) ?_)
        ?_) ?_) ?_) ?_) ?_) ?_
      · exact fun _ _ _ _ _ _ _ _ _ _ _ => rfl
      · exact required_plain (by decide) honce _
      · exact nullableField_plain (by decide) honce _
      · refine required_alike hcondition honce fun entry hfind => ?_
        have hmem := Assoc.mem_of_first? hfind
        exact readEither_alike (unambiguous_value_of_mem hcondition hentries hmem.2 hmem.1)
      · exact required_plain (by decide) honce _
      · exact nullableField_plain (by decide) honce _
      · exact nullableField_plain (by decide) honce _
      · exact nullableField_plain (by decide) honce _
      · exact optional_plain (by decide) honce _ _
      · exact optional_plain (by decide) honce _ _
      · exact nullableField_plain (by decide) honce _
      · exact optional_plain (by decide) honce _ _
  | _ => exact .refl _

theorem takesDefaultPriority_plainForm {v : Value} (h : unambiguous (.one .rule) v = true) :
    Rule.takesDefaultPriority (plainForm (.one .rule) v) = Rule.takesDefaultPriority v := by
  cases v with
  | obj fields =>
      have hpriority : (Rule.priorityKey, Role.plain) ∈ Layout.rule.fields := by decide
      have hsome := isSome_find?_plainEntries hpriority (unambiguous_one_iff.mp h).1
      rw [plainForm]
      unfold Rule.takesDefaultPriority
      dsimp only
      rw [← Option.not_isSome, ← Option.not_isSome, hsome]
  | _ => rfl

theorem readRule_alike {v : Value} (h : unambiguous (.one .rule) v = true)
    (defaultPriority : Reading Int) :
    Alike Eq (Rule.read defaultPriority v)
      (Rule.read defaultPriority (plainForm (.one .rule) v)) := by
  unfold Rule.read
  cases defaultPriority with
  | ok priority => exact readWith_alike h priority
  | faulty faults =>
      dsimp only
      rw [takesDefaultPriority_plainForm h]
      split
      · exact .refl _
      · exact readWith_alike h 0

theorem rejectedId_plainForm {v : Value} (h : unambiguous (.one .rule) v = true) :
    Node.rejectedId (plainForm (.one .rule) v) = Node.rejectedId v := by
  cases v with
  | obj fields =>
      have hid : (Rule.idKey, Role.plain) ∈ Layout.rule.fields := by decide
      have hget : ∀ entries : Fields,
          Assoc.get? entries "id" = (Rule.idKey.find? entries).map (·.2) := by
        intro entries
        unfold FieldKey.find? Assoc.first? Rule.idKey FieldKey.single FieldKey.spellings
        cases hfound : Assoc.get? entries "id" <;> simp [hfound]
      have honce := (unambiguous_one_iff.mp h).1 Rule.idKey (by decide)
      rw [plainForm]
      unfold Node.rejectedId
      dsimp only
      rw [hget, hget, find?_plainEntries hid honce, Option.map_map]
      simp only [Function.comp_def, plainForm_plain]
  | _ => rfl

theorem readRulesFrom_plainItems {items : List Value} (h : unambiguousItems .rule items = true)
    (defaultPriority : Reading Int) (start : Nat) :
    Node.readRulesFrom defaultPriority start (plainItems .rule items) =
      Node.readRulesFrom defaultPriority start items := by
  induction items generalizing start with
  | nil => rfl
  | cons v rest ih =>
      rw [unambiguousItems, Bool.and_eq_true] at h
      have hrule := readRule_alike h.1 defaultPriority
      rw [plainItems, Node.readRulesFrom, Node.readRulesFrom, ih h.2, rejectedId_plainForm h.1]
      generalize Rule.read defaultPriority v = first at hrule
      generalize Rule.read defaultPriority (plainForm (.one .rule) v) = other at hrule
      cases hrule with
      | ok hrule => rw [hrule]
      | faulty hrule =>
        dsimp only
        rw [hrule]

end Rule

/-! ## Nodes -/

section Node

theorem plainEntries_unknown {layout : Layout} {fields : Fields}
    (honce : ∀ key ∈ layout.keys, timesGiven key fields ≤ 1) :
    Reading.unknownEntries (plainEntries layout fields) layout.keys =
      Reading.unknownEntries fields layout.keys := by
  rw [unknownEntries_plainEntries (fun _ hkey => hkey) honce]
  refine (List.map_congr_left fun entry hentry => ?_).trans (List.map_id _)
  rw [unknownEntries_eq_filter honce, List.mem_filter] at hentry
  apply plainEntry_of_other
  apply Option.eq_none_iff_forall_ne_some.mpr
  intro f hf
  rcases mem_of_field? hf with ⟨hmem, hk⟩
  have hnone := List.all_eq_true.mp hentry.2 f.1 (List.mem_map.mpr ⟨f, hmem, rfl⟩)
  simp [hk] at hnone

theorem readRules_alike {fields : Fields}
    (honce : ∀ key ∈ Layout.node.keys, timesGiven key fields ≤ 1)
    (hentries : unambiguousEntries .node fields = true) (defaultPriority : Reading Int) :
    Alike Eq (Node.readRules defaultPriority fields)
      (Node.readRules defaultPriority (plainEntries .node fields)) := by
  have hrules : (Node.rulesKey, Role.many .rule) ∈ Layout.node.fields := by decide
  unfold Node.readRules
  rw [find?_plainEntries hrules (honce _ (by decide))]
  cases hfind : Node.rulesKey.find? fields with
  | none => exact .refl _
  | some entry =>
      have hmem := Assoc.mem_of_first? hfind
      have hentry := unambiguous_value_of_mem hrules hentries hmem.2 hmem.1
      rcases entry with ⟨k, v⟩
      cases v with
      | list items =>
          apply Alike.of_eq
          exact congrArg Reading.ok (readRulesFrom_plainItems hentry defaultPriority 0).symm
      | _ => exact .faulty rfl

/-- A node is read alike in preferred spelling, but for the object it was read
from. -/
theorem readNode_alike {v : Value} (h : unambiguous (.one .node) v = true)
    (defaultPriority : Reading Int) :
    Alike Node.SameButSource (Node.read defaultPriority v)
      (Node.read defaultPriority (plainForm (.one .node) v)) := by
  cases v with
  | obj fields =>
      rcases unambiguous_one_iff.mp h with ⟨honce, hentries⟩
      have hextra : Reading.unknownEntries (plainEntries .node fields) Node.keys =
          Reading.unknownEntries fields Node.keys := plainEntries_unknown honce
      rw [plainForm, Node.read, Node.read]
      refine .seq (.seq (.seq (.seq (.seq (.seq (.map ?_ ?_) ?_) ?_) ?_) ?_) ?_) ?_
      · intro id parent type order dependencies rules payload
        unfold Node.SameButSource Node.unsourced Node.ofRead
        rw [hextra]
      · exact required_plain (by decide) honce _
      · exact nullableField_plain (by decide) honce _
      · exact nullableField_plain (by decide) honce _
      · exact optional_plain (by decide) honce _ _
      · exact optional_plain (by decide) honce _ _
      · exact readRules_alike honce hentries defaultPriority
      · exact optional_plain (by decide) honce _ _
  | _ => exact .faulty rfl

end Node

end Stored

end FormRules
