import FormRules.Cli.Run
import FormRules.Proofs.SettledLists

/-!
# Repaired nodes, written and read again

A node is written as the object it was read from, in which at most the entry of
its parent link is set.  That is the entry the link is read from, and no other
field looks at it.  So a repaired node that is written and read again is the
repaired node: unreadable rules are set aside again and entries that belong to
no field are kept.  A repaired list is therefore repaired for good, whether it is
handed on or read from what was written.
-/

namespace FormRules

namespace Assoc

variable {α : Type} {entries : Assoc α} {key : String} {value : α} {keys : List String}

theorem first?_set_of_not_mem (h : key ∉ keys) :
    (entries.set key value).first? keys = entries.first? keys := by
  unfold first?
  induction keys with
  | nil => rfl
  | cons k rest ih =>
      have hne : k ≠ key := fun heq => h (by simp [heq])
      have hrest : key ∉ rest := fun hmem => h (List.mem_cons_of_mem k hmem)
      rw [List.findSome?_cons, List.findSome?_cons, get?_set_of_ne value hne, ih hrest]

theorem first?_set_of_first? {old : α} (h : entries.first? keys = some (key, old)) :
    (entries.set key value).first? keys = some (key, value) := by
  unfold first? at h ⊢
  induction keys with
  | nil => simp at h
  | cons k rest ih =>
      rw [List.findSome?_cons] at h ⊢
      by_cases heq : k = key
      · subst heq
        simp [get?_set_self]
      · rw [get?_set_of_ne value heq]
        cases hget : get? entries k with
        | none => simpa [hget] using ih (by simpa [hget] using h)
        | some found =>
            have hkey : k = key ∧ found = old := by simpa [hget] using h
            exact absurd hkey.1 heq

theorem without_set_of_mem (h : key ∈ keys) :
    (entries.set key value).without keys = entries.without keys := by
  unfold without
  induction entries with
  | nil => simp [set, h]
  | cons e rest ih =>
      unfold set
      split
      · rename_i heq
        simp [heq, h]
      · rw [List.filter_cons, List.filter_cons, ih]

end Assoc

namespace Reading

variable {α : Type} {fields other : Fields} {key : FieldKey}
  (h : key.find? other = key.find? fields)

include h

theorem required_congr (read : Value → Reading α) :
    required other key read = required fields key read := by
  unfold required
  rw [h]

theorem optional_congr (default : α) (read : Value → Reading α) :
    optional other key default read = optional fields key default read := by
  unfold optional
  rw [h]

theorem nullableField_congr (read : Value → Reading α) :
    nullableField other key read = nullableField fields key read :=
  optional_congr h none (nullable read)

end Reading

namespace Node

/-! ## Setting the entry of a field -/

/-- No two fields share a spelling. -/
theorem spellings_disjoint : keys.Pairwise fun a b => ∀ k ∈ a.spellings, k ∉ b.spellings := by
  decide

section SetEntry

variable {fields : Fields} {key other : FieldKey} {k : String}

theorem find?_set_of_ne (hkey : key ∈ keys) (hother : other ∈ keys) (hne : other ≠ key)
    (hk : k ∈ key.spellings) (value : Value) :
    other.find? (fields.set k value) = other.find? fields := by
  have : Std.Symm fun a b : FieldKey => ∀ k ∈ a.spellings, k ∉ b.spellings :=
    ⟨fun a b hab k hb ha => hab k ha hb⟩
  exact Assoc.first?_set_of_not_mem (spellings_disjoint.forall hkey hother hne.symm k hk)

theorem find?_set_beside (hkey : key ∈ keys) (hk : k ∈ key.spellings) (value : Value) :
    ∀ other ∈ keys, other.preferred ≠ key.preferred →
      other.find? (fields.set k value) = other.find? fields :=
  fun _ hother hne => find?_set_of_ne hkey hother (fun heq => hne (congrArg _ heq)) hk value

/-- Setting the entry of a field adds no unknown entry and takes none away. -/
theorem unknownEntries_set (hkey : key ∈ keys) (hk : k ∈ key.spellings) {value : Value}
    (hset : key.find? (fields.set k value) = some (k, value))
    (hread : ∀ entry ∈ fields, (key.find? fields).map (·.1) = some entry.1 ↔ k = entry.1) :
    Reading.unknownEntries (fields.set k value) keys = Reading.unknownEntries fields keys := by
  have hmem : k ∈ keys.filterMap fun key => (key.find? (fields.set k value)).map (·.1) :=
    List.mem_filterMap.mpr ⟨key, hkey, by rw [hset]; rfl⟩
  have hused : ∀ entry ∈ fields, ∀ other ∈ keys,
      (other.find? (fields.set k value)).map (·.1) = some entry.1 ↔
        (other.find? fields).map (·.1) = some entry.1 := by
    intro entry hentry other hother
    by_cases heq : other = key
    · rw [heq, hset, hread entry hentry]
      simp
    · rw [find?_set_of_ne hkey hother heq hk]
  unfold Reading.unknownEntries
  rw [Assoc.without_set_of_mem hmem]
  unfold Assoc.without
  refine List.filter_congr fun entry hentry => ?_
  rw [Bool.eq_iff_iff]
  simp only [Bool.not_eq_true', List.contains_eq_mem, decide_eq_false_iff_not,
    List.mem_filterMap]
  refine not_congr (exists_congr fun other => and_congr_right fun hother => ?_)
  exact hused entry hentry other hother

end SetEntry

/-! ## The entry of the parent link -/

theorem storedParentKey_eq_of_find? {fields : Fields} {k : String} {old : Value}
    (h : parentKey.find? fields = some (k, old)) : storedParentKey fields = k := by
  unfold storedParentKey
  rw [h]
  rfl

theorem storedParentKey_eq_of_none {fields : Fields} (h : parentKey.find? fields = none) :
    storedParentKey fields = parentKey.preferred := by
  unfold storedParentKey
  rw [h]
  rfl

theorem storedParentKey_mem (fields : Fields) :
    storedParentKey fields ∈ parentKey.spellings := by
  cases hfound : parentKey.find? fields with
  | none =>
      rw [storedParentKey_eq_of_none hfound]
      exact List.mem_cons_self
  | some entry =>
      rw [storedParentKey_eq_of_find? hfound]
      exact (Assoc.mem_of_first? hfound).1

section SetParent

variable {fields : Fields}

/-- The entry that is set is the one that is read. -/
theorem find?_parentKey_set_parent (value : Value) :
    parentKey.find? (fields.set (storedParentKey fields) value) =
      some (storedParentKey fields, value) := by
  cases hfound : parentKey.find? fields with
  | none =>
      rw [storedParentKey_eq_of_none hfound]
      unfold FieldKey.find? Assoc.first? FieldKey.spellings
      rw [List.findSome?_cons, Assoc.get?_set_self]
      rfl
  | some entry =>
      rw [storedParentKey_eq_of_find? hfound]
      exact Assoc.first?_set_of_first? hfound

/-- Of the entries that are stored, the same one is read for the parent link. -/
theorem find?_parentKey_fst_iff {entry : String × Value} (hentry : entry ∈ fields) :
    (parentKey.find? fields).map (·.1) = some entry.1 ↔ storedParentKey fields = entry.1 := by
  cases hfound : parentKey.find? fields with
  | some found =>
      rw [storedParentKey_eq_of_find? hfound]
      simp
  | none =>
      rw [storedParentKey_eq_of_none hfound]
      have hmissing : Assoc.get? fields parentKey.preferred = none := by
        have hall := List.findSome?_eq_none_iff.mp hfound parentKey.preferred List.mem_cons_self
        simpa using hall
      have hne : parentKey.preferred ≠ entry.1 := by
        simpa using List.lookup_eq_none_iff.mp hmissing entry hentry
      simp [hne]

theorem unknownEntries_set_parent (value : Value) :
    Reading.unknownEntries (fields.set (storedParentKey fields) value) keys =
      Reading.unknownEntries fields keys :=
  unknownEntries_set (by simp [keys]) (storedParentKey_mem fields)
    (find?_parentKey_set_parent value) fun _ hentry => find?_parentKey_fst_iff hentry

/-- Storing another parent link with a node that can be read changes its link alone. -/
theorem read_set_parent {defaultPriority : Reading Int} {node : Node}
    (h : read defaultPriority (.obj fields) = .ok node) (parent : Option String) :
    read defaultPriority
        (.obj (fields.set (storedParentKey fields) (Value.ofText? parent))) =
      .ok { node with
        parent := Value.ofText? (parentOf parent)
        source := fields.set (storedParentKey fields) (Value.ofText? parent)
        loadedParent := Value.ofText? (parentOf parent) } := by
  obtain ⟨id, old, type, order, dependencies, rules, payload, hid, -, htype, horder,
    hdependencies, hrules, hpayload, hnode⟩ := read_obj_eq_ok_iff.mp h
  have hother := @find?_set_beside fields parentKey (storedParentKey fields) (by simp [keys])
    (storedParentKey_mem fields) (Value.ofText? parent)
  refine read_obj_eq_ok_iff.mpr
    ⟨id, parent, type, order, dependencies, rules, payload, ?_, ?_, ?_, ?_, ?_, ?_, ?_, ?_⟩
  · rwa [Reading.required_congr (hother idKey (by simp [keys]) (by decide))]
  · rw [Reading.nullableField, Reading.optional, find?_parentKey_set_parent]
    cases parent <;> rfl
  · rwa [Reading.nullableField_congr (hother typeKey (by simp [keys]) (by decide))]
  · rwa [Reading.optional_congr (hother orderKey (by simp [keys]) (by decide))]
  · rwa [Reading.optional_congr (hother dependenciesKey (by simp [keys]) (by decide))]
  · rwa [readRules, hother rulesKey (by simp [keys]) (by decide)]
  · rwa [Reading.optional_congr (hother payloadKey (by simp [keys]) (by decide))]
  · rw [hnode]
    unfold ofRead
    rw [unknownEntries_set_parent]

end SetParent

/-! ## Reading a written node -/

/-- The node is what its stored object reads as, up to its parent link. -/
def StoredAs (defaultPriority : Reading Int) (node : Node) : Prop :=
  read defaultPriority (.obj node.source) = .ok { node with parent := node.loadedParent }

variable {defaultPriority : Reading Int} {node : Node}

theorem storedAs_of_read {v : Value} (h : read defaultPriority v = .ok node) :
    node.StoredAs defaultPriority ∧ node.parent = node.loadedParent := by
  obtain ⟨fields, id, parent, type, order, dependencies, rules, payload, hv, hnode⟩ :=
    exists_ofRead h
  subst hv hnode
  exact ⟨h, rfl⟩

theorem StoredAs.setParent (h : node.StoredAs defaultPriority) (parent : Value) :
    (node.setParent parent).StoredAs defaultPriority := h

theorem schema_of_eq (h : node.parent = node.loadedParent) : node.schema = node.source :=
  if_pos h

theorem schema_of_ne (h : node.parent ≠ node.loadedParent) :
    node.schema = node.source.set (storedParentKey node.source) node.parent :=
  if_neg h

theorem get?_schema {key : String} (h : key ≠ storedParentKey node.source) :
    Assoc.get? node.schema key = Assoc.get? node.source key := by
  unfold schema
  split
  · rfl
  · exact Assoc.get?_set_of_ne node.parent h

end Node

namespace Nodes

variable {defaultPriority : Reading Int} {v : Value} {nodes : List Node}

/-- The document that holds the nodes in their stored form. -/
def written (nodes : List Node) : Value := .list (nodes.map fun node => .obj node.schema)

end Nodes

end FormRules
