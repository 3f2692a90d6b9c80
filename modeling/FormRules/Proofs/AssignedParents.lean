import FormRules.Proofs.WrittenNodes

/-!
# Nodes whose parent is assigned after reading

A node that was read can be given another parent, any text or none, and written
back.  The object it was read from comes back as it was when the parent is the
one that was read; otherwise one entry of it is set: the one the parent was read
from, or a new one under the preferred key.  What is written can be read again,
and only the parent has changed.  A blank text that is assigned is written as it
is and read as no parent.  So there is one more parent that gives the object
back, the blank text that is stored already: the entry is set to what it was.
-/

namespace FormRules

namespace Assoc

variable {α : Type} {entries : Assoc α} {key : String} {value : α}

theorem set_eq_self_iff : entries.set key value = entries ↔ entries.get? key = some value := by
  constructor
  · intro hsame
    rw [← hsame]
    exact get?_set_self entries key value
  · intro hget
    induction entries with
    | nil => simp [get?] at hget
    | cons e rest ih =>
        rcases e with ⟨k, v⟩
        unfold get? at hget
        rw [List.lookup_cons] at hget
        by_cases heq : k = key
        · subst heq
          have hvalue : v = value := by simpa using hget
          rw [set, if_pos rfl, hvalue]
        · have hne : (key == k) = false := by simpa using Ne.symm heq
          rw [hne] at hget
          rw [set, if_neg heq, ih hget]

end Assoc

namespace Node

variable {defaultPriority : Reading Int} {fields : Fields} {node : Node}

/-- What becomes of a node that was read from an object and is given a parent. -/
structure AssignedParent (defaultPriority : Reading Int) (fields : Fields) (node : Node)
    (parent : Option String) : Prop where
  /-- The entry that is set is the one the parent is read from. -/
  key : storedParentKey fields =
    if fields.has "parentId" then "parentId"
    else if fields.has "parent_id" then "parent_id" else "parentId"
  keyRead : ∀ k v, parentKey.find? fields = some (k, v) → storedParentKey fields = k
  kept : node.parent = Value.ofText? parent →
    (node.setParent (Value.ofText? parent)).schema = fields
  patched : node.parent ≠ Value.ofText? parent →
    (node.setParent (Value.ofText? parent)).schema =
      fields.set (storedParentKey fields) (Value.ofText? parent)
  /-- Setting the entry makes no difference only where it holds the same blank text. -/
  kept_iff : (node.setParent (Value.ofText? parent)).schema = fields ↔
    node.parent = Value.ofText? parent ∨
      ∃ text, parent = some text ∧ Text.isBlank text = true ∧
        Assoc.get? fields (storedParentKey fields) = some (.str text)
  elsewhere : ∀ key ≠ storedParentKey fields,
    Assoc.get? (node.setParent (Value.ofText? parent)).schema key = Assoc.get? fields key
  readAgain : read defaultPriority (.obj (node.setParent (Value.ofText? parent)).schema) =
    .ok { node with
      parent := Value.ofText? (parentOf parent)
      source := (node.setParent (Value.ofText? parent)).schema
      loadedParent := Value.ofText? (parentOf parent) }

theorem source_of_read (h : read defaultPriority (.obj fields) = .ok node) :
    node.source = fields := by
  rcases read_obj_eq_ok_iff.mp h with ⟨_, _, _, _, _, _, _, -, -, -, -, -, -, -, hnode⟩
  rw [hnode]
  rfl

theorem storedParentKey_eq (fields : Fields) : storedParentKey fields =
    if fields.has "parentId" then "parentId"
    else if fields.has "parent_id" then "parent_id" else "parentId" := by
  unfold storedParentKey FieldKey.find? Assoc.first? FieldKey.spellings parentKey Assoc.has
  rw [List.findSome?_cons, List.findSome?_cons, List.findSome?_nil]
  unfold Assoc.get?
  cases fields.lookup "parentId" with
  | some v => rfl
  | none => cases fields.lookup "parent_id" <;> rfl

theorem parentOf_eq_self_or_blank (parent : Option String) :
    parentOf parent = parent ∨ ∃ text, parent = some text ∧ Text.isBlank text = true := by
  cases parent with
  | none => exact .inl rfl
  | some text =>
      by_cases hblank : Text.isBlank text = true
      · exact .inr ⟨text, rfl, hblank⟩
      · exact .inl (Option.filter_eq_some_iff.mpr ⟨rfl, by simpa using hblank⟩)

section Assigned

variable (h : read defaultPriority (.obj fields) = .ok node) {parent : Option String}

include h

/-- A parent that was read is no blank text. -/
theorem parentOf_eq_self_of_read (hparent : node.parent = Value.ofText? parent) :
    parentOf parent = parent := by
  rcases parentOf_eq_self_or_blank parent with hself | ⟨text, htext, hblank⟩
  · exact hself
  · subst htext
    rcases read_linkRead h with ⟨loaded, hloaded, hnotBlank⟩
    rw [hparent] at hloaded
    cases loaded with
    | none => simp [Value.ofText?] at hloaded
    | some id =>
        have hid : text = id := by simpa [Value.ofText?] using hloaded
        have hnot := hnotBlank id rfl
        rw [← hid, hblank] at hnot
        contradiction

theorem schema_assigned_of_eq (hparent : node.parent = Value.ofText? parent) :
    (node.setParent (Value.ofText? parent)).schema = fields := by
  have hsource := source_of_read h
  rw [schema_of_eq (hparent.symm.trans (storedAs_of_read h).2)]
  exact hsource

theorem schema_assigned_of_ne (hparent : node.parent ≠ Value.ofText? parent) :
    (node.setParent (Value.ofText? parent)).schema =
      fields.set (storedParentKey fields) (Value.ofText? parent) := by
  have hne : Value.ofText? parent ≠ node.loadedParent := by
    rw [← (storedAs_of_read h).2]
    exact hparent.symm
  rw [schema_of_ne hne, ← source_of_read h]
  rfl

/-- The object comes back for the parent that was read and for the blank text
that is stored. -/
theorem schema_assigned_eq_self_iff :
    (node.setParent (Value.ofText? parent)).schema = fields ↔
      node.parent = Value.ofText? parent ∨
        ∃ text, parent = some text ∧ Text.isBlank text = true ∧
          Assoc.get? fields (storedParentKey fields) = some (.str text) := by
  by_cases hparent : node.parent = Value.ofText? parent
  · exact iff_of_true (schema_assigned_of_eq h hparent) (.inl hparent)
  rw [schema_assigned_of_ne h hparent, Assoc.set_eq_self_iff]
  constructor
  · intro hstored
    right
    rcases parentOf_eq_self_or_blank parent with hself | ⟨text, htext, hblank⟩
    · -- Storing what is stored anyway, the node would have been read with this parent.
      have hagain := read_set_parent h parent
      rw [Assoc.set_eq_self_iff.mpr hstored, h, hself] at hagain
      have hnode := Reading.ok.inj hagain
      exact absurd (congrArg Node.parent hnode) hparent
    · subst htext
      exact ⟨text, rfl, hblank, hstored⟩
  · intro hcase
    rcases hcase with heq | ⟨text, htext, -, hstored⟩
    · exact absurd heq hparent
    · rw [htext]
      exact hstored

theorem read_schema_assigned :
    read defaultPriority (.obj (node.setParent (Value.ofText? parent)).schema) =
      .ok { node with
        parent := Value.ofText? (parentOf parent)
        source := (node.setParent (Value.ofText? parent)).schema
        loadedParent := Value.ofText? (parentOf parent) } := by
  by_cases hparent : node.parent = Value.ofText? parent
  · have hsource := source_of_read h
    have hloaded := (storedAs_of_read h).2
    rw [schema_assigned_of_eq h hparent, parentOf_eq_self_of_read h hparent, ← hparent, h]
    cases node
    simp_all
  · rw [schema_assigned_of_ne h hparent]
    exact read_set_parent h parent

/-- Whatever text or null a node is given as its parent after reading, at most
the entry its parent is read from is written differently, and what is written is
read as the same node with that parent, or with none if it is blank. -/
theorem read_assignedParent (parent : Option String) :
    AssignedParent defaultPriority fields node parent := by
  constructor
  · exact storedParentKey_eq fields
  · exact fun k v hfound => storedParentKey_eq_of_find? hfound
  · exact schema_assigned_of_eq h
  · exact schema_assigned_of_ne h
  · exact schema_assigned_eq_self_iff h
  · intro key hkey
    rw [← source_of_read h] at hkey ⊢
    exact get?_schema hkey
  · exact read_schema_assigned h

end Assigned

/-- The second spelling and the unknown key are kept, the unreadable rule as well. -/
theorem read_assignedParent_blank :
    let fields : Fields := [("id", .str "a"), ("parent_id", .str "r"), ("note", .int 1),
      ("parentId", .str " "), ("conditional_rules", .list [.null])]
    ∃ node, read (.ok 100) (.obj fields) = .ok node ∧ node.parent = .null ∧
      node.rejected.length = 1 ∧ AssignedParent (.ok 100) fields node (some "p") ∧
      (node.setParent (.str "p")).schema = [("id", .str "a"), ("parent_id", .str "r"),
        ("note", .int 1), ("parentId", .str "p"), ("conditional_rules", .list [.null])] := by
  intro fields
  refine ⟨_, rfl, by with_unfolding_all rfl, rfl, ?_, by with_unfolding_all rfl⟩
  exact read_assignedParent (by with_unfolding_all rfl) (some "p")

/-- The object does not come back for the parent that was read only: where a
blank parent is stored no parent is read, and assigning the blank text gives the
object back all the same. -/
theorem schema_kept_storedBlank :
    let fields : Fields := [("id", .str "a"), ("parentId", .str " ")]
    ∃ node, read (.ok 100) (.obj fields) = .ok node ∧ node.parent = .null ∧
      (node.setParent (.str " ")).schema = fields ∧
      ¬ ((node.setParent (.str " ")).schema = fields ↔ node.parent = .str " ") := by
  intro fields
  let node := ofRead fields "a" (some " ") none 0 [] ([], []) []
  have hread : read (.ok 100) (.obj fields) = .ok node := rfl
  have hparent : node.parent = .null := by with_unfolding_all rfl
  have hschema : (node.setParent (.str " ")).schema = fields := by with_unfolding_all rfl
  refine ⟨node, hread, hparent, hschema, fun hiff => ?_⟩
  have hblank : node.parent = .str " " := hiff.mp hschema
  rw [hparent] at hblank
  contradiction

end Node

end FormRules
