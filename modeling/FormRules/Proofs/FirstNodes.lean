import FormRules.Hierarchy.Check
import Mathlib.Tactic

/-!
# The first nodes of a list and the nodes that are read

Of the nodes with one id only the first counts.  The nodes that count stand in
the order of the list, one for each id, and a dictionary made from them finds
under an id what the first node with it gives.

Reading a stored list leaves every node linked to an id that is not blank, or
to none.
-/

namespace FormRules

/-! ## Nodes as read -/

/-- The parent link is null or an id that is not blank. -/
def Node.LinkRead (node : Node) : Prop :=
  ∃ parent : Option String, node.parent = Value.ofText? parent ∧
    ∀ id, parent = some id → Text.isBlank id = false

/-- An object reads as a node where each of its fields reads. -/
theorem Node.read_obj_eq_ok_iff {defaultPriority : Reading Int} {fields : Fields} {node : Node} :
    Node.read defaultPriority (.obj fields) = .ok node ↔
      ∃ id parent type order dependencies rules payload,
        Reading.required fields idKey Reading.text = .ok id ∧
        Reading.nullableField fields parentKey Reading.text = .ok parent ∧
        Reading.nullableField fields typeKey Reading.text = .ok type ∧
        Reading.optional fields orderKey 0 Reading.integer = .ok order ∧
        Reading.optional fields dependenciesKey [] Reading.texts = .ok dependencies ∧
        readRules defaultPriority fields = .ok rules ∧
        Reading.optional fields payloadKey [] Reading.object = .ok payload ∧
        node = ofRead fields id parent type order dependencies rules payload := by
  simp only [Node.read, Reading.seq_eq_ok_iff, Reading.functorMap_eq_ok_iff]
  constructor
  · rintro ⟨_, payload, ⟨_, rules, ⟨_, dependencies, ⟨_, order, ⟨_, type, ⟨_, parent,
      ⟨id, hid, rfl⟩, hparent, rfl⟩, htype, rfl⟩, horder, rfl⟩, hdependencies, rfl⟩, hrules,
      rfl⟩, hpayload, hnode⟩
    exact ⟨id, parent, type, order, dependencies, rules, payload, hid, hparent, htype, horder,
      hdependencies, hrules, hpayload, hnode⟩
  · rintro ⟨id, parent, type, order, dependencies, rules, payload, hid, hparent, htype, horder,
      hdependencies, hrules, hpayload, hnode⟩
    exact ⟨_, payload, ⟨_, rules, ⟨_, dependencies, ⟨_, order, ⟨_, type, ⟨_, parent,
      ⟨id, hid, rfl⟩, hparent, rfl⟩, htype, rfl⟩, horder, rfl⟩, hdependencies, rfl⟩, hrules,
      rfl⟩, hpayload, hnode⟩

theorem Node.exists_ofRead {defaultPriority : Reading Int} {v : Value} {node : Node}
    (h : Node.read defaultPriority v = .ok node) :
    ∃ fields id parent type order dependencies rules payload,
      v = .obj fields ∧
        node = Node.ofRead fields id parent type order dependencies rules payload := by
  cases v with
  | obj fields =>
      obtain ⟨id, parent, type, order, dependencies, rules, payload, -, -, -, -, -, -, -, hnode⟩ :=
        Node.read_obj_eq_ok_iff.mp h
      exact ⟨fields, id, parent, type, order, dependencies, rules, payload, rfl, hnode⟩
  | _ => simp [Node.read, Reading.fault] at h

/-- The parent of a node that was read is null or a text that is not blank. -/
theorem Node.read_linkRead {defaultPriority : Reading Int} {v : Value} {node : Node}
    (h : Node.read defaultPriority v = .ok node) : node.LinkRead := by
  obtain ⟨fields, id, parent, type, order, dependencies, rules, payload, -, hnode⟩ :=
    Node.exists_ofRead h
  subst hnode
  refine ⟨Node.parentOf parent, rfl, fun other hother => ?_⟩
  have hblank := (Option.filter_eq_some_iff.mp hother).2
  simpa using hblank

namespace Nodes

theorem readFrom_eq_ok_iff {defaultPriority : Reading Int} (start : Nat) {items : List Value}
    {nodes : List Node} :
    readFrom defaultPriority start items = .ok nodes ↔
      List.Forall₂ (fun item node => Node.read defaultPriority item = .ok node) items nodes := by
  induction items generalizing start nodes with
  | nil => simp [readFrom, eq_comm]
  | cons item rest ih =>
      rw [List.forall₂_cons_left_iff]
      cases hread : Node.read defaultPriority item with
      | faulty faults => simp [readFrom, hread]
      | ok first =>
          have hmap : readFrom defaultPriority start (item :: rest) = .ok nodes ↔
              ∃ others, readFrom defaultPriority (start + 1) rest = .ok others ∧
                nodes = first :: others := by
            cases hrest : readFrom defaultPriority (start + 1) rest <;>
              simp [readFrom, hread, hrest, Except.map, eq_comm]
          rw [hmap]
          simp [ih]

theorem readFrom_mem {defaultPriority : Reading Int} {start : Nat} {items : List Value}
    {nodes : List Node} (h : readFrom defaultPriority start items = .ok nodes) :
    ∀ node ∈ nodes, ∃ v ∈ items, Node.read defaultPriority v = .ok node := by
  intro node hnode
  obtain ⟨i, hi, heq⟩ := List.mem_iff_getElem.mp hnode
  obtain ⟨hlength, hitems⟩ := List.forall₂_iff_get.mp ((readFrom_eq_ok_iff start).mp h)
  have hbound : i < items.length := by omega
  have hread := hitems i hbound hi
  rw [List.get_eq_getElem, List.get_eq_getElem, heq] at hread
  exact ⟨items[i], List.getElem_mem hbound, hread⟩

theorem read_mem {defaultPriority : Reading Int} {v : Value} {nodes : List Node}
    (h : (read defaultPriority v).value = .ok nodes) :
    ∀ node ∈ nodes, ∃ item, Node.read defaultPriority item = .ok node := by
  unfold read at h
  split at h
  · have hnil : nodes = [] := by simpa using h.symm
    simp [hnil]
  · split at h
    · rename_i found hfound
      have heq : found = nodes := by simpa using h
      subst heq
      intro node hnode
      obtain ⟨item, -, hread⟩ := readFrom_mem hfound node hnode
      exact ⟨item, hread⟩
    · simp at h
  · simp at h

theorem read_linkRead {defaultPriority : Reading Int} {v : Value} {nodes : List Node}
    (h : (read defaultPriority v).value = .ok nodes) : ∀ node ∈ nodes, node.LinkRead := by
  intro node hnode
  obtain ⟨item, hread⟩ := read_mem h node hnode
  exact Node.read_linkRead hread

def storedNode (id : String) (parent : Value) (order : Int) : Value :=
  .obj [("id", .str id), ("parentId", parent), ("order", .int order)]

/-- A chain into a cycle, a link to itself, an orphan, a blank id and an id that
occurs twice. -/
def tangledNodes : Value :=
  .list [storedNode "a" (.str "b") 2, storedNode "b" (.str "c") 1, storedNode "c" (.str "b") 0,
    storedNode "b" .null 5, storedNode " " (.str "z") 1, storedNode "s" (.str "s") 0,
    storedNode "d" (.str "a") 0]

end Nodes

theorem Node.LinkRead.parent_eq {node : Node} (h : node.LinkRead) :
    node.parent = Value.ofText? node.parentId? := by
  obtain ⟨parent, hparent, -⟩ := h
  cases parent <;> simp [hparent, Node.parentId?, Value.ofText?, Value.asText?]

theorem Node.LinkRead.parentId?_ne_empty {node : Node} (h : node.LinkRead) :
    node.parentId? ≠ some "" := by
  obtain ⟨parent, hparent, hblank⟩ := h
  intro hempty
  have hsome : parent = some "" := by
    cases parent with
    | none => simp [hparent, Node.parentId?, Value.ofText?, Value.asText?] at hempty
    | some id => simpa [hparent, Node.parentId?, Value.ofText?, Value.asText?] using hempty
  exact Text.ne_empty_of_not_blank (hblank "" hsome) rfl

/-! ## First nodes -/

theorem Assoc.get?_distinctBy_iff {α β : Type} {key : α → String} {f : α → β} {items : List α}
    {id : String} {value : β} :
    Assoc.get? ((distinctBy key items).map fun item => (key item, f item)) id = some value ↔
      ∃ item ∈ distinctBy key items, key item = id ∧ f item = value := by
  constructor
  · intro h
    obtain ⟨item, hitem, heq⟩ := List.mem_map.mp (Assoc.mem_of_get? h)
    exact ⟨item, hitem, congrArg Prod.fst heq, congrArg Prod.snd heq⟩
  · rintro ⟨item, hitem, hid, hvalue⟩
    refine Assoc.get?_of_mem ?_ (List.mem_map.mpr ⟨item, hitem, by rw [hid, hvalue]⟩)
    have hkeys : Assoc.keys ((distinctBy key items).map fun item => (key item, f item)) =
        (distinctBy key items).map key := by
      simp [Assoc.keys]
    rw [hkeys]
    exact nodup_map_distinctBy key items

theorem distinctBy_unique {α : Type} {key : α → String} {items : List α} {a b : α}
    (ha : a ∈ distinctBy key items) (hb : b ∈ distinctBy key items) (hkey : key a = key b) :
    a = b :=
  List.inj_on_of_nodup_map (nodup_map_distinctBy key items) ha hb hkey

namespace Nodes

variable {nodes : List Node}

/-- No node in front of a position has the id of the node there. -/
def FirstAt (nodes : List Node) (i : Nat) : Prop :=
  ∃ node, nodes[i]? = some node ∧
    ∀ j < i, ∀ other, nodes[j]? = some other → other.id ≠ node.id

theorem mem_of_mem_firsts {node : Node} (h : node ∈ firsts nodes) : node ∈ nodes :=
  mem_of_mem_distinctBy h

theorem mem_ids_iff {id : String} : id ∈ ids nodes ↔ ∃ node ∈ nodes, node.id = id :=
  mem_map_distinctBy_iff.trans List.mem_map

theorem nodup_ids (nodes : List Node) : (ids nodes).Nodup :=
  nodup_map_distinctBy Node.id nodes

theorem id_mem_ids {node : Node} (h : node ∈ firsts nodes) : node.id ∈ ids nodes :=
  List.mem_map_of_mem h

theorem firsts_unique {a b : Node} (ha : a ∈ firsts nodes) (hb : b ∈ firsts nodes)
    (hid : a.id = b.id) : a = b :=
  distinctBy_unique ha hb hid

theorem get?_firsts_iff {β : Type} {f : Node → β} {id : String} {value : β} :
    Assoc.get? ((firsts nodes).map fun node => (node.id, f node)) id = some value ↔
      ∃ node ∈ firsts nodes, node.id = id ∧ f node = value :=
  Assoc.get?_distinctBy_iff

theorem firstAt_zero {node : Node} : FirstAt (node :: nodes) 0 := by
  exact ⟨node, rfl, fun j hj => by omega⟩

theorem firstAt_cons_succ {node : Node} {i : Nat} :
    FirstAt (node :: nodes) (i + 1) ↔
      FirstAt nodes i ∧ ∀ other, nodes[i]? = some other → other.id ≠ node.id := by
  constructor
  · rintro ⟨found, hfound, hfirst⟩
    have hfound' : nodes[i]? = some found := by simpa using hfound
    refine ⟨⟨found, hfound', fun j hj other hother => ?_⟩, fun other hother => ?_⟩
    · exact hfirst (j + 1) (by omega) other (by simpa using hother)
    · have heq : other = found := by simpa [hfound'] using hother.symm
      subst heq
      exact fun hid => hfirst 0 (by omega) node rfl hid.symm
  · rintro ⟨⟨found, hfound, hfirst⟩, hne⟩
    refine ⟨found, by simpa using hfound, fun j hj other hother => ?_⟩
    cases j with
    | zero =>
        have heq : node = other := by simpa using hother
        subst heq
        exact fun hid => hne found hfound hid.symm
    | succ j => exact hfirst j (by omega) other (by simpa using hother)

/-- An occurrence is the first where its id is not among those in front. -/
theorem firstAt_iff {node : Node} {i : Nat} (h : nodes[i]? = some node) :
    FirstAt nodes i ↔ node.id ∉ (nodes.take i).map Node.id := by
  constructor
  · rintro ⟨found, hfound, hfirst⟩ hmem
    have heq : found = node := Option.some.inj (hfound.symm.trans h)
    subst heq
    obtain ⟨other, hother, hid⟩ := List.mem_map.mp hmem
    obtain ⟨j, hj⟩ := List.mem_iff_getElem?.mp hother
    rw [List.getElem?_take] at hj
    split at hj
    · rename_i hlt
      exact hfirst j hlt other hj hid
    · simp at hj
  · intro hfresh
    refine ⟨node, h, fun j hj other hother hid => hfresh ?_⟩
    refine List.mem_map.mpr ⟨other, List.mem_iff_getElem?.mpr ⟨j, ?_⟩, hid⟩
    rw [List.getElem?_take, if_pos hj]
    exact hother

/-- The first nodes stand at the positions no earlier node with the same id
precedes, in their order. -/
theorem exists_first_positions (nodes : List Node) :
    ∃ positions : List Nat, positions.Pairwise (· < ·) ∧
      (∀ i, i ∈ positions ↔ FirstAt nodes i) ∧
      (firsts nodes).map some = positions.map fun i => nodes[i]? := by
  induction nodes with
  | nil => exact ⟨[], by simp, by simp [FirstAt], rfl⟩
  | cons node rest ih =>
      obtain ⟨positions, hsorted, hmem, hfirsts⟩ := ih
      let kept : Option Node → Bool := fun found => found.any fun other => other.id ≠ node.id
      let later := (positions.filter fun i => kept rest[i]?).map (· + 1)
      refine ⟨0 :: later, ?_, ?_, ?_⟩
      · refine List.pairwise_cons.mpr ⟨?_, ?_⟩
        · intro j hj
          obtain ⟨i, -, rfl⟩ := List.mem_map.mp hj
          exact Nat.succ_pos i
        · refine List.pairwise_map.mpr ((hsorted.filter _).imp fun hij => ?_)
          omega
      · intro i
        cases i with
        | zero => simp [firstAt_zero]
        | succ i =>
            have hlater : i + 1 ∈ 0 :: later ↔ FirstAt rest i ∧ kept rest[i]? = true := by
              simp [later, hmem]
            rw [hlater, firstAt_cons_succ]
            refine and_congr_right fun hfirst => ?_
            obtain ⟨found, hfound, -⟩ := hfirst
            simp [kept, hfound]
      · have hkept : ((firsts rest).filter fun other => other.id ≠ node.id).map some =
            ((firsts rest).map some).filter kept := by
          rw [List.filter_map]
          rfl
        have hfirsts' : firsts (node :: rest) =
            node :: (firsts rest).filter fun other => other.id ≠ node.id := rfl
        rw [hfirsts', List.map_cons, hkept, hfirsts, List.filter_map, List.map_cons,
          List.map_map]
        rfl

theorem mem_firsts_of_firstAt {node : Node} {i : Nat} (h : nodes[i]? = some node)
    (hfirst : FirstAt nodes i) : node ∈ firsts nodes := by
  obtain ⟨positions, -, hmem, hfirsts⟩ := exists_first_positions nodes
  have hsome : some node ∈ (firsts nodes).map some := by
    rw [hfirsts, ← h]
    exact List.mem_map_of_mem ((hmem i).mpr hfirst)
  simpa using hsome

end Nodes

end FormRules
