import FormRules.Hierarchy.Edit
import FormRules.Proofs.RepairedList
import FormRules.Proofs.TreeShape

/-!
# Sessions of edits

However a list was edited, a repair leaves it sound unless it holds a cycle of
links that takes in the empty id: no issue about a link is reported, and every
node can be reached from the roots.  The search for cycles takes a link to the
empty id for no link, so it never cuts such a cycle, while the forest follows
it; no node on it is then below a root.

Nodes that are read never link to the empty id, and a repair adds no link.  So a
session is sound after its repair as long as it assigns no empty parent.
-/

namespace FormRules

open Relation

namespace Nodes

variable {nodes : List Node}

/-- No check reports a link, and the walk of the forest meets every id. -/
structure Sound (nodes : List Node) : Prop where
  clean : ∀ issue ∈ structureIssues nodes, issue.kind ≠ .selfReference ∧
    issue.kind ≠ .orphanParent ∧ issue.kind ≠ .circularReference
  reachable : ∀ id ∈ ids nodes, id ∈ (Forest.ofNodes nodes).walk.map Placed.id

/-- The check of the structure finds no fault with a link after a repair, unless
the empty id lies on a cycle. -/
theorem clean_repaired (hopen : ¬ OnCycle (LinksTo nodes) "") :
    ∀ issue ∈ structureIssues (repaired nodes), issue.kind ≠ .selfReference ∧
      issue.kind ≠ .orphanParent ∧ issue.kind ≠ .circularReference := by
  intro issue hissue
  have hself : ∀ id, (Repair.ofNodes nodes).parentOf id ≠ some id := by
    intro id hparent
    have hloop : OnCycle (KeptLink nodes) id := .single (ofNodes_parentOf_iff.mp hparent)
    obtain ⟨hcycle, hreaches⟩ := onCycle_keptLink_iff.mp hloop
    exact hopen (hcycle.of_reaches (linksTo_rightUnique nodes) hreaches)
  rw [structureIssues_repaired] at hissue
  rcases List.mem_append.mp hissue with hduplicate | hlink
  · simp [kind_of_mem_duplicateIssues hduplicate]
  · obtain ⟨node, -, hnode⟩ := List.mem_flatMap.mp hlink
    rw [if_neg (hself node.id), List.append_nil] at hnode
    simp [kind_of_mem_emptyIdIssues hnode]

theorem walk_complete_of_acyclic (hacyclic : ∀ id, ¬ OnCycle (KeptLink nodes) id) :
    ∀ id ∈ ids nodes, id ∈ (Forest.ofNodes nodes).walk.map Placed.id := by
  intro id hid
  have hperm : (Forest.ofNodes nodes).walk.Perm (Forest.ofNodes nodes) :=
    (Forest.ofNodes_wired nodes).walk_perm
      fun p hp => hacyclic p.id (Forest.onCycle_of_childOf hp)
  rw [← Forest.ids_ofNodes] at hid
  exact (hperm.map Placed.id).mem_iff.mpr hid

/-- No root is above a cycle of links that are kept. -/
theorem not_mem_walk_of_onCycle {id : String} (hcycle : OnCycle (KeptLink nodes) id) :
    id ∉ (Forest.ofNodes nodes).walk.map Placed.id := by
  intro hmem
  obtain ⟨p, hp, hid⟩ := List.mem_map.mp hmem
  subst hid
  have hvisited := (Forest.ofNodes_wired nodes).walk_visiting.rooted p (by simpa using hp)
  obtain ⟨-, root, hroot, hpath⟩ := hvisited
  have hreach : ReflTransGen (KeptLink nodes) p.id root.id :=
    ReflTransGen.lift Placed.id (fun _ _ hchild => Forest.ChildOf.keptLink hchild) p root hpath
  have hr : Relator.RightUnique (KeptLink nodes) :=
    fun _ _ _ hb hc => linksTo_rightUnique nodes hb.1 hc.1
  obtain ⟨up, hlink, -, -⟩ := (hcycle.of_reaches hr hreach).exists_link
  obtain ⟨hmem, hnone⟩ := Forest.mem_roots_iff.mp hroot
  rw [← Forest.parent_ofNodes_iff hmem, hnone] at hlink
  simp at hlink

/-- A repaired list is sound exactly when the empty id lies on no cycle; where
cycles are looked for, an empty parent passes for none. -/
theorem sound_repaired_iff : Sound (repaired nodes) ↔ ¬ OnCycle (LinksTo nodes) "" := by
  constructor
  · intro hsound hempty
    have hkept : OnCycle (KeptLink nodes) "" := onCycle_keptLink_iff.mpr ⟨hempty, .refl⟩
    have hmem : "" ∈ ids (repaired nodes) := by
      obtain ⟨id, hlink, -, -⟩ := hempty.exists_link
      rw [ids_repaired]
      exact hlink.mem_ids
    rw [← keptLink_repaired] at hkept
    exact not_mem_walk_of_onCycle hkept (hsound.reachable "" hmem)
  · intro hopen
    constructor
    · exact clean_repaired hopen
    · apply walk_complete_of_acyclic
      intro id hcycle
      rw [keptLink_repaired] at hcycle
      obtain ⟨hlinks, hreaches⟩ := onCycle_keptLink_iff.mp hcycle
      exact hopen (hlinks.of_reaches (linksTo_rightUnique nodes) hreaches)

end Nodes

namespace Edit

open Nodes

theorem listAfter_concat (edits : List Edit) (edit : Edit) :
    listAfter (edits ++ [edit]) = edit.apply (listAfter edits) := by
  unfold listAfter
  rw [List.foldl_concat]

/-- After any session of edits a repair gives a sound list exactly when the
empty id lies on no cycle of the list it is given. -/
theorem sound_after_repair_iff (edits : List Edit) :
    Sound (listAfter (edits ++ [.repair])) ↔ ¬ OnCycle (LinksTo (listAfter edits)) "" := by
  rw [listAfter_concat]
  exact sound_repaired_iff

/-- A node that is read, and then linked to itself under the empty id. -/
theorem not_sound_looped_empty_id :
    ∃ node, Node.read (.ok 100) (.obj [("id", .str "")]) = .ok node ∧
      ¬ Sound (listAfter ([.add node, .link "" (.str "")] ++ [.repair])) := by
  refine ⟨_, rfl, ?_⟩
  rw [listAfter_concat]
  intro hsound
  refine sound_repaired_iff.mp hsound (.single ?_)
  exact ⟨List.mem_singleton.mpr rfl, _, List.mem_singleton.mpr rfl, rfl, rfl⟩

/-! ## Sessions that assign no empty parent -/

/-- The edit brings no link to the empty id into a list. -/
def AvoidsEmpty : Edit → Prop
  | add node => node.parentId? ≠ some ""
  | link _ parent => parent.asText? ≠ some ""
  | remove _ | repair => True

theorem forall_mem_relink {p : Node → Prop} {nodes : List Node} {id : String} {parent : Value}
    (hnodes : ∀ node ∈ nodes, p node) (hset : ∀ node : Node, p (node.setParent parent)) :
    ∀ node ∈ relink nodes id parent, p node := by
  induction nodes with
  | nil => exact hnodes
  | cons first rest ih =>
      obtain ⟨hfirst, hrest⟩ := List.forall_mem_cons.mp hnodes
      unfold relink
      split
      · exact List.forall_mem_cons.mpr ⟨hset first, hrest⟩
      · exact List.forall_mem_cons.mpr ⟨hfirst, ih hrest⟩

theorem parentId?_repaired_ne_empty {nodes : List Node}
    (hnodes : ∀ node ∈ nodes, node.parentId? ≠ some "") :
    ∀ node ∈ repaired nodes, node.parentId? ≠ some "" := by
  intro out hout
  rcases mem_repaired hout with hold | ⟨node, -, heq⟩
  · exact hnodes out hold
  · subst heq
    rw [relinked_parentId?]
    intro hparent
    obtain ⟨-, first, hfirst, -, hempty⟩ := (ofNodes_parentOf_iff.mp hparent).1
    exact hnodes first (mem_of_mem_firsts hfirst) hempty

theorem AvoidsEmpty.apply {edit : Edit} {nodes : List Node} (h : edit.AvoidsEmpty)
    (hnodes : ∀ node ∈ nodes, node.parentId? ≠ some "") :
    ∀ node ∈ edit.apply nodes, node.parentId? ≠ some "" := by
  cases edit with
  | add node =>
      intro other hother
      rcases List.mem_append.mp hother with hold | hnew
      · exact hnodes other hold
      · have heq : other = node := by simpa using hnew
        subst heq
        exact h
  | remove id => exact fun node hnode => hnodes node (List.mem_filter.mp hnode).1
  | link id parent => exact forall_mem_relink hnodes fun _ => h
  | repair => exact parentId?_repaired_ne_empty hnodes

theorem listAfter_parentId?_ne_empty {edits : List Edit}
    (hedits : ∀ edit ∈ edits, edit.AvoidsEmpty) :
    ∀ node ∈ listAfter edits, node.parentId? ≠ some "" := by
  induction edits using List.reverseRecOn with
  | nil => simp [listAfter]
  | append_singleton edits edit ih =>
      rw [listAfter_concat]
      apply AvoidsEmpty.apply
      · exact hedits edit (by simp)
      · exact ih fun other hother => hedits other (List.mem_append_left _ hother)

/-- Repairing what such a session leads to leaves a sound list. -/
theorem sound_after_repair_of_avoidsEmpty {edits : List Edit}
    (hedits : ∀ edit ∈ edits, edit.AvoidsEmpty) : Sound (listAfter (edits ++ [.repair])) := by
  rw [listAfter_concat]
  refine sound_repaired_iff.mpr fun hcycle => ?_
  obtain ⟨id, ⟨-, node, hnode, -, hparent⟩, -⟩ := hcycle.exists_predecessor
  exact listAfter_parentId?_ne_empty hedits node (mem_of_mem_firsts hnode) hparent

end Edit

end FormRules
