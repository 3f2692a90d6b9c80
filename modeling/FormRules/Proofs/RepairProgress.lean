import FormRules.Proofs.CycleSearch
import FormRules.Proofs.FirstNodes

/-!
# Repairing parent links one id at a time

Going through the ids, a repair has at every moment cut exactly the links that
close a cycle as seen from the ids it is done with.  The cycles still to be
found are then those that none of these ids runs into, so the next search finds
either nothing or one more closing link.

The cycle search takes an empty parent for no parent.  What a repair cuts is
therefore told by the links the search sees, what it keeps by all links.
-/

namespace FormRules

open Relation

namespace Nodes

variable {nodes : List Node}

/-- The first node with id `a` has the id `b` of the list as its parent. -/
def LinksTo (nodes : List Node) (a b : String) : Prop :=
  b ∈ ids nodes ∧ ∃ node ∈ firsts nodes, node.id = a ∧ node.parentId? = some b

/-- The links the cycle search sees. -/
def SearchedTo (nodes : List Node) (a b : String) : Prop := LinksTo nodes a b ∧ b ≠ ""

theorem linksTo_rightUnique (nodes : List Node) : Relator.RightUnique (LinksTo nodes) := by
  rintro a b c ⟨-, node, hnode, hid, hb⟩ ⟨-, other, hother, hid', hc⟩
  have heq : node = other := firsts_unique hnode hother (hid.trans hid'.symm)
  subst heq
  exact Option.some.inj (hb.symm.trans hc)

theorem searchedTo_rightUnique (nodes : List Node) :
    Relator.RightUnique (SearchedTo nodes) :=
  fun _ _ _ hb hc => linksTo_rightUnique nodes hb.1 hc.1

theorem LinksTo.mem_ids {a b : String} (h : LinksTo nodes a b) : a ∈ ids nodes := by
  obtain ⟨-, node, hnode, hid, -⟩ := h
  subst hid
  exact id_mem_ids hnode

/-- In a list that was read the search for cycles sees every link. -/
theorem searchedTo_eq_linksTo (hread : ∀ node ∈ nodes, node.LinkRead) :
    SearchedTo nodes = LinksTo nodes := by
  funext a b
  refine propext ⟨fun h => h.1, fun h => ⟨h, ?_⟩⟩
  rintro rfl
  obtain ⟨-, node, hnode, -, hparent⟩ := h
  exact (hread node (mem_of_mem_firsts hnode)).parentId?_ne_empty hparent

end Nodes

theorem Graph.successors_ofParents (parents : Assoc (Option String)) (id : String) :
    (Graph.ofParents parents).successors id =
      (Graph.parentLinks ((Assoc.get? parents id).getD none)).filterMap fun link => link := by
  unfold Graph.successors Graph.ofParents
  rw [Assoc.get?_mapValues]
  cases Assoc.get? parents id <;> rfl

theorem Graph.edge_ofParents_iff {parents : Assoc (Option String)} {a b : String} :
    (Graph.ofParents parents).Edge a b ↔
      (Assoc.get? parents a).getD none = some b ∧ b ≠ "" := by
  unfold Graph.Edge
  rw [Graph.successors_ofParents]
  cases (Assoc.get? parents a).getD none with
  | none => simp [Graph.parentLinks]
  | some parent =>
      by_cases hempty : parent = ""
      · subst hempty
        simp only [Graph.parentLinks, Option.some.injEq]
        constructor
        · simp
        · rintro ⟨heq, hne⟩
          exact absurd heq.symm hne
      · have hlinks : Graph.parentLinks (some parent) = [some parent] := by
          simp [Graph.parentLinks, hempty]
        rw [hlinks]
        constructor
        · intro hmem
          have heq : b = parent := by simpa using hmem
          subst heq
          exact ⟨rfl, hempty⟩
        · rintro ⟨heq, -⟩
          simpa using (Option.some.inj heq).symm

def Fix.nodeId : Fix → String
  | .clearedOrphan id _ => id
  | .brokeCycle id _ _ => id

namespace Repair

open Nodes

variable {nodes : List Node}

theorem clearOrphans_parentOf_iff {a b : String} :
    (clearOrphans (firsts nodes)).parentOf a = some b ↔ LinksTo nodes a b := by
  have hlookup : (clearOrphans (firsts nodes)).parentOf a = some b ↔
      Assoc.get? ((firsts nodes).map fun node =>
        (node.id, node.parentId?.filter (ids nodes).contains)) a = some (some b) := by
    unfold parentOf clearOrphans
    exact Option.getD_eq_iff.trans (by simp [ids])
  rw [hlookup, get?_firsts_iff]
  constructor
  · rintro ⟨node, hnode, hid, hfilter⟩
    obtain ⟨hparent, hmem⟩ := Option.filter_eq_some_iff.mp hfilter
    exact ⟨List.contains_iff_mem.mp hmem, node, hnode, hid, hparent⟩
  · rintro ⟨hmem, node, hnode, hid, hparent⟩
    exact ⟨node, hnode, hid,
      Option.filter_eq_some_iff.mpr ⟨hparent, List.contains_iff_mem.mpr hmem⟩⟩

/-- What a repair of a list has done after going through some ids. -/
structure Progress (nodes : List Node) (done : List String) (repair : Repair) : Prop where
  parentOf_iff : ∀ a b, repair.parentOf a = some b ↔
    CutAt (LinksTo nodes) (ClosesCycle (SearchedTo nodes) done) a b
  fixed : ∃ closing : List String, closing.Nodup ∧
    (∀ a, a ∈ closing ↔ ClosesCycle (SearchedTo nodes) done a) ∧
    repair.fixes.map Fix.nodeId =
      (clearOrphans (firsts nodes)).fixes.map Fix.nodeId ++ closing

theorem Progress.start (nodes : List Node) :
    Progress nodes [] (clearOrphans (firsts nodes)) := by
  have hnone : ∀ a, ¬ ClosesCycle (SearchedTo nodes) [] a := by
    rintro a ⟨-, before, start, after, entry, hstarts, -⟩
    simp at hstarts
  constructor
  · intro a b
    rw [clearOrphans_parentOf_iff]
    exact ⟨fun h => ⟨h, hnone a⟩, fun h => h.1⟩
  · exact ⟨[], List.nodup_nil, fun a => by simp [hnone a], by simp⟩

theorem Progress.edge_eq {done : List String} {repair : Repair}
    (h : Progress nodes done repair) :
    (Graph.ofParents repair.parents).Edge =
      CutAt (SearchedTo nodes) (ClosesCycle (SearchedTo nodes) done) := by
  funext a b
  refine propext ?_
  rw [Graph.edge_ofParents_iff]
  have hparent := h.parentOf_iff a b
  unfold parentOf at hparent
  rw [hparent]
  unfold CutAt SearchedTo
  tauto

theorem parentOf_set (repair : Repair) (fixes : List Fix) (closing id : String) :
    parentOf ⟨repair.parents.set closing none, fixes⟩ id =
      if id = closing then none else repair.parentOf id := by
  unfold parentOf
  by_cases heq : id = closing
  · subst heq
    simp [Assoc.get?_set_self]
  · simp [heq, Assoc.get?_set_of_ne none heq]

theorem breakCycleFrom_eq {repair : Repair} {id closing : String} {path : List String}
    (hfound : (Graph.ofParents repair.parents).findCycle id = some path)
    (hlast : path.dropLast.getLast? = some closing) :
    ∃ parent, repair.breakCycleFrom id =
      ⟨repair.parents.set closing none, repair.fixes ++ [.brokeCycle closing parent path]⟩ := by
  have hclosing : closingId path = closing := by
    unfold closingId
    rw [hlast]
    rfl
  unfold breakCycleFrom
  rw [hfound]
  simp only [hclosing]
  exact ⟨_, rfl⟩

/-- Cutting the one link that closes a further cycle. -/
theorem Progress.cut {done : List String} {repair : Repair} {id closing : String}
    (parent : String) (path : List String) (h : Progress nodes done repair)
    (hopen : ¬ ClosesCycle (SearchedTo nodes) done closing)
    (hcloses : ∀ a, ClosesCycle (SearchedTo nodes) (done ++ [id]) a ↔
      ClosesCycle (SearchedTo nodes) done a ∨ a = closing) :
    Progress nodes (done ++ [id])
      ⟨repair.parents.set closing none,
        repair.fixes ++ [.brokeCycle closing parent path]⟩ := by
  constructor
  · intro a b
    have hparent := h.parentOf_iff a b
    unfold CutAt at hparent ⊢
    rw [parentOf_set, hcloses a]
    by_cases heq : a = closing
    · simp [heq]
    · simp [heq, hparent]
  · obtain ⟨closers, hdistinct, hmem, hfixes⟩ := h.fixed
    refine ⟨closers ++ [closing], ?_, fun a => ?_, ?_⟩
    · have hnew : closing ∉ closers := fun hclosers => hopen ((hmem closing).mp hclosers)
      refine List.nodup_append.mpr ⟨hdistinct, List.nodup_singleton _, ?_⟩
      intro a ha b hb hab
      have hb' : b = closing := by simpa using hb
      subst hab hb'
      exact hnew ha
    · rw [hcloses a, List.mem_append, hmem a, List.mem_singleton]
    · simp [hfixes, Fix.nodeId]

/-- Breaking the cycle that an id runs into, if there is one, carries the
progress on to that id. -/
theorem Progress.step {done : List String} {repair : Repair} (id : String)
    (h : Progress nodes done repair) :
    Progress nodes (done ++ [id]) (repair.breakCycleFrom id) := by
  have hr : Relator.RightUnique (SearchedTo nodes) := searchedTo_rightUnique nodes
  cases hfound : (Graph.ofParents repair.parents).findCycle id with
  | none =>
      -- The id runs into no cycle that is left, so it closes none.
      have hsame : repair.breakCycleFrom id = repair := by
        unfold breakCycleFrom
        rw [hfound]
      have hruns := Graph.findCycle_eq_none_iff.mp hfound
      rw [h.edge_eq] at hruns
      have hcloses : ClosesCycle (SearchedTo nodes) (done ++ [id]) =
          ClosesCycle (SearchedTo nodes) done :=
        funext fun a => propext (closesCycle_concat_of_not_runs hr hruns)
      rw [hsame]
      constructor
      · rw [hcloses]
        exact h.parentOf_iff
      · rw [hcloses]
        exact h.fixed
  | some path =>
      -- The last id but one of the path found is what the id closes.
      have hrcut : Relator.RightUnique (Graph.ofParents repair.parents).Edge := by
        rw [h.edge_eq]
        exact fun _ _ _ hb hc => hr hb.1 hc.1
      obtain ⟨entry, closing, hlast, henters, hlink, hcycle⟩ :=
        (Graph.findCycle_lasso hfound).closing hrcut
      rw [h.edge_eq] at henters hlink hcycle
      obtain ⟨parent, hbroken⟩ := breakCycleFrom_eq hfound hlast
      rw [hbroken]
      exact h.cut parent path hlink.2
        fun a => closesCycle_concat_of_enters hr henters hlink hcycle

theorem Progress.run {done : List String} {repair : Repair} (ids : List String)
    (h : Progress nodes done repair) :
    Progress nodes (done ++ ids) (ids.foldl breakCycleFrom repair) := by
  induction ids generalizing done repair with
  | nil => simpa using h
  | cons id rest ih =>
      have hrest := ih (h.step id)
      rw [List.append_assoc] at hrest
      exact hrest

/-- A repair cuts the closing links of all cycles the search sees. -/
theorem ofNodes_progress (nodes : List Node) :
    Progress nodes (ids nodes) (ofNodes nodes) :=
  (Progress.start nodes).run (ids nodes)

end Repair

namespace Nodes

variable {nodes : List Node}

/-- The links between nodes that a repair keeps. -/
def KeptLink (nodes : List Node) : String → String → Prop :=
  CutAt (LinksTo nodes) (ClosesCycle (SearchedTo nodes) (ids nodes))

/-- The repair leaves the links to ids of the list, but for those that close a
cycle the search sees. -/
theorem ofNodes_parentOf_iff {a b : String} :
    (Repair.ofNodes nodes).parentOf a = some b ↔ KeptLink nodes a b :=
  (Repair.ofNodes_progress nodes).parentOf_iff a b

theorem not_onCycle_searchedTo_empty : ¬ OnCycle (SearchedTo nodes) "" := by
  intro hcycle
  obtain ⟨a, hlink, -⟩ := hcycle.exists_predecessor
  exact hlink.2 rfl

/-- No cycle of links the search sees is left. -/
theorem not_onCycle_searchedTo_cut {a : String} :
    ¬ OnCycle (CutAt (SearchedTo nodes) (ClosesCycle (SearchedTo nodes) (ids nodes))) a := by
  intro hcut
  rw [onCycle_cutAt_closesCycle_iff (searchedTo_rightUnique nodes)] at hcut
  obtain ⟨b, hlink, -, -⟩ := hcut.1.exists_link
  exact hcut.2 a hlink.1.mem_ids .refl

/-- The only cycle a repair can leave is one that takes in the empty id. -/
theorem onCycle_keptLink_iff {a : String} :
    OnCycle (KeptLink nodes) a ↔
      OnCycle (LinksTo nodes) a ∧ ReflTransGen (LinksTo nodes) a "" := by
  have hsub : ∀ a b, KeptLink nodes a b → LinksTo nodes a b := fun _ _ h => h.1
  constructor
  · intro hkept
    refine ⟨hkept.mono hsub, ?_⟩
    rcases avoids_or_reaches "" hkept with havoids | hreaches
    · exact absurd (TransGen.mono (fun _ _ h => ⟨⟨h.1.1, h.2⟩, h.1.2⟩) a a havoids)
        not_onCycle_searchedTo_cut
    · exact ReflTransGen.mono hsub a "" hreaches
  · rintro ⟨hcycle, hreaches⟩
    -- A closing id lies on a cycle the search sees, which no empty id is on.
    refine CutAt.onCycle hcycle fun c hca hcloses => ?_
    exact not_onCycle_searchedTo_empty
      (hcloses.1.of_reaches_sub (linksTo_rightUnique nodes) (fun _ _ h => h.1)
        (hca.trans hreaches))

/-- Where the search sees every link, the links that are kept have no cycle. -/
theorem keptLink_acyclic (hseen : SearchedTo nodes = LinksTo nodes) (a : String) :
    ¬ OnCycle (KeptLink nodes) a := by
  intro ha
  obtain ⟨hcycle, hreaches⟩ := onCycle_keptLink_iff.mp ha
  have hempty := hcycle.of_reaches (linksTo_rightUnique nodes) hreaches
  rw [← hseen] at hempty
  exact not_onCycle_searchedTo_empty hempty

end Nodes

end FormRules
