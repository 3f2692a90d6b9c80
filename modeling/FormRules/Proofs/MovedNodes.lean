import FormRules.Proofs.ForestBranches
import FormRules.Proofs.ReportedDefects
import FormRules.Proofs.SettledLists
import FormRules.Proofs.TreeShape

/-!
# Moving a node of a list without issues

A node of a list without issues is assigned another node of the list as its
parent.  This makes a loop exactly when that parent is the node itself or one of
its descendants in the tree.  The loop is then the only cycle, and the nodes
whose chains of parents run into it are the node and its descendants: a check
reports these and nothing else, and a repair breaks the loop with one fix.  Any
other move leaves a list without issues, which a repair returns as it is.
-/

namespace FormRules

open Relation

namespace Nodes

variable {nodes : List Node} {x p : String}

/-! ## Lists without issues -/

namespace WellLinked

theorem of_no_issues (h : structureIssues nodes = []) : WellLinked nodes :=
  (structureIssues_eq_nil_iff (linkRead_of_no_issues h)).mp h

theorem not_closesCycle (h : WellLinked nodes) {starts : List String} {id : String} :
    ¬ ClosesCycle (LinksTo nodes) starts id :=
  fun hcloses => h.acyclic id hcloses.1

theorem not_orphaned (h : WellLinked nodes) {node : Node} (hnode : node ∈ nodes) :
    ¬ Orphaned nodes node := by
  intro horphan
  rcases horphan with ⟨id, hparent, hunknown⟩
  exact hunknown (mem_ids_iff.mpr (h.resolved node hnode id hparent))

theorem settled (h : WellLinked nodes) : Settled nodes := by
  intro node hnode hunlinked
  rcases hunlinked with horphan | hcloses
  · exact h.not_orphaned (mem_of_mem_firsts hnode) horphan
  · exact h.not_closesCycle hcloses

theorem keptLink_eq (h : WellLinked nodes) (hread : ∀ node ∈ nodes, node.LinkRead) :
    KeptLink nodes = LinksTo nodes := by
  funext a b
  unfold KeptLink CutAt
  rw [searchedTo_eq_linksTo hread]
  exact propext (and_iff_left h.not_closesCycle)

end WellLinked

/-! ## Descendants and links -/

theorem exists_childOf {a : String} {q : Placed} (hq : q ∈ Forest.ofNodes nodes)
    (hkept : KeptLink nodes a q.id) : ∃ p, p.id = a ∧ (Forest.ofNodes nodes).ChildOf p q := by
  have ha : a ∈ (Forest.ofNodes nodes).ids := by
    rw [Forest.ids_ofNodes]
    exact hkept.1.mem_ids
  rcases List.mem_map.mp ha with ⟨p, hp, hid⟩
  rw [← hid] at hkept
  have hparent := (Forest.parent_ofNodes_iff hp).mpr hkept
  exact ⟨p, hid, hp, (Forest.ofNodes_wired nodes).parent?_eq_some_iff.mpr ⟨hq, hparent⟩⟩

/-- The ids below a node of the forest are those whose links lead up to it. -/
theorem mem_descendants_iff (hacyclic : ∀ id, ¬ OnCycle (KeptLink nodes) id) {q : Placed}
    (hq : q ∈ Forest.ofNodes nodes) {id : String} :
    id ∈ ((Forest.ofNodes nodes).descendantsOf q).map Placed.id ↔
      TransGen (KeptLink nodes) id q.id := by
  have hwired := Forest.ofNodes_wired nodes
  have hplaced : ∀ p, ¬ TransGen (Forest.ofNodes nodes).ChildOf p p :=
    fun p hp => hacyclic p.id (Forest.onCycle_of_childOf hp)
  rw [List.mem_map]
  simp only [hwired.mem_descendantsOf_iff hplaced hq]
  constructor
  · intro h
    rcases h with ⟨p, hp, hid⟩
    rw [← hid]
    exact TransGen.lift Placed.id (fun _ _ hchild => hchild.keptLink) p q hp
  · intro h
    induction h using TransGen.head_induction_on with
    | @single a hlink =>
        rcases exists_childOf hq hlink with ⟨p, hid, hchild⟩
        exact ⟨p, .single hchild, hid⟩
    | @head a b hlink _ ih =>
        rcases ih with ⟨up, hup, hid⟩
        rw [← hid] at hlink
        rcases exists_childOf (Forest.mem_of_reaches hup) hlink with ⟨p, hpid, hchild⟩
        exact ⟨p, .head hchild hup, hpid⟩

/-! ## The moved node -/

def withParentAt (x : String) (parent : Value) (node : Node) : Node :=
  if node.id = x then node.setParent parent else node

theorem withParentAt_sameContent (x : String) (parent : Value) (node : Node) :
    node.SameContent (withParentAt x parent node) := by
  unfold withParentAt
  split
  · exact .setParent node parent
  · exact .setParent node node.parent

theorem relink_eq_map (h : (nodes.map Node.id).Nodup) (x : String) (parent : Value) :
    relink nodes x parent = nodes.map (withParentAt x parent) := by
  induction nodes with
  | nil => rfl
  | cons node rest ih =>
      rcases List.nodup_cons.mp h with ⟨hfresh, hrest⟩
      rw [relink, List.map_cons, ← ih hrest]
      by_cases hid : node.id = x
      · have hothers : relink rest x parent = rest := by
          rw [ih hrest]
          refine (List.map_congr_left fun other hother => ?_).trans (List.map_id rest)
          have hne : other.id ≠ x := fun heq =>
            hfresh (List.mem_map.mpr ⟨other, hother, heq.trans hid.symm⟩)
          exact if_neg hne
        rw [hothers, withParentAt, if_pos hid, if_pos hid]
      · rw [withParentAt, if_neg hid, if_neg hid]

section Moved

variable (hlinked : WellLinked nodes)

include hlinked

theorem firstsBy_relink (x : String) (parent : Value) :
    FirstsBy (withParentAt x parent) nodes (relink nodes x parent) := by
  rw [relink_eq_map hlinked.distinct]
  exact firstsBy_map (withParentAt_sameContent x parent) nodes

theorem mem_relink {node : Node} (h : node ∈ relink nodes x (.str p)) :
    ∃ old ∈ nodes, node.id = old.id ∧
      (node.parent = .str p ∨ node.parent = old.parent) := by
  rw [relink_eq_map hlinked.distinct] at h
  rcases List.mem_map.mp h with ⟨old, hold, heq⟩
  refine ⟨old, hold, ?_⟩
  rw [← heq]
  refine ⟨(withParentAt_sameContent x _ old).id_eq, ?_⟩
  unfold withParentAt
  split
  · exact .inl rfl
  · exact .inr rfl

theorem relink_distinct : ((relink nodes x (.str p)).map Node.id).Nodup := by
  have hids : (relink nodes x (.str p)).map Node.id = nodes.map Node.id := by
    rw [relink_eq_map hlinked.distinct, List.map_map]
    exact List.map_congr_left fun node _ => (withParentAt_sameContent x _ node).id_eq
  rw [hids]
  exact hlinked.distinct

theorem relink_notBlank : ∀ node ∈ relink nodes x (.str p), Text.isBlank node.id = false := by
  intro node hnode
  rcases mem_relink hlinked hnode with ⟨old, hold, hid, -⟩
  rw [hid]
  exact hlinked.notBlank old hold

variable (hp : p ∈ ids nodes)

include hp

theorem relink_linkRead (hread : ∀ node ∈ nodes, node.LinkRead) :
    ∀ node ∈ relink nodes x (.str p), node.LinkRead := by
  intro node hnode
  rcases mem_relink hlinked hnode with ⟨old, hold, -, hmoved | hkept⟩
  · refine ⟨some p, hmoved, ?_⟩
    intro id hid
    rcases mem_ids_iff.mp hp with ⟨target, htarget, heq⟩
    rw [← Option.some.inj hid, ← heq]
    exact hlinked.notBlank target htarget
  · rcases hread old hold with ⟨parent, hparent, hblank⟩
    exact ⟨parent, hkept.trans hparent, hblank⟩

theorem relink_resolved : ∀ node ∈ relink nodes x (.str p), ∀ id, node.parentId? = some id →
    ∃ other ∈ relink nodes x (.str p), other.id = id := by
  intro node hnode id hparent
  apply mem_ids_iff.mp
  rw [(firstsBy_relink hlinked x _).ids_eq]
  rcases mem_relink hlinked hnode with ⟨old, hold, -, hmoved | hkept⟩
  · rw [Node.parentId?, hmoved] at hparent
    rwa [← Option.some.inj hparent]
  · rw [Node.parentId?, hkept] at hparent
    exact mem_ids_iff.mpr (hlinked.resolved old hold id hparent)

section Read

variable (hread : ∀ node ∈ nodes, node.LinkRead)

include hread

/-- A move can bring no issue but of chains of parents that never end. -/
theorem kind_of_mem_relink {issue : Issue}
    (h : issue ∈ structureIssues (relink nodes x (.str p))) :
    issue.kind = .selfReference ∨ issue.kind = .circularReference := by
  rcases eq_of_mem_structureIssues (relink_linkRead hlinked hp hread) (relink_distinct hlinked)
      (relink_notBlank hlinked) (relink_resolved hlinked hp) h with ⟨id, heq⟩ | ⟨id, path, heq⟩
  · exact .inl (heq ▸ rfl)
  · exact .inr (heq ▸ rfl)

theorem no_issues_of_repaired : structureIssues (repaired (relink nodes x (.str p))) = [] := by
  rw [structureIssues_repaired_read (relink_linkRead hlinked hp hread), ← filter_structureIssues]
  apply List.filter_eq_nil_iff.mpr
  intro issue hissue
  rcases kind_of_mem_relink hlinked hp hread hissue with hkind | hkind <;> simp [hkind]

end Read

variable (hx : x ∈ ids nodes)

include hx

/-- Relinking a node redirects its link and leaves the others. -/
theorem linksTo_relink :
    LinksTo (relink nodes x (.str p)) = Redirected (LinksTo nodes) x p := by
  have hfirsts := firstsBy_relink hlinked x (.str p)
  funext a b
  apply propext
  unfold LinksTo Redirected
  rw [hfirsts.ids_eq, hfirsts.1]
  constructor
  · intro h
    rcases h with ⟨hb, node, hnode, hid, hparent⟩
    rcases List.mem_map.mp hnode with ⟨old, hold, heq⟩
    rw [← heq, (withParentAt_sameContent x _ old).id_eq] at hid
    rw [← heq] at hparent
    by_cases ha : old.id = x
    · rw [withParentAt, if_pos ha] at hparent
      exact .inl ⟨hid.symm.trans ha, (Option.some.inj hparent).symm⟩
    · rw [withParentAt, if_neg ha] at hparent
      exact .inr ⟨fun heq => ha (hid.trans heq), hb, old, hold, hid, hparent⟩
  · intro h
    rcases h with ⟨ha, hb⟩ | ⟨ha, hb, node, hnode, hid, hparent⟩
    · rcases List.mem_map.mp hx with ⟨node, hnode, hid⟩
      rw [ha, hb]
      refine ⟨hp, _, List.mem_map_of_mem hnode, ?_⟩
      rw [withParentAt, if_pos hid]
      exact ⟨hid, rfl⟩
    · refine ⟨hb, _, List.mem_map_of_mem hnode, ?_⟩
      rw [withParentAt, if_neg (hid ▸ ha)]
      exact ⟨hid, hparent⟩

/-- Moving a node below one that is not below it keeps a list well linked. -/
theorem relink_wellLinked (hopen : ¬ ReflTransGen (LinksTo nodes) p x) :
    WellLinked (relink nodes x (.str p)) := by
  constructor
  · exact relink_distinct hlinked
  · exact relink_notBlank hlinked
  · exact relink_resolved hlinked hp
  · intro id hcycle
    rw [linksTo_relink hlinked hp hx] at hcycle
    have hreach := Redirected.reaches_of_onCycle hlinked.acyclic hcycle
    have hruns : RunsIntoCycle (Redirected (LinksTo nodes) x p) id := ⟨id, .refl, hcycle⟩
    exact hopen ((Redirected.runsIntoCycle_iff (linksTo_rightUnique nodes)
      hlinked.acyclic).mp hruns).1

theorem mem_reportedAt_selfReference_relink_iff {id : String} :
    id ∈ Issue.reportedAt (structureIssues (relink nodes x (.str p))) .selfReference ↔
      p = x ∧ id = x := by
  rw [mem_reportedAt_selfReference_iff, linksTo_relink hlinked hp hx]
  constructor
  · intro h
    rcases h with ⟨hid, htarget⟩ | ⟨-, hself⟩
    · exact ⟨htarget.symm.trans hid, hid⟩
    · exact absurd (.single hself) (hlinked.acyclic id)
  · intro h
    exact .inl ⟨h.2, h.2.trans h.1.symm⟩

variable (hread : ∀ node ∈ nodes, node.LinkRead)

include hread

/-- If the new parent leads to the moved node, every id that leads to it is
reported as circular, but for a node that has become its own parent. -/
theorem mem_reportedAt_circularReference_relink_iff {id : String} :
    id ∈ Issue.reportedAt (structureIssues (relink nodes x (.str p))) .circularReference ↔
      ¬ (p = x ∧ id = x) ∧
        ReflTransGen (LinksTo nodes) p x ∧ ReflTransGen (LinksTo nodes) id x := by
  have hr := linksTo_rightUnique nodes
  have htargets : ∀ a b, LinksTo (relink nodes x (.str p)) a b →
      b ∈ ids (relink nodes x (.str p)) := fun a b hlink => hlink.1
  rw [mem_reportedAt_circularReference_iff (relink_linkRead hlinked hp hread),
    endless_iff_runsIntoCycle (linksTo_rightUnique _) htargets,
    ← mem_reportedAt_selfReference_iff, mem_reportedAt_selfReference_relink_iff hlinked hp hx,
    linksTo_relink hlinked hp hx, Redirected.runsIntoCycle_iff hr hlinked.acyclic]

theorem no_issues_of_open (hopen : ¬ ReflTransGen (LinksTo nodes) p x) :
    structureIssues (relink nodes x (.str p)) = [] :=
  (structureIssues_eq_nil_iff (relink_linkRead hlinked hp hread)).mpr
    (relink_wellLinked hlinked hp hx hopen)

section Loop

variable (hloop : ReflTransGen (LinksTo nodes) p x)

include hloop

omit hread in
/-- One first node closes the loop, and nothing else needs a repair. -/
theorem exists_unlinked_of_loop : ∃ closing, ∀ id,
    (∃ node ∈ firsts (relink nodes x (.str p)), node.id = id ∧
      Unlinked (relink nodes x (.str p)) node) ↔ id = closing := by
  have hr := linksTo_rightUnique (relink nodes x (.str p))
  have hlinks := linksTo_relink hlinked hp hx
  have hx' : x ∈ ids (relink nodes x (.str p)) := by
    rwa [(firstsBy_relink hlinked x _).ids_eq]
  have hcycle : OnCycle (LinksTo (relink nodes x (.str p))) x := by
    rw [hlinks]
    exact (Redirected.onCycle_iff (linksTo_rightUnique nodes)).mpr hloop
  rcases hcycle.exists_closesCycle hr ⟨x, hx', .refl⟩ with ⟨closing, hcloses, hreach⟩
  refine ⟨closing, fun id => ?_⟩
  constructor
  · intro h
    rcases h with ⟨node, hnode, hid, horphan | hother⟩
    · rcases horphan with ⟨parent, hparent, hunknown⟩
      have hknown := relink_resolved hlinked hp node (mem_of_mem_firsts hnode) parent hparent
      exact absurd (mem_ids_iff.mpr hknown) hunknown
    · rw [hid] at hother
      have hidx : ReflTransGen (LinksTo (relink nodes x (.str p))) id x := by
        have honcycle := hother.1
        rw [hlinks] at honcycle ⊢
        exact Redirected.reaches_of_onCycle hlinked.acyclic honcycle
      exact hother.unique hr hcloses (hidx.trans hreach)
  · intro h
    rcases hcloses.1.exists_link with ⟨b, hlink, -, -⟩
    rcases List.mem_map.mp hlink.mem_ids with ⟨node, hnode, hid⟩
    rw [h]
    exact ⟨node, hnode, hid, .inr (hid ▸ hcloses)⟩

/-- The one cycle that a move can bring about takes one fix. -/
theorem length_fixes_of_loop : (fixes (relink nodes x (.str p))).length = 1 := by
  rcases exists_unlinked_of_loop hlinked hp hx hloop with ⟨closing, hunlinked⟩
  have hread' : ∀ node ∈ relink nodes x (.str p), node.LinkRead :=
    relink_linkRead hlinked hp hread
  have hperm := fixes_nodeId_perm hread'
  have hone : (((firsts (relink nodes x (.str p))).filter fun node =>
      (Repair.ofNodes (relink nodes x (.str p))).relinked [] node ≠ node).map Node.id).Perm
        [closing] := by
    apply (List.perm_ext_iff_of_nodup (nodup_ids_filter _) (List.nodup_singleton closing)).mpr
    intro id
    rw [mem_changed_iff hread', hunlinked, List.mem_singleton]
  have hlength := (hperm.trans hone).length_eq
  rwa [List.length_map] at hlength

theorem mem_reportedAt_circularReference_of_loop {id : String} :
    id ∈ Issue.reportedAt (structureIssues (relink nodes x (.str p))) .circularReference ↔
      TransGen (LinksTo nodes) id x ∨ p ≠ x ∧ id = x := by
  rw [mem_reportedAt_circularReference_relink_iff hlinked hp hx hread, and_iff_right hloop,
    @reflTransGen_iff_eq_or_transGen _ _ id x]
  constructor
  · intro h
    rcases h with ⟨hother, heq | hreach⟩
    · exact .inr ⟨fun hself => hother ⟨hself, heq.symm⟩, heq.symm⟩
    · exact .inl hreach
  · intro h
    rcases h with hreach | ⟨hne, heq⟩
    · have hne : id ≠ x := fun heq => hlinked.acyclic x (heq ▸ hreach)
      exact ⟨fun hself => hne hself.2, .inr hreach⟩
    · exact ⟨fun hself => hne hself.1, .inl heq.symm⟩

theorem exists_issue_of_loop : ∃ issue ∈ structureIssues (relink nodes x (.str p)),
    issue.kind = .selfReference ∨ issue.kind = .circularReference := by
  have hreported : ∃ kind,
      x ∈ Issue.reportedAt (structureIssues (relink nodes x (.str p))) kind := by
    by_cases hself : p = x
    · exact ⟨_, (mem_reportedAt_selfReference_relink_iff hlinked hp hx).mpr ⟨hself, rfl⟩⟩
    · exact ⟨_, (mem_reportedAt_circularReference_of_loop hlinked hp hx hread hloop).mpr
        (.inr ⟨hself, rfl⟩)⟩
  rcases hreported with ⟨kind, hreported⟩
  rcases List.mem_filterMap.mp hreported with ⟨issue, hissue, -⟩
  have hissue := (List.mem_filter.mp hissue).1
  exact ⟨issue, hissue, kind_of_mem_relink hlinked hp hread hissue⟩

end Loop

end Moved

/-! ## What a move comes to -/

/-- A check reports the moved node and the ids below it, and nothing else; one
fix leaves no issue. -/
structure Loops (moved : List Node) (x p : String) (below : List String) : Prop where
  selfReference : ReportedOnce (structureIssues moved) .selfReference fun id => p = x ∧ id = x
  circularReference : ReportedOnce (structureIssues moved) .circularReference fun id =>
    id ∈ below ∨ p ≠ x ∧ id = x
  nothingElse : ∀ issue ∈ structureIssues moved,
    issue.kind = .selfReference ∨ issue.kind = .circularReference
  fixedOnce : (fixes moved).length = 1
  repaired : structureIssues (repaired moved) = []

/-- A check reports nothing and a repair changes nothing. -/
structure StaysClean (moved : List Node) : Prop where
  checked : structureIssues moved = []
  fixes_eq : fixes moved = []
  repaired_eq : repaired moved = moved

/-- What becomes of a list in which `x` was assigned the parent `p`, given the
ids below `x` before. -/
structure MoveOutcome (moved : List Node) (x p : String) (below : List String) : Prop where
  loops_iff : (∃ issue ∈ structureIssues moved,
    issue.kind = .selfReference ∨ issue.kind = .circularReference) ↔ p = x ∨ p ∈ below
  looped : p = x ∨ p ∈ below → Loops moved x p below
  unlooped : ¬ (p = x ∨ p ∈ below) → StaysClean moved

/-- Assigning a parent loops exactly when it is the node itself or lies below it
in the tree built before; the loop takes in what lies below, and nothing else
is ever wrong with the list. -/
theorem relink_outcome (h : structureIssues nodes = []) (hx : x ∈ ids nodes)
    (hp : p ∈ ids nodes) :
    ∃ placed, (Forest.ofNodes nodes).find? x = some placed ∧
      MoveOutcome (relink nodes x (.str p)) x p
        (((Forest.ofNodes nodes).descendantsOf placed).map Placed.id) := by
  have hread : ∀ node ∈ nodes, node.LinkRead := linkRead_of_no_issues h
  have hlinked : WellLinked nodes := .of_no_issues h
  have hwired := Forest.ofNodes_wired nodes
  rw [← Forest.ids_ofNodes] at hx
  rcases List.mem_map.mp hx with ⟨placed, hplaced, hid⟩
  rw [Forest.ids_ofNodes] at hx
  refine ⟨placed, hwired.find?_eq_some_iff.mpr ⟨hplaced, hid⟩, ?_⟩
  have hkept : KeptLink nodes = LinksTo nodes := hlinked.keptLink_eq hread
  have hbelow : ∀ id, id ∈ ((Forest.ofNodes nodes).descendantsOf placed).map Placed.id ↔
      TransGen (LinksTo nodes) id x := by
    intro id
    rw [mem_descendants_iff (fun id => hkept ▸ hlinked.acyclic id) hplaced, hkept, hid]
  have hloops : (p = x ∨ p ∈ ((Forest.ofNodes nodes).descendantsOf placed).map Placed.id) ↔
      ReflTransGen (LinksTo nodes) p x := by
    rw [hbelow, reflTransGen_iff_eq_or_transGen, @eq_comm _ x p]
  constructor
  · rw [hloops]
    constructor
    · intro hissue
      by_contra hopen
      rcases hissue with ⟨issue, hmem, -⟩
      rw [no_issues_of_open hlinked hp hx hread hopen] at hmem
      simp at hmem
    · exact exists_issue_of_loop hlinked hp hx hread
  · intro hloop
    rw [hloops] at hloop
    constructor
    · exact ⟨nodup_reportedAt _ _, fun id => mem_reportedAt_selfReference_relink_iff hlinked hp hx⟩
    · refine ⟨nodup_reportedAt _ _, fun id => ?_⟩
      exact (mem_reportedAt_circularReference_of_loop hlinked hp hx hread hloop).trans
        (or_congr_left (hbelow id).symm)
    · exact fun issue hissue => kind_of_mem_relink hlinked hp hread hissue
    · exact length_fixes_of_loop hlinked hp hx hread hloop
    · exact no_issues_of_repaired hlinked hp hread
  · intro hopen
    rw [hloops] at hopen
    have hmoved := relink_wellLinked hlinked hp hx hopen
    have hread' : ∀ node ∈ relink nodes x (.str p), node.LinkRead :=
      relink_linkRead hlinked hp hread
    constructor
    · exact no_issues_of_open hlinked hp hx hread hopen
    · exact hmoved.settled.fixes_eq hread'
    · exact hmoved.settled.repaired_eq hread'

def branchedNodes : Value :=
  .list [storedNode "r" .null 0, storedNode "c" (.str "b") 0, storedNode "a" (.str "r") 1,
    storedNode "b" (.str "a") 0, storedNode "d" (.str "r") 0]

theorem relink_outcome_branched :
    ∃ nodes, (read (.ok 100) branchedNodes).value = .ok nodes ∧
      structureIssues nodes = [] ∧ "a" ∈ ids nodes ∧ "c" ∈ ids nodes ∧
      (structureIssues (relink nodes "a" (.str "c"))).map
          (fun issue => (issue.kind, issue.nodeId?)) =
        [(.circularReference, some "c"), (.circularReference, some "a"),
          (.circularReference, some "b")] ∧
      ∃ placed, (Forest.ofNodes nodes).find? "a" = some placed ∧
        MoveOutcome (relink nodes "a" (.str "c")) "a" "c"
          (((Forest.ofNodes nodes).descendantsOf placed).map Placed.id) := by
  refine ⟨_, rfl, by with_unfolding_all rfl, by decide, by decide, by with_unfolding_all rfl, ?_⟩
  exact relink_outcome (by with_unfolding_all rfl) (by decide) (by decide)

end Nodes

end FormRules
