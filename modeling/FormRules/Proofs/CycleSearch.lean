import FormRules.Graph.Cycle
import FormRules.Proofs.Links

/-!
# What the cycle search finds

A search that ends with a path has walked a lasso: links from the start on, no
id twice, until the last link leads back to an id of the path.  A search that
ends without one has explored every id it entered, each after all the ids it
points to, so that none of them leads to a cycle.  `FindsCycles` puts the two
together: a path is found exactly where a cycle can be reached, whatever ids
are shared, repeated, unknown or left out among the links.

On parent links, where an id points to one other at most, the lasso also shows
where the cycle is entered and which id stands in front of that place.
-/

namespace FormRules

namespace Graph

open Relation

variable {g : Graph}

def Edge (g : Graph) (a b : String) : Prop := b ∈ g.successors a

/-- A path along links that ends at the first id it meets again. -/
structure Lasso (g : Graph) (start : String) (path : List String) : Prop where
  starts : path.head? = some start
  linked : path.IsChain g.Edge
  closed : ∃ stem entry loop,
    path = (stem ++ entry :: loop) ++ [entry] ∧ (stem ++ entry :: loop).Nodup

/-! ## The path of a search -/

/-- The path of a search follows links, meets no id twice, and what is still
to be tried are links. -/
structure Walked (g : Graph) (path : List Stop) : Prop where
  linked : (path.map Stop.id).reverse.IsChain g.Edge
  distinct : (path.map Stop.id).Nodup
  pending : ∀ stop ∈ path, ∀ next ∈ stop.pending, g.Edge stop.id next

theorem Walked.start (start : String) : g.Walked [⟨start, g.successors start⟩] := by
  constructor
  · simp
  · simp
  · intro stop hstop next hnext
    simp only [List.mem_singleton] at hstop
    subst hstop
    exact hnext

theorem Walked.leave {stop : Stop} {below : List Stop} (h : g.Walked (stop :: below)) :
    g.Walked below := by
  constructor
  · have hlinked := h.linked
    rw [List.map_cons, List.reverse_cons] at hlinked
    exact hlinked.left_of_append
  · exact (List.nodup_cons.mp h.distinct).2
  · intro other hother
    exact h.pending other (List.mem_cons_of_mem _ hother)

theorem Walked.skip {id next : String} {pending : List String} {below : List Stop}
    (h : g.Walked (⟨id, next :: pending⟩ :: below)) : g.Walked (⟨id, pending⟩ :: below) := by
  constructor
  · exact h.linked
  · exact h.distinct
  · intro stop hstop other hother
    rcases List.mem_cons.mp hstop with heq | hbelow
    · subst heq
      exact h.pending ⟨id, next :: pending⟩ (List.mem_cons_self ..) other
        (List.mem_cons_of_mem _ hother)
    · exact h.pending stop (List.mem_cons_of_mem _ hbelow) other hother

theorem Walked.linked_next {id next : String} {pending : List String} {below : List Stop}
    (h : g.Walked (⟨id, next :: pending⟩ :: below)) :
    ((id :: below.map Stop.id).reverse ++ [next]).IsChain g.Edge := by
  have hedge : g.Edge id next :=
    h.pending ⟨id, next :: pending⟩ (List.mem_cons_self ..) next (List.mem_cons_self ..)
  have hlinked := h.linked
  simp only [List.map_cons, List.reverse_cons] at hlinked ⊢
  rw [List.append_assoc]
  exact List.isChain_split.mpr ⟨hlinked, List.isChain_pair.mpr hedge⟩

theorem Walked.enter {id next : String} {pending : List String} {below : List Stop}
    (h : g.Walked (⟨id, next :: pending⟩ :: below))
    (hfresh : next ∉ id :: below.map Stop.id) :
    g.Walked (⟨next, g.successors next⟩ :: ⟨id, pending⟩ :: below) := by
  constructor
  · have hlinked := h.linked_next
    simpa using hlinked
  · exact List.nodup_cons.mpr ⟨hfresh, h.distinct⟩
  · intro stop hstop other hother
    rcases List.mem_cons.mp hstop with heq | hbelow
    · subst heq
      exact hother
    · exact h.skip.pending stop hbelow other hother

theorem Walked.lasso {id next start : String} {pending : List String} {below : List Stop}
    (h : g.Walked (⟨id, next :: pending⟩ :: below))
    (hstart : (id :: below.map Stop.id).getLast? = some start)
    (hmet : next ∈ id :: below.map Stop.id) :
    g.Lasso start ((id :: below.map Stop.id).reverse ++ [next]) := by
  constructor
  · rw [List.head?_append, List.head?_reverse, hstart]
    rfl
  · exact h.linked_next
  · obtain ⟨stem, loop, hsplit⟩ := List.append_of_mem (List.mem_reverse.mpr hmet)
    refine ⟨stem, next, loop, by rw [hsplit], ?_⟩
    rw [← hsplit]
    exact List.nodup_reverse.mpr h.distinct

/-! ## The steps of a search -/

theorem search_leave (id : String) (below : List Stop) (explored : List String) :
    g.search (⟨id, []⟩ :: below) explored = g.search below (id :: explored) := by
  rw [search]

theorem search_close {id next : String} (pending : List String) {below : List Stop}
    (explored : List String) (hmet : next ∈ id :: below.map Stop.id) :
    g.search (⟨id, next :: pending⟩ :: below) explored =
      some ((id :: below.map Stop.id).reverse ++ [next]) := by
  rw [search]
  exact if_pos (List.contains_iff_mem.mpr hmet)

theorem search_skip {id next : String} (pending : List String) {below : List Stop}
    {explored : List String} (hnew : next ∉ id :: below.map Stop.id)
    (hexplored : next ∈ explored) :
    g.search (⟨id, next :: pending⟩ :: below) explored =
      g.search (⟨id, pending⟩ :: below) explored := by
  rw [search]
  exact (if_neg (mt List.contains_iff_mem.mp hnew)).trans
    (if_pos (List.contains_iff_mem.mpr hexplored))

theorem search_enter {id next : String} (pending : List String) {below : List Stop}
    {explored : List String} (hnew : next ∉ id :: below.map Stop.id)
    (hfresh : next ∉ explored) :
    g.search (⟨id, next :: pending⟩ :: below) explored =
      g.search (⟨next, g.successors next⟩ :: ⟨id, pending⟩ :: below) explored := by
  rw [search]
  exact (if_neg (mt List.contains_iff_mem.mp hnew)).trans
    (if_neg (mt List.contains_iff_mem.mp hfresh))

/-- Induction along a search: a search is over, leaves an id, closes a cycle,
skips an explored id or enters a new one. -/
@[elab_as_elim]
theorem search_induction {motive : List Stop → List String → Prop}
    (path : List Stop) (explored : List String)
    (finish : ∀ explored, motive [] explored)
    (leave : ∀ explored id below, motive below (id :: explored) →
      motive (⟨id, []⟩ :: below) explored)
    (close : ∀ explored id next pending below, next ∈ id :: below.map Stop.id →
      motive (⟨id, next :: pending⟩ :: below) explored)
    (skip : ∀ explored id next pending below, next ∉ id :: below.map Stop.id →
      next ∈ explored → motive (⟨id, pending⟩ :: below) explored →
      motive (⟨id, next :: pending⟩ :: below) explored)
    (enter : ∀ explored id next pending below, next ∉ id :: below.map Stop.id →
      next ∉ explored →
      motive (⟨next, g.successors next⟩ :: ⟨id, pending⟩ :: below) explored →
      motive (⟨id, next :: pending⟩ :: below) explored) :
    motive path explored := by
  refine search.induct g motive finish leave ?_ ?_ ?_ path explored
  · intro explored id next pending below
    simpa using close explored id next pending below
  · intro explored id next pending below
    simpa using skip explored id next pending below
  · intro explored id next pending below
    simpa using enter explored id next pending below

/-- Whatever path the search comes back with is a lasso from where it
started. -/
theorem search_lasso {path : List Stop} {explored found : List String} {start : String}
    (hwalked : g.Walked path) (hstart : (path.map Stop.id).getLast? = some start)
    (hfound : g.search path explored = some found) : g.Lasso start found := by
  induction path, explored using search_induction (g := g) with
  | finish explored => simp at hstart
  | leave explored id below ih =>
      rw [search_leave] at hfound
      cases below with
      | nil => simp [search] at hfound
      | cons stop below =>
          exact ih hwalked.leave (by simpa using hstart) hfound
  | close explored id next pending below hmet =>
      rw [search_close pending explored hmet] at hfound
      have heq := Option.some.inj hfound
      subst heq
      exact hwalked.lasso hstart hmet
  | skip explored id next pending below hnew hexplored ih =>
      rw [search_skip pending hnew hexplored] at hfound
      exact ih hwalked.skip hstart hfound
  | enter explored id next pending below hnew hfresh ih =>
      rw [search_enter pending hnew hfresh] at hfound
      exact ih (hwalked.enter hnew) (by simpa using hstart) hfound

/-! ## The ids a search has explored -/

/-- Every explored id points only to ids that were explored before it. -/
def Settled (g : Graph) : List String → Prop
  | [] => True
  | id :: earlier => (∀ next, g.Edge id next → next ∈ earlier) ∧ g.Settled earlier

/-- Every link of an id on the path is still to be tried, leads to an explored
id, or has been taken to the stop `entered` in front of it. -/
def Tried (g : Graph) (explored : List String) : Option String → List Stop → Prop
  | _, [] => True
  | entered, stop :: below =>
    (∀ next, g.Edge stop.id next →
      next ∈ stop.pending ∨ next ∈ explored ∨ entered = some next) ∧
      g.Tried explored (some stop.id) below

/-- No cycle can be reached from ids that only lead to ids explored before
them. -/
theorem Settled.not_runsIntoCycle {explored : List String} (h : g.Settled explored)
    {id : String} (hid : id ∈ explored) : ¬ RunsIntoCycle g.Edge id := by
  induction explored generalizing id with
  | nil => simp at hid
  | cons latest earlier ih =>
      intro hcycle
      rcases List.mem_cons.mp hid with heq | hearlier
      · subst heq
        obtain ⟨next, hedge, hnext⟩ := hcycle.exists_link
        exact ih h.2 (h.1 next hedge) hnext
      · exact ih h.2 hearlier hcycle

theorem Tried.explore {explored : List String} {path : List Stop} {entered : Option String}
    (id : String) (h : g.Tried explored entered path) : g.Tried (id :: explored) entered path := by
  induction path generalizing entered with
  | nil => trivial
  | cons stop below ih =>
      refine ⟨fun next hedge => ?_, ih h.2⟩
      rcases h.1 next hedge with hpending | hexplored | hentered
      · exact .inl hpending
      · exact .inr (.inl (List.mem_cons_of_mem _ hexplored))
      · exact .inr (.inr hentered)

theorem Tried.leave {explored : List String} {id : String} {below : List Stop}
    (h : g.Tried explored none (⟨id, []⟩ :: below)) :
    g.Tried (id :: explored) none below := by
  cases below with
  | nil => trivial
  | cons stop below =>
      refine ⟨fun next hedge => ?_, h.2.2.explore id⟩
      rcases h.2.1 next hedge with hpending | hexplored | hentered
      · exact .inl hpending
      · exact .inr (.inl (List.mem_cons_of_mem _ hexplored))
      · have heq : id = next := Option.some.inj hentered
        subst heq
        exact .inr (.inl (List.mem_cons_self ..))

theorem Tried.skip {explored pending : List String} {id next : String} {below : List Stop}
    (hexplored : next ∈ explored)
    (h : g.Tried explored none (⟨id, next :: pending⟩ :: below)) :
    g.Tried explored none (⟨id, pending⟩ :: below) := by
  refine ⟨fun other hedge => ?_, h.2⟩
  rcases h.1 other hedge with hpending | hother
  · rcases List.mem_cons.mp hpending with heq | hpending
    · subst heq
      exact .inr (.inl hexplored)
    · exact .inl hpending
  · exact .inr hother

theorem Tried.enter {explored pending : List String} {id next : String} {below : List Stop}
    (h : g.Tried explored none (⟨id, next :: pending⟩ :: below)) :
    g.Tried explored none (⟨next, g.successors next⟩ :: ⟨id, pending⟩ :: below) := by
  refine ⟨fun other hedge => .inl hedge, fun other hedge => ?_, h.2⟩
  rcases h.1 other hedge with hpending | hexplored | hentered
  · rcases List.mem_cons.mp hpending with heq | hpending
    · subst heq
      exact .inr (.inr rfl)
    · exact .inl hpending
  · exact .inr (.inl hexplored)
  · simp at hentered

/-- A search that finds nothing has tried every link of its path, so no stop of
it runs into a cycle. -/
theorem not_runsIntoCycle_of_search {path : List Stop} {explored : List String}
    (hsettled : g.Settled explored) (htried : g.Tried explored none path)
    (hnone : g.search path explored = none) :
    ∀ stop ∈ path, ¬ RunsIntoCycle g.Edge stop.id := by
  induction path, explored using search_induction (g := g) with
  | finish explored => simp
  | leave explored id below ih =>
      -- Every link of the id has been tried, so it is settled as well.
      rw [search_leave] at hnone
      have hsettled' : g.Settled (id :: explored) := by
        refine ⟨fun next hedge => ?_, hsettled⟩
        rcases htried.1 next hedge with hpending | hexplored | hentered
        · simp at hpending
        · exact hexplored
        · simp at hentered
      intro stop hstop
      rcases List.mem_cons.mp hstop with heq | hbelow
      · subst heq
        exact hsettled'.not_runsIntoCycle (List.mem_cons_self ..)
      · exact ih hsettled' htried.leave hnone stop hbelow
  | close explored id next pending below hmet =>
      rw [search_close pending explored hmet] at hnone
      simp at hnone
  | skip explored id next pending below hnew hexplored ih =>
      rw [search_skip pending hnew hexplored] at hnone
      simpa using ih hsettled (htried.skip hexplored) hnone
  | enter explored id next pending below hnew hfresh ih =>
      rw [search_enter pending hnew hfresh] at hnone
      intro stop hstop
      have hrest := ih hsettled htried.enter hnone
      rcases List.mem_cons.mp hstop with heq | hbelow
      · subst heq
        exact hrest ⟨id, pending⟩ (by simp)
      · exact hrest stop (by simp [hbelow])

/-! ## Finding a cycle -/

theorem findCycle_lasso {start : String} {path : List String}
    (h : g.findCycle start = some path) : g.Lasso start path :=
  search_lasso (Walked.start start) rfl h

theorem reaches_of_isChain {r : String → String → Prop} {a b : String} {path : List String}
    (h : (a :: path).IsChain r) (hb : b ∈ a :: path) : ReflTransGen r a b := by
  induction path generalizing a with
  | nil =>
      have heq : b = a := by simpa using hb
      subst heq
      exact .refl
  | cons c rest ih =>
      obtain ⟨hac, hrest⟩ := List.isChain_cons_cons.mp h
      rcases List.mem_cons.mp hb with heq | hmem
      · subst heq
        exact .refl
      · exact .head hac (ih hrest hmem)

theorem entersCycleAt_of_isChain {r : String → String → Prop} {start entry : String}
    {stem : List String} (hchain : (stem ++ [entry]).IsChain r)
    (hstart : (stem ++ [entry]).head? = some start) (hentry : OnCycle r entry)
    (hoff : ∀ id ∈ stem, ¬ OnCycle r id) : EntersCycleAt r start entry := by
  induction stem generalizing start with
  | nil =>
      have heq : entry = start := by simpa using hstart
      subst heq
      exact .here hentry
  | cons id rest ih =>
      have heq : id = start := by simpa using hstart
      subst heq
      have hne : rest ++ [entry] ≠ [] := by simp
      obtain ⟨next, tail, hnext⟩ := List.exists_cons_of_ne_nil hne
      rw [List.cons_append, hnext, List.isChain_cons_cons] at hchain
      refine .step (hoff id (List.mem_cons_self ..)) hchain.1 ?_
      refine ih ?_ ?_ fun other hother => hoff other (List.mem_cons_of_mem _ hother)
      · rw [hnext]
        exact hchain.2
      · rw [hnext]
        rfl

namespace Lasso

variable {start : String} {path : List String}

/-- The parts of a lasso: the way to the place where the path ends, the way
around, and the last id before that place. -/
theorem exists_parts (h : g.Lasso start path) :
    ∃ stem entry front closing,
      path.dropLast = stem ++ (front ++ [closing]) ∧ (stem ++ (front ++ [closing])).Nodup ∧
        entry ∈ front ++ [closing] ∧ (stem ++ [entry]).head? = some start ∧
        (stem ++ [entry]).IsChain g.Edge ∧ g.Edge closing entry ∧
        (∀ id ∈ front ++ [closing], ReflTransGen g.Edge entry id) := by
  obtain ⟨stem, entry, loop, hpath, hdistinct⟩ := h.closed
  obtain ⟨front, closing, hfront⟩ :=
    (List.eq_nil_or_concat' (entry :: loop)).resolve_left (List.cons_ne_nil _ _)
  have hlinked := h.linked
  have hstart := h.starts
  rw [hpath] at hlinked hstart
  refine ⟨stem, entry, front, closing, ?_, ?_, ?_, ?_, ?_, ?_, ?_⟩
  · rw [hpath, hfront, List.dropLast_concat]
  · rw [← hfront]
    exact hdistinct
  · rw [← hfront]
    exact List.mem_cons_self ..
  · cases stem <;> simpa using hstart
  · rw [List.append_assoc, List.cons_append] at hlinked
    exact (List.isChain_split.mp hlinked).1
  · rw [hfront, ← List.append_assoc, List.append_assoc _ [closing]] at hlinked
    exact (List.isChain_append_cons_cons.mp hlinked).2.1
  · intro id hid
    rw [← hfront] at hid
    rw [List.append_assoc, List.cons_append] at hlinked
    refine reaches_of_isChain (List.isChain_split.mp hlinked).2 ?_
    simp only [List.mem_cons, List.mem_append] at hid ⊢
    tauto

theorem runsIntoCycle (h : g.Lasso start path) : RunsIntoCycle g.Edge start := by
  obtain ⟨stem, entry, front, closing, -, -, -, hstart, hchain, hedge, hreach⟩ := h.exists_parts
  have hcycle : OnCycle g.Edge entry := TransGen.tail' (hreach closing (by simp)) hedge
  refine ⟨entry, ?_, hcycle⟩
  cases stem with
  | nil =>
      have heq : entry = start := by simpa using hstart
      subst heq
      exact .refl
  | cons id rest =>
      have heq : id = start := by simpa using hstart
      subst heq
      exact reaches_of_isChain hchain (by simp)

/-- Where at most one link leaves an id, the path ends where the cycle is
entered, and the last id before the end closes the cycle. -/
theorem closing (hr : Relator.RightUnique g.Edge) (h : g.Lasso start path) :
    ∃ entry closing, path.dropLast.getLast? = some closing ∧
      EntersCycleAt g.Edge start entry ∧ g.Edge closing entry ∧ OnCycle g.Edge closing := by
  obtain ⟨stem, entry, front, closing, hdrop, hdistinct, hmem, hstart, hchain, hedge, hreach⟩ :=
    h.exists_parts
  have hcycle : OnCycle g.Edge entry := TransGen.tail' (hreach closing (by simp)) hedge
  have hclosing : OnCycle g.Edge closing := hcycle.of_reaches hr (hreach closing (by simp))
  refine ⟨entry, closing, by simp [hdrop], ?_, hedge, hclosing⟩
  refine entersCycleAt_of_isChain hchain hstart hcycle fun id hid hidcycle => ?_
  -- The last id of the way to the cycle would be a second one that links to its entry.
  obtain ⟨before, after, hsplit⟩ := List.append_of_mem hid
  obtain ⟨rest, last, hlast⟩ :=
    (List.eq_nil_or_concat' (id :: after)).resolve_left (List.cons_ne_nil _ _)
  rw [hsplit, List.append_assoc, List.cons_append] at hchain
  have hway := (List.isChain_split.mp hchain).2
  have hlastmem : last ∈ id :: after := by simp [hlast]
  have hlastcycle : OnCycle g.Edge last := by
    refine hidcycle.of_reaches hr (reaches_of_isChain hway ?_)
    simp only [List.mem_cons, List.mem_append] at hlastmem ⊢
    tauto
  have hlastedge : g.Edge last entry := by
    rw [← List.cons_append, hlast, List.append_assoc] at hway
    exact (List.isChain_append_cons_cons.mp hway).2.1
  have heq : last = closing := hlastcycle.eq_of_common_link hr hclosing hlastedge hedge
  have hstem : last ∈ stem := by
    rw [hsplit]
    exact List.mem_append_right _ hlastmem
  have hdisjoint := (List.nodup_append'.mp hdistinct).2.2
  exact hdisjoint hstem (by simp [heq])

end Lasso

/-- The search finds nothing exactly when no cycle can be reached. -/
theorem findCycle_eq_none_iff {start : String} :
    g.findCycle start = none ↔ ¬ RunsIntoCycle g.Edge start := by
  constructor
  · intro hnone
    have htried : g.Tried [] none [⟨start, g.successors start⟩] :=
      ⟨fun next hedge => .inl hedge, trivial⟩
    have hsettled : g.Settled [] := trivial
    exact not_runsIntoCycle_of_search hsettled htried hnone ⟨start, g.successors start⟩ (by simp)
  · intro hno
    cases hfound : g.findCycle start with
    | none => rfl
    | some path => exact absurd (findCycle_lasso hfound).runsIntoCycle hno

/-! ## What is found -/

theorem edge_iff {a b : String} :
    g.Edge a b ↔ ∃ links, Assoc.get? g a = some links ∧ some b ∈ links := by
  unfold Edge successors
  cases Assoc.get? g a with
  | none => simp
  | some links => simp

/-- A path from an id along links, without repetition up to its last id, which
has been met before. -/
structure ClosesCycle (g : Graph) (start : String) (path : List String) : Prop where
  starts : path.head? = some start
  linked : path.IsChain g.Edge
  distinct : path.dropLast.Nodup
  revisits : ∃ last, path.getLast? = some last ∧ last ∈ path.dropLast

theorem Lasso.closesCycle {start : String} {path : List String} (h : g.Lasso start path) :
    g.ClosesCycle start path := by
  obtain ⟨stem, entry, loop, hpath, hdistinct⟩ := h.closed
  have hdrop : path.dropLast = stem ++ entry :: loop := by
    rw [hpath, List.dropLast_concat]
  refine ⟨h.starts, h.linked, ?_, entry, ?_, ?_⟩
  · rw [hdrop]
    exact hdistinct
  · rw [hpath, List.getLast?_concat]
  · simp [hdrop]

theorem hasCycle_iff {start : String} : g.hasCycle start = true ↔ RunsIntoCycle g.Edge start := by
  unfold hasCycle
  rw [Option.isSome_iff_ne_none, ne_eq, findCycle_eq_none_iff, not_not]

instance (g : Graph) : DecidablePred (RunsIntoCycle g.Edge) := fun _ =>
  decidable_of_iff _ hasCycle_iff

/-- What the search says about the cycles of a graph. -/
structure FindsCycles (g : Graph) : Prop where
  /-- The edges are the links that are listed and not empty. -/
  edge_iff : ∀ a b, g.Edge a b ↔ ∃ links, Assoc.get? g a = some links ∧ some b ∈ links
  found_iff : ∀ start, (∃ path, g.findCycle start = some path) ↔
    ∃ id, ReflTransGen g.Edge start id ∧ OnCycle g.Edge id
  closes : ∀ start path, g.findCycle start = some path → g.ClosesCycle start path
  off_cycle : ∀ start, g.findCycle start = none →
    ∀ id, ReflTransGen g.Edge start id → ¬ OnCycle g.Edge id
  reaching : ∀ ids,
    g.idsReachingCycles ids = ids.filter fun id => decide (RunsIntoCycle g.Edge id)

/-- In every graph and from every start the search finds a cycle when one can be
reached, the path it gives leads into it, and the ids that reach cycles are
those for which it finds one. -/
theorem findsCycles (g : Graph) : g.FindsCycles where
  edge_iff := fun _ _ => edge_iff
  found_iff := by
    intro start
    rw [← Option.isSome_iff_exists]
    exact hasCycle_iff
  closes := fun _ _ hfound => (findCycle_lasso hfound).closesCycle
  off_cycle := by
    intro start hnone id hreach hcycle
    exact findCycle_eq_none_iff.mp hnone ⟨id, hreach, hcycle⟩
  reaching := by
    intro ids
    refine List.filter_congr fun id _ => ?_
    rw [Bool.eq_iff_iff, hasCycle_iff, decide_eq_true_iff]

/-- Links that are shared, repeated, empty or lead to an id that is not listed
close no cycle, and the cycle behind them is found. -/
theorem findsCycles_shared :
    let g : Graph := [("s", [some "x", some "c"]), ("x", [some "y", some "z", none, some "y"]),
      ("y", [some "w"]), ("z", [some "w", some "ghost"]), ("c", [some "d"]), ("d", [some "c"])]
    g.FindsCycles ∧ g.findCycle "x" = none ∧ g.findCycle "s" = some ["s", "c", "d", "c"] ∧
      g.idsReachingCycles ["d", "x", "s", "d", "ghost"] = ["d", "s", "d"] := by
  exact ⟨findsCycles _, by decide +kernel, by decide +kernel, by decide +kernel⟩

end Graph

end FormRules
