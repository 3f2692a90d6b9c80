import FormRules.Graph.Basic

/-!
# Finding cycles

The search walks forward from an id and keeps the path it is on, each id of it
with the links still to be tried.  Stepping onto an id of the path closes a
cycle.  An id all of whose links have been tried is explored and never entered
again, so descendants that are shared do not count as cycles.  The search ends
because every step uses up a link: those of the path are counted where they
stand, those of ids that were never entered in `freshLinks`.
-/

namespace FormRules

namespace Graph

/-- A place on the path of a search: an id and its links still to be tried. -/
structure Stop where
  id : String
  pending : List String

/-- The number of links of the ids that are not seen. -/
def freshLinks (g : Graph) (seen : String → Bool) : Nat :=
  match g with
  | [] => 0
  | e :: rest => (if seen e.1 then 0 else e.2.length) + freshLinks rest seen

/-- Links still to be tried on a path, counted twice, and its stops. -/
def pendingLinks : List Stop → Nat
  | [] => 0
  | stop :: below => 2 * stop.pending.length + 1 + pendingLinks below

/-- Whether a search on this path has met an id. -/
def seen (path : List Stop) (explored : List String) (id : String) : Bool :=
  (path.map (·.id)).contains id || explored.contains id

theorem freshLinks_congr {g : Graph} {p q : String → Bool} (h : ∀ id, p id = q id) :
    freshLinks g p = freshLinks g q := by
  have : p = q := funext h
  rw [this]

theorem freshLinks_mono {g : Graph} {p q : String → Bool} (h : ∀ id, p id = true → q id = true) :
    freshLinks g q ≤ freshLinks g p := by
  induction g with
  | nil => exact Nat.le_refl _
  | cons e rest ih =>
    simp only [freshLinks]
    by_cases hp : p e.1 = true
    · simp only [hp, h _ hp, if_true]
      omega
    · by_cases hq : q e.1 = true <;> simp [hp, hq] <;> omega

/-- Entering an id takes its links out of the fresh ones. -/
theorem freshLinks_enter {g : Graph} {p q : String → Bool} {id : String}
    (hp : p id = false) (hq : q id = true) (h : ∀ other, p other = true → q other = true) :
    freshLinks g q + ((Assoc.get? g id).getD []).length ≤ freshLinks g p := by
  induction g with
  | nil => simp [freshLinks, Assoc.get?]
  | cons e rest ih =>
    obtain ⟨k, links⟩ := e
    by_cases hk : id = k
    · subst hk
      have := freshLinks_mono (g := rest) h
      simp [freshLinks, Assoc.get?, hp, hq]
      omega
    · have hne : (id == k) = false := by simpa using hk
      simp only [freshLinks, Assoc.get?, List.lookup_cons, hne] at ih ⊢
      by_cases hpk : p k = true
      · simp only [hpk, h _ hpk, if_true]
        omega
      · by_cases hqk : q k = true <;> simp [hpk, hqk] <;> omega

/-- Continues a search.  The path stands with its last stop first; a cycle is
given as the path from the start, ended by the id that was met again. -/
def search (g : Graph) (path : List Stop) (explored : List String) : Option (List String) :=
  match path with
  | [] => none
  | ⟨id, []⟩ :: below => search g below (id :: explored)
  | ⟨id, next :: pending⟩ :: below =>
    let ids := id :: below.map (·.id)
    if ids.contains next then some (ids.reverse ++ [next])
    else if explored.contains next then search g (⟨id, pending⟩ :: below) explored
    else search g (⟨next, g.successors next⟩ :: ⟨id, pending⟩ :: below) explored
termination_by 2 * g.freshLinks (seen path explored) + pendingLinks path
decreasing_by
  · have : freshLinks g (seen below (id :: explored)) =
        freshLinks g (seen (⟨id, []⟩ :: below) explored) := by
      refine freshLinks_congr fun other => ?_
      simp only [seen, List.map_cons, List.contains_cons]
      rw [Bool.or_left_comm, Bool.or_assoc]
    simp only [pendingLinks]
    omega
  · have : freshLinks g (seen (⟨id, pending⟩ :: below) explored) =
        freshLinks g (seen (⟨id, next :: pending⟩ :: below) explored) :=
      freshLinks_congr fun other => by simp [seen]
    simp only [pendingLinks, List.length_cons]
    omega
  · rename_i hpath hexplored
    have h : freshLinks g (seen (⟨next, g.successors next⟩ :: ⟨id, pending⟩ :: below) explored) +
        ((Assoc.get? g next).getD []).length ≤
        freshLinks g (seen (⟨id, next :: pending⟩ :: below) explored) := by
      refine freshLinks_enter ?_ ?_ fun other ho => ?_
      · simp only [ids] at hpath
        simp only [seen, List.map_cons, Bool.or_eq_false_iff]
        exact ⟨by simpa using hpath, by simpa using hexplored⟩
      · simp [seen]
      · simp only [seen, List.map_cons, List.contains_cons, Bool.or_eq_true] at ho ⊢
        exact ho.imp_left Or.inr
    have := length_successors_le g next
    simp only [pendingLinks, List.length_cons]
    omega

/-- The path from an id to the first repeated id, if a cycle can be reached:
it starts with the id and ends with the one that is met again. -/
def findCycle (g : Graph) (start : String) : Option (List String) :=
  g.search [⟨start, g.successors start⟩] []

def hasCycle (g : Graph) (start : String) : Bool := (g.findCycle start).isSome

/-- Of a list of ids, those from which a cycle can be reached. -/
def idsReachingCycles (g : Graph) (ids : List String) : List String := ids.filter g.hasCycle

def pathText (path : List String) : String := " -> ".intercalate path

end Graph

end FormRules
