import Mathlib.Tactic

/-!
# Sorting by a key

Sorting by an integer key leaves the elements of one key in their order.  A
sorted list is determined by its parts of one key each, so sorting commutes
with whatever acts on these parts alone: with taking out elements, and with
putting lists one behind the other, which becomes a merge.
-/

namespace FormRules

variable {α : Type} {key : α → Int}

/-- The comparison by a key. -/
def byKey (key : α → Int) (a b : α) : Bool := decide (key a ≤ key b)

def SortedBy (key : α → Int) (xs : List α) : Prop := xs.Pairwise fun a b => key a ≤ key b

/-- The elements of one key. -/
def withKey (key : α → Int) (k : Int) (xs : List α) : List α := xs.filter fun a => key a = k

theorem byKey_trans (key : α → Int) (a b c : α) (hab : byKey key a b = true)
    (hbc : byKey key b c = true) : byKey key a c = true := by
  simp only [byKey, decide_eq_true_eq] at *
  omega

theorem byKey_total (key : α → Int) (a b : α) : (byKey key a b || byKey key b a) = true := by
  simp only [byKey, Bool.or_eq_true, decide_eq_true_eq]
  omega

theorem sortedBy_mergeSort (key : α → Int) (xs : List α) :
    SortedBy key (xs.mergeSort (byKey key)) := by
  have h := List.pairwise_mergeSort (byKey_trans key) (byKey_total key) xs
  simpa [SortedBy, byKey] using h

theorem mem_withKey_self (key : α → Int) {a : α} {xs : List α} :
    a ∈ withKey key (key a) xs ↔ a ∈ xs := by
  simp [withKey]

theorem withKey_cons (k : Int) (a : α) (xs : List α) :
    withKey key k (a :: xs) = if key a = k then a :: withKey key k xs else withKey key k xs := by
  simp [withKey, List.filter_cons]

theorem withKey_append (k : Int) (xs ys : List α) :
    withKey key k (xs ++ ys) = withKey key k xs ++ withKey key k ys := by
  simp [withKey]

theorem withKey_filter (p : α → Bool) (k : Int) (xs : List α) :
    withKey key k (xs.filter p) = (withKey key k xs).filter p := by
  simp [withKey, List.filter_filter, Bool.and_comm]

/-- Sorted lists are equal when their parts of each key are. -/
theorem SortedBy.ext {xs ys : List α} (hxs : SortedBy key xs) (hys : SortedBy key ys)
    (h : ∀ k, withKey key k xs = withKey key k ys) : xs = ys := by
  have hmem : ∀ a, a ∈ xs ↔ a ∈ ys := by
    intro a
    rw [← mem_withKey_self key, h, mem_withKey_self]
  induction xs generalizing ys with
  | nil =>
      have hnil : ∀ a, a ∉ ys := fun a ha => by simpa using (hmem a).mpr ha
      exact (List.eq_nil_iff_forall_not_mem.mpr hnil).symm
  | cons a rest ih =>
      cases ys with
      | nil => simpa using (hmem a).mp
      | cons b others =>
          obtain ⟨hfirst, hrest⟩ := List.pairwise_cons.mp hxs
          obtain ⟨hfirst', hothers⟩ := List.pairwise_cons.mp hys
          have hle : key a ≤ key b := by
            rcases List.mem_cons.mp ((hmem b).mpr (List.mem_cons_self ..)) with heq | hb
            · exact heq ▸ le_rfl
            · exact hfirst b hb
          have hge : key b ≤ key a := by
            rcases List.mem_cons.mp ((hmem a).mp (List.mem_cons_self ..)) with heq | ha
            · exact heq ▸ le_rfl
            · exact hfirst' a ha
          have hkey : key a = key b := le_antisymm hle hge
          have hheads := h (key b)
          rw [withKey_cons, withKey_cons, if_pos hkey, if_pos rfl, List.cons.injEq] at hheads
          have heq : a = b := hheads.1
          subst heq
          have htails : ∀ k, withKey key k rest = withKey key k others := by
            intro k
            have hk := h k
            rw [withKey_cons, withKey_cons] at hk
            split at hk
            · exact (List.cons.inj hk).2
            · exact hk
          rw [ih hrest hothers htails fun c => by
            rw [← mem_withKey_self key, htails, mem_withKey_self]]

/-! ## Sorting -/

theorem withKey_mergeSort (k : Int) (xs : List α) :
    withKey key k (xs.mergeSort (byKey key)) = withKey key k xs := by
  have hsorted : (withKey key k xs).Pairwise fun a b => byKey key a b = true := by
    refine List.pairwise_of_forall_mem_list fun a ha b hb => ?_
    have hak : key a = k := by simpa using (List.mem_filter.mp ha).2
    have hbk : key b = k := by simpa using (List.mem_filter.mp hb).2
    simp [byKey, hak, hbk]
  have hsub := List.sublist_mergeSort (byKey_trans key) (byKey_total key) hsorted
    List.filter_sublist
  have hperm := ((List.mergeSort_perm xs (byKey key)).filter fun a => key a = k).length_eq
  have hkept : (withKey key k xs).Sublist (withKey key k (xs.mergeSort (byKey key))) := by
    simpa [withKey] using hsub.filter fun a => key a = k
  exact (hkept.eq_of_length hperm.symm).symm

theorem filter_mergeSort (p : α → Bool) (xs : List α) :
    (xs.mergeSort (byKey key)).filter p = (xs.filter p).mergeSort (byKey key) := by
  refine SortedBy.ext ((sortedBy_mergeSort key xs).filter p) (sortedBy_mergeSort key _) ?_
  intro k
  rw [withKey_filter, withKey_mergeSort, withKey_mergeSort, withKey_filter]

/-- What holds between the elements of a list in their order holds after sorting
between those of one key. -/
theorem pairwise_mergeSort_byKey (key : α → Int) {r : α → α → Prop} {xs : List α}
    (h : xs.Pairwise r) :
    (xs.mergeSort (byKey key)).Pairwise fun a b => key a < key b ∨ key a = key b ∧ r a b := by
  refine List.pairwise_iff_forall_sublist.mpr fun {a b} hab => ?_
  have hle : key a ≤ key b :=
    List.pairwise_iff_forall_sublist.mp (sortedBy_mergeSort key xs) hab
  rcases lt_or_eq_of_le hle with hlt | heq
  · exact .inl hlt
  · have hpart : [a, b].Sublist (withKey key (key b) xs) := by
      rw [← withKey_mergeSort]
      simpa [withKey, heq] using hab.filter fun c => key c = key b
    exact .inr ⟨heq, List.pairwise_iff_forall_sublist.mp h (hpart.trans List.filter_sublist)⟩

/-! ## Merging -/

theorem withKey_merge (k : Int) {xs ys : List α} (hxs : SortedBy key xs)
    (hys : SortedBy key ys) :
    withKey key k (xs.merge ys (byKey key)) = withKey key k xs ++ withKey key k ys := by
  induction xs generalizing ys with
  | nil => simp [withKey]
  | cons a rest ih =>
      obtain ⟨hfirst, hrest⟩ := List.pairwise_cons.mp hxs
      induction ys with
      | nil => simp [withKey]
      | cons b others ih' =>
          obtain ⟨hfirst', hothers⟩ := List.pairwise_cons.mp hys
          rw [List.cons_merge_cons]
          by_cases hab : key a ≤ key b
          · rw [if_pos (by simpa [byKey] using hab), withKey_cons, withKey_cons, ih hrest hys]
            split <;> rfl
          · rw [if_neg (by simpa [byKey] using hab), withKey_cons, withKey_cons k b, ih' hothers]
            split
            · -- The first list has no element of the key that comes first.
              have hnone : withKey key k (a :: rest) = [] := by
                refine List.filter_eq_nil_iff.mpr fun c hc => ?_
                have hle : key a ≤ key c := by
                  rcases List.mem_cons.mp hc with heq | hc
                  · exact heq ▸ le_rfl
                  · exact hfirst c hc
                simp only [decide_eq_true_eq]
                omega
              rw [hnone]
              rfl
            · rfl

/-- Sorting two lists one behind the other is merging them sorted. -/
theorem mergeSort_append (xs ys : List α) :
    (xs ++ ys).mergeSort (byKey key) =
      (xs.mergeSort (byKey key)).merge (ys.mergeSort (byKey key)) (byKey key) := by
  have hxs := sortedBy_mergeSort key xs
  have hys := sortedBy_mergeSort key ys
  have hmerge : SortedBy key
      ((xs.mergeSort (byKey key)).merge (ys.mergeSort (byKey key)) (byKey key)) := by
    have h := List.pairwise_merge (byKey_trans key) (byKey_total key)
      (xs.mergeSort (byKey key)) (ys.mergeSort (byKey key))
      (by simpa [SortedBy, byKey] using hxs) (by simpa [SortedBy, byKey] using hys)
    simpa [SortedBy, byKey] using h
  refine SortedBy.ext (sortedBy_mergeSort key _) hmerge ?_
  intro k
  rw [withKey_merge k hxs hys, withKey_mergeSort, withKey_mergeSort, withKey_mergeSort,
    withKey_append]

end FormRules
