/-!
# First occurrences

The sublist that keeps, of all elements with one key, the first.
-/

namespace FormRules

variable {α : Type}

/-- The elements whose key occurs at no earlier element. -/
def distinctBy (key : α → String) : List α → List α
  | [] => []
  | a :: rest => a :: (distinctBy key rest).filter fun b => key b ≠ key a

/-- The texts of a list in the order of their first occurrence. -/
def distinct (texts : List String) : List String := distinctBy id texts

theorem distinctBy_sublist (key : α → String) (xs : List α) :
    (distinctBy key xs).Sublist xs := by
  induction xs with
  | nil => exact List.Sublist.slnil
  | cons a rest ih => exact (List.filter_sublist.trans ih).cons_cons a

theorem mem_of_mem_distinctBy {key : α → String} {xs : List α} {a : α}
    (h : a ∈ distinctBy key xs) : a ∈ xs :=
  (distinctBy_sublist key xs).subset h

theorem exists_mem_distinctBy {key : α → String} {xs : List α} {a : α} (h : a ∈ xs) :
    ∃ b ∈ distinctBy key xs, key b = key a := by
  induction xs with
  | nil => simp at h
  | cons c rest ih =>
    by_cases hc : key c = key a
    · exact ⟨c, by simp [distinctBy], hc⟩
    · rcases List.mem_cons.1 h with rfl | h
      · exact absurd rfl hc
      · obtain ⟨b, hb, hk⟩ := ih h
        refine ⟨b, ?_, hk⟩
        have : key b ≠ key c := fun e => hc (e ▸ hk)
        simp [distinctBy, hb, this]

theorem mem_distinct_iff {texts : List String} {s : String} : s ∈ distinct texts ↔ s ∈ texts := by
  constructor
  · exact mem_of_mem_distinctBy
  · intro h
    obtain ⟨t, ht, heq⟩ : ∃ t ∈ distinct texts, t = s := exists_mem_distinctBy h
    rwa [heq] at ht

theorem pairwise_distinctBy (key : α → String) (xs : List α) :
    (distinctBy key xs).Pairwise fun a b => key a ≠ key b := by
  induction xs with
  | nil => exact List.Pairwise.nil
  | cons a rest ih =>
    refine List.Pairwise.cons (fun b hb => ?_) (ih.filter _)
    have hne := (List.mem_filter.1 hb).2
    simp only [decide_eq_true_eq] at hne
    exact fun e => hne e.symm

theorem nodup_map_distinctBy (key : α → String) (xs : List α) :
    ((distinctBy key xs).map key).Nodup :=
  List.pairwise_map.mpr (pairwise_distinctBy key xs)

theorem mem_map_distinctBy_iff {key : α → String} {xs : List α} {s : String} :
    s ∈ (distinctBy key xs).map key ↔ s ∈ xs.map key := by
  rw [List.mem_map, List.mem_map]
  constructor
  · rintro ⟨a, ha, hkey⟩
    exact ⟨a, mem_of_mem_distinctBy ha, hkey⟩
  · rintro ⟨a, ha, hkey⟩
    obtain ⟨b, hb, heq⟩ : ∃ b ∈ distinctBy key xs, key b = key a := exists_mem_distinctBy ha
    exact ⟨b, hb, heq.trans hkey⟩

/-- Elements with distinct keys are all first ones. -/
theorem distinctBy_eq_self {key : α → String} {xs : List α} (h : (xs.map key).Nodup) :
    distinctBy key xs = xs := by
  induction xs with
  | nil => rfl
  | cons a rest ih =>
    rw [List.map_cons, List.nodup_cons] at h
    have hkept : rest.filter (fun b => key b ≠ key a) = rest := by
      refine List.filter_eq_self.mpr fun b hb => ?_
      have hne : key b ≠ key a := fun heq => h.1 (heq ▸ List.mem_map_of_mem hb)
      simpa using hne
    rw [distinctBy, ih h.2, hkept]

end FormRules
