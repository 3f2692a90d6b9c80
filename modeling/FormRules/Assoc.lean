/-!
# Ordered dictionaries

A dictionary is the list of its entries in the order in which their keys were
first written, each key once.  Writing to a key that is there changes its
entry in place; writing to a new key adds an entry at the end.
-/

namespace FormRules

/-- Entries by key, in the order in which the keys were first written. -/
abbrev Assoc (α : Type) := List (String × α)

namespace Assoc

variable {α : Type}

def get? (entries : Assoc α) (key : String) : Option α := entries.lookup key

def has (entries : Assoc α) (key : String) : Bool := (entries.lookup key).isSome

def keys (entries : Assoc α) : List String := entries.map (·.1)

def set (entries : Assoc α) (key : String) (value : α) : Assoc α :=
  match entries with
  | [] => [(key, value)]
  | (k, v) :: rest => if k = key then (key, value) :: rest else (k, v) :: set rest key value

/-- The dictionary that results from writing the entries one after another. -/
def ofPairs (pairs : List (String × α)) : Assoc α :=
  pairs.foldl (fun entries p => Assoc.set entries p.1 p.2) []

/-- The entries under keys other than the given ones. -/
def without (entries : Assoc α) (keys : List String) : Assoc α :=
  entries.filter fun e => !keys.contains e.1

/-- The first of the keys that has an entry, with its value. -/
def first? (entries : Assoc α) (keys : List String) : Option (String × α) :=
  keys.findSome? fun key => (Assoc.get? entries key).map fun v => (key, v)

theorem get?_set_self (entries : Assoc α) (key : String) (value : α) :
    Assoc.get? (Assoc.set entries key value) key = some value := by
  induction entries with
  | nil => simp [get?, set]
  | cons p rest ih =>
    obtain ⟨k, v⟩ := p
    by_cases h : k = key
    · simp [get?, set, h]
    · have hne : (key == k) = false := by simpa using fun e => h e.symm
      simpa [get?, set, h, List.lookup_cons, hne] using ih

theorem get?_set_of_ne {entries : Assoc α} {key other : String} (value : α)
    (h : other ≠ key) :
    Assoc.get? (Assoc.set entries key value) other = Assoc.get? entries other := by
  have hne : (other == key) = false := by simpa using h
  induction entries with
  | nil => simp [get?, set, List.lookup_cons, hne]
  | cons p rest ih =>
    obtain ⟨k, v⟩ := p
    by_cases hk : k = key
    · subst hk
      simp [get?, set, List.lookup_cons, hne]
    · simp only [get?, set, hk, if_false, List.lookup_cons] at ih ⊢
      rw [ih]

theorem set_of_not_mem {entries : Assoc α} {key : String} (h : key ∉ entries.keys) (value : α) :
    Assoc.set entries key value = entries ++ [(key, value)] := by
  induction entries with
  | nil => rfl
  | cons p rest ih =>
    obtain ⟨k, v⟩ := p
    obtain ⟨hne, hrest⟩ : key ≠ k ∧ key ∉ keys rest := by
      simpa [keys] using h
    simp [set, hne.symm, ih hrest]

theorem get?_mapValues {β : Type} (entries : Assoc α) (f : α → β) (key : String) :
    Assoc.get? (entries.map fun e => (e.1, f e.2)) key = (Assoc.get? entries key).map f := by
  induction entries with
  | nil => rfl
  | cons p rest ih =>
    obtain ⟨k, v⟩ := p
    by_cases hk : key = k
    · subst hk
      simp [get?]
    · have hne : (key == k) = false := by simpa using hk
      simpa [get?, List.lookup_cons, hne] using ih

theorem mem_of_get? {entries : Assoc α} {key : String} {value : α}
    (h : Assoc.get? entries key = some value) : (key, value) ∈ entries := by
  induction entries with
  | nil => simp [get?] at h
  | cons p rest ih =>
    obtain ⟨k, v⟩ := p
    by_cases hk : key = k
    · subst hk
      simp [get?] at h
      simp [h]
    · have hne : (key == k) = false := by simpa using hk
      simp only [get?, List.lookup_cons, hne] at h
      exact List.mem_cons_of_mem _ (ih h)

theorem mem_of_first? {entries : Assoc α} {keys : List String} {key : String} {value : α}
    (h : first? entries keys = some (key, value)) : key ∈ keys ∧ (key, value) ∈ entries := by
  obtain ⟨k, hk, hsome⟩ := List.exists_of_findSome?_eq_some h
  obtain ⟨v, hv, heq⟩ := Option.map_eq_some_iff.1 hsome
  cases heq
  exact ⟨hk, mem_of_get? hv⟩

/-- What stands under a key is found when no key stands twice. -/
theorem get?_of_mem {entries : Assoc α} (distinct : entries.keys.Nodup) {key : String}
    {value : α} (h : (key, value) ∈ entries) : Assoc.get? entries key = some value := by
  induction entries with
  | nil => simp at h
  | cons p rest ih =>
    obtain ⟨k, v⟩ := p
    obtain ⟨hfresh, hdistinct⟩ := List.nodup_cons.1 distinct
    rcases List.mem_cons.1 h with heq | hrest
    · cases heq
      simp [get?]
    · have hmem : key ∈ keys rest := List.mem_map.2 ⟨(key, value), hrest, rfl⟩
      have hne : key ≠ k := fun heq => hfresh (heq ▸ hmem)
      have hk : (key == k) = false := by simpa using hne
      simpa only [get?, List.lookup_cons, hk] using ih hdistinct hrest

end Assoc

end FormRules
