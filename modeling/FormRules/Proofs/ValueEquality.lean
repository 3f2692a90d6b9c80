import FormRules.Condition.Comparator
import FormRules.Proofs.ReadBackDoubles

/-!
# Equality and order of values

Whether a value stands for a number can be told from its compared text.  So a
value is compared by one thing only: by nothing when it is missing, by its
number when it has one, and by its text otherwise.  Equal values are those that
are compared by the same thing, which makes equality an equivalence that the
operators on numbers and on lists respect.

A list holds a value when one of its elements equals it.  Here only elements that
are there count: a missing value equals a missing element and yet is no member.
-/

namespace FormRules

open Text

namespace Value

variable {mode : CaseMode} {a b : Value}

/-! ## Numbers and texts -/

theorem number?_text_isSome (v : Value) : (str v.text).number?.isSome = v.number?.isSome := by
  -- What has no number shows a letter or a bracket.
  cases v with
  | absent => exact number?_str_of_other_char 'A' (by decide) (by decide)
  | null => exact number?_str_of_other_char 'N' (by decide) (by decide)
  | bool value =>
      cases value with
      | false => exact number?_str_of_other_char 'f' (by decide) (by decide)
      | true => exact number?_str_of_other_char 't' (by decide) (by decide)
  | int n => exact congrArg Option.isSome (number?_intText n)
  | float x =>
      cases x with
      | finite x => exact congrArg Option.isSome x.number?_text
      | infinite negative =>
          cases negative with
          | false => exact number?_str_of_other_char 'f' (by decide) (by decide)
          | true => exact number?_str_of_other_char 'f' (by decide) (by decide)
      | nan => exact number?_str_of_other_char 'n' (by decide) (by decide)
  | str s => rfl
  | list items => exact number?_str_of_other_char '[' (by simp [text, plain, shown]) (by decide)
  | obj fields => exact number?_str_of_other_char '\x7b' (by simp [text, plain, shown]) (by decide)

/-- Whether a value stands for a number shows in its compared text. -/
theorem number?_comparedText_isSome (mode : CaseMode) (v : Value) :
    (str (v.comparedText mode)).number?.isSome = v.number?.isSome := by
  cases mode with
  | exact => exact number?_text_isSome v
  | folded => exact (number?_folded_isSome v.text).trans (number?_text_isSome v)

/-! ## What a value is compared by -/

inductive Standing where
  | missing
  | number (value : Int)
  | text (s : String)

def standing (mode : CaseMode) (v : Value) : Standing :=
  if v.isMissing then .missing
  else
    match v.number? with
    | some x => .number x.value
    | none => .text (v.comparedText mode)

theorem number?_of_isMissing {v : Value} (h : v.isMissing = true) : v.number? = none := by
  cases v with
  | absent => rfl
  | null => rfl
  | _ => exact absurd h Bool.false_ne_true

theorem isMissing_of_number? {v : Value} {x : Finite} (h : v.number? = some x) :
    v.isMissing = false := by
  rw [← Bool.not_eq_true]
  intro hmissing
  rw [number?_of_isMissing hmissing] at h
  exact Option.some_ne_none x h.symm

theorem standing_eq_missing_iff {v : Value} :
    v.standing mode = .missing ↔ v.isMissing = true := by
  unfold standing
  cases v.isMissing with
  | true => simp
  | false => cases v.number? <;> simp

theorem standing_eq_number_iff {v : Value} {n : Int} :
    v.standing mode = .number n ↔ v.number?.map Finite.value = some n := by
  unfold standing
  cases hmissing : v.isMissing with
  | true => simp [number?_of_isMissing hmissing]
  | false => cases v.number? <;> simp

theorem comparedText_ne (mode : CaseMode) (h : a.number?.isSome ≠ b.number?.isSome) :
    a.comparedText mode ≠ b.comparedText mode := by
  intro heq
  rw [← number?_comparedText_isSome mode a, ← number?_comparedText_isSome mode b, heq] at h
  exact h rfl

/-- Two values are equal when they stand for the same thing: nothing, a number
or a text. -/
theorem equals_iff_standing : a.equals mode b = true ↔ a.standing mode = b.standing mode := by
  cases hmissing : a.isMissing || b.isMissing with
  | true =>
      simp only [equals, hmissing, if_true, Bool.and_eq_true]
      constructor
      · intro hboth
        rw [standing_eq_missing_iff.mpr hboth.1, standing_eq_missing_iff.mpr hboth.2]
      · intro heq
        rcases Bool.or_eq_true_iff.mp hmissing with ha | hb
        · exact ⟨ha, standing_eq_missing_iff.mp (heq ▸ standing_eq_missing_iff.mpr ha)⟩
        · exact ⟨standing_eq_missing_iff.mp (heq ▸ standing_eq_missing_iff.mpr hb), hb⟩
  | false =>
      obtain ⟨ha, hb⟩ := Bool.or_eq_false_iff.mp hmissing
      cases hx : a.number? with
      | none =>
          cases hy : b.number? with
          | none => simp [equals, standing, ha, hb, hx, hy]
          | some y =>
              have htext := comparedText_ne mode (a := a) (b := b) (by simp [hx, hy])
              simp [equals, standing, ha, hb, hx, hy, htext]
      | some x =>
          cases hy : b.number? with
          | none =>
              have htext := comparedText_ne mode (a := a) (b := b) (by simp [hx, hy])
              simp [equals, standing, ha, hb, hx, hy, htext]
          | some y => simp [equals, standing, ha, hb, hx, hy]

theorem equals_equivalence (mode : CaseMode) :
    Equivalence fun a b : Value => a.equals mode b = true := by
  simp only [equals_iff_standing]
  exact ⟨fun _ => rfl, Eq.symm, Eq.trans⟩

-- A numeral too large to be finite is compared as a text.
example : (str "1e400").equals .folded (str "1E400") = true ∧
    (str "1e400").equals .exact (str "1E400") = false := by
  decide +kernel

/-! ## Operators under equality -/

theorem equals_congr {a' b' : Value} (ha : a.equals mode a' = true) (hb : b.equals mode b' = true) :
    a.equals mode b = a'.equals mode b' := by
  rw [equals_iff_standing] at ha hb
  rw [Bool.eq_iff_iff, equals_iff_standing, equals_iff_standing, ha, hb]

theorem number?_value_congr (h : a.equals mode b = true) :
    a.number?.map Finite.value = b.number?.map Finite.value := by
  rw [equals_iff_standing] at h
  apply Option.ext
  intro n
  rw [← standing_eq_number_iff, ← standing_eq_number_iff, h]

theorem numbersSatisfy_iff {r : Int → Int → Bool} :
    numbersSatisfy r a b = true ↔
      ∃ x y, a.number?.map Finite.value = some x ∧ b.number?.map Finite.value = some y ∧
        r x y = true := by
  unfold numbersSatisfy
  cases a.number? <;> cases b.number? <;> simp

theorem numbersSatisfy_congr {r : Int → Int → Bool} {a' b' : Value}
    (ha : a.equals mode a' = true) (hb : b.equals mode b' = true) :
    numbersSatisfy r a b = numbersSatisfy r a' b' := by
  rw [Bool.eq_iff_iff, numbersSatisfy_iff, numbersSatisfy_iff, number?_value_congr ha,
    number?_value_congr hb]

theorem isMissing_congr (h : a.equals mode b = true) : a.isMissing = b.isMissing := by
  rw [equals_iff_standing] at h
  rw [Bool.eq_iff_iff, ← standing_eq_missing_iff, h, standing_eq_missing_iff]

theorem memberOf_congr {v : Value} (h : a.equals mode b = true) :
    a.memberOf mode v = b.memberOf mode v := by
  have hitem : ∀ item : Value, a.equals mode item = b.equals mode item := fun item =>
    equals_congr h ((equals_equivalence mode).refl item)
  cases v <;> simp only [memberOf, isMissing_congr h, hitem]

theorem memberOf_list_congr {items items' : List Value}
    (h : List.Forall₂ (fun x y : Value => x.equals mode y = true) items items') :
    a.memberOf mode (.list items) = a.memberOf mode (.list items') := by
  have hany : (items.any fun item => a.equals mode item) =
      items'.any fun item => a.equals mode item := by
    induction h with
    | nil => rfl
    | cons hitem _ ih =>
        rw [List.any_cons, List.any_cons, ih,
          equals_congr ((equals_equivalence mode).refl a) hitem]
  simp only [memberOf, hany]

end Value

/-! ## Equality and order together -/

namespace Comparator

open Value

def orderings : List Comparator := [greaterThan, greaterThanOrEqual, lessThan, lessThanOrEqual]

/-- Equality and the orderings of a case mode fit together. -/
structure Coherent (mode : CaseMode) : Prop where
  equivalence : Equivalence fun a b : Value => a.equals mode b = true
  congruent : ∀ op ∈ equals :: notEquals :: orderings, ∀ a a' b b' : Value,
    a.equals mode a' = true → b.equals mode b' = true →
      op.holds mode a b = op.holds mode a' b'
  member_congruent : ∀ op ∈ [isIn, isNotIn], ∀ a a' expected : Value,
    a.equals mode a' = true → op.holds mode a expected = op.holds mode a' expected
  elements_congruent : ∀ op ∈ [isIn, isNotIn], ∀ (a : Value) (items items' : List Value),
    List.Forall₂ (fun x y : Value => x.equals mode y = true) items items' →
      op.holds mode a (.list items) = op.holds mode a (.list items')
  trichotomous : ∀ a b : Value, a.number?.isSome → b.number?.isSome →
    ∃! op, op ∈ [lessThan, equals, greaterThan] ∧ op.holds mode a b = true
  lessThanOrEqual_eq : ∀ a b : Value, a.number?.isSome → b.number?.isSome →
    lessThanOrEqual.holds mode a b = (lessThan.holds mode a b || equals.holds mode a b)
  greaterThanOrEqual_eq : ∀ a b : Value, a.number?.isSome → b.number?.isSome →
    greaterThanOrEqual.holds mode a b = (greaterThan.holds mode a b || equals.holds mode a b)
  unordered : ∀ op ∈ orderings, ∀ a b : Value, a.number? = none ∨ b.number? = none →
    op.holds mode a b = false

variable {mode : CaseMode} {a b : Value} {x y : Finite}

theorem holds_of_mem_orderings {op : Comparator} (h : op ∈ orderings) (mode : CaseMode) :
    ∃ r, ∀ a b, op.holds mode a b = numbersSatisfy r a b := by
  simp only [orderings, List.mem_cons, List.not_mem_nil, or_false] at h
  rcases h with rfl | rfl | rfl | rfl
  · exact ⟨fun x y => decide (y < x), fun _ _ => rfl⟩
  · exact ⟨fun x y => decide (y ≤ x), fun _ _ => rfl⟩
  · exact ⟨fun x y => decide (x < y), fun _ _ => rfl⟩
  · exact ⟨fun x y => decide (x ≤ y), fun _ _ => rfl⟩

theorem numbersSatisfy_swap (r : Int → Int → Bool) (a b : Value) :
    numbersSatisfy (fun x y => r y x) a b = numbersSatisfy r b a := by
  unfold numbersSatisfy
  cases a.number? <;> cases b.number? <;> rfl

theorem greaterThan_swap : greaterThan.holds mode a b = lessThan.holds mode b a :=
  numbersSatisfy_swap (fun x y => decide (x < y)) a b

theorem greaterThanOrEqual_swap :
    greaterThanOrEqual.holds mode a b = lessThanOrEqual.holds mode b a :=
  numbersSatisfy_swap (fun x y => decide (x ≤ y)) a b

section Numbers

variable (ha : a.number? = some x) (hb : b.number? = some y)

include ha hb

theorem equals_numbers : equals.holds mode a b = decide (x.value = y.value) := by
  simp only [holds, Value.equals, isMissing_of_number? ha, isMissing_of_number? hb, ha, hb]
  rfl

theorem lessThan_numbers : lessThan.holds mode a b = decide (x.value < y.value) := by
  simp [holds, numbersSatisfy, ha, hb]

theorem lessThanOrEqual_numbers : lessThanOrEqual.holds mode a b =
    (lessThan.holds mode a b || equals.holds mode a b) := by
  rw [lessThan_numbers ha hb, equals_numbers ha hb]
  simp [holds, numbersSatisfy, ha, hb, Int.le_iff_lt_or_eq]

/-- Of two numbers one is less, or they are equal, or one is greater, and only
one of these holds. -/
theorem existsUnique_order :
    ∃! op, op ∈ [lessThan, equals, greaterThan] ∧ op.holds mode a b = true := by
  have hless : lessThan.holds mode a b = decide (x.value < y.value) := lessThan_numbers ha hb
  have hequal : equals.holds mode a b = decide (x.value = y.value) := equals_numbers ha hb
  have hgreater : greaterThan.holds mode a b = decide (y.value < x.value) := by
    rw [greaterThan_swap, lessThan_numbers hb ha]
  rcases lt_trichotomy x.value y.value with hlt | heq | hgt
  · refine ⟨lessThan, by simp [hless, hlt], ?_⟩
    simp [hequal, hgreater, hlt.ne, hlt.le]
  · refine ⟨equals, by simp [hequal, heq], ?_⟩
    simp [hless, hgreater, heq]
  · refine ⟨greaterThan, by simp [hgreater, hgt], ?_⟩
    simp [hless, hequal, hgt.ne', hgt.le]

end Numbers

/-- In either case mode, equality is an equivalence that the orderings and
membership respect, two numbers are related by one of less, equal and greater,
and no ordering holds of anything but numbers. -/
theorem coherent (mode : CaseMode) : Coherent mode where
  equivalence := equals_equivalence mode
  congruent := by
    intro op hop a a' b b' ha hb
    simp only [List.mem_cons] at hop
    rcases hop with rfl | rfl | hordering
    · exact equals_congr ha hb
    · exact congrArg not (equals_congr ha hb)
    · obtain ⟨r, hr⟩ := holds_of_mem_orderings hordering mode
      rw [hr, hr, numbersSatisfy_congr ha hb]
  member_congruent := by
    intro op hop a a' expected ha
    simp only [List.mem_cons, List.not_mem_nil, or_false] at hop
    rcases hop with rfl | rfl
    · exact memberOf_congr ha
    · exact congrArg not (memberOf_congr ha)
  elements_congruent := by
    intro op hop a items items' hitems
    simp only [List.mem_cons, List.not_mem_nil, or_false] at hop
    rcases hop with rfl | rfl
    · exact memberOf_list_congr hitems
    · exact congrArg not (memberOf_list_congr hitems)
  trichotomous := by
    intro a b ha hb
    obtain ⟨x, hx⟩ := Option.isSome_iff_exists.mp ha
    obtain ⟨y, hy⟩ := Option.isSome_iff_exists.mp hb
    exact existsUnique_order hx hy
  lessThanOrEqual_eq := by
    intro a b ha hb
    obtain ⟨x, hx⟩ := Option.isSome_iff_exists.mp ha
    obtain ⟨y, hy⟩ := Option.isSome_iff_exists.mp hb
    exact lessThanOrEqual_numbers hx hy
  greaterThanOrEqual_eq := by
    intro a b ha hb
    obtain ⟨x, hx⟩ := Option.isSome_iff_exists.mp ha
    obtain ⟨y, hy⟩ := Option.isSome_iff_exists.mp hb
    have hequal : equals.holds mode a b = equals.holds mode b a := equals_comm mode a b
    rw [greaterThanOrEqual_swap, greaterThan_swap, hequal]
    exact lessThanOrEqual_numbers hy hx
  unordered := by
    intro op hop a b hnone
    obtain ⟨r, hr⟩ := holds_of_mem_orderings hop mode
    rw [hr, ← Bool.not_eq_true, numbersSatisfy_iff]
    rcases hnone with ha | hb
    · simp [ha]
    · simp [hb]

theorem coherent_padded :
    (str " +1.50 ").equals .folded (str "15E-1") = true ∧
      isIn.holds .folded (str " +1.50 ") (.list [.null, .int 2, str "1.5"]) =
        isIn.holds .folded (str "15E-1") (.list [.null, .int 2, str "1.5"]) ∧
      (str " +1.50 ").number?.isSome ∧ (int 2).number?.isSome ∧
      ∃! op, op ∈ [lessThan, equals, greaterThan] ∧
        op.holds .folded (str " +1.50 ") (int 2) = true := by
  have hequal : (str " +1.50 ").equals .folded (str "15E-1") = true := by decide +kernel
  have hpadded : (str " +1.50 ").number?.isSome := by decide +kernel
  have htwo : (int 2).number?.isSome := by decide +kernel
  refine ⟨hequal, ?_, hpadded, htwo, ?_⟩
  · exact (coherent .folded).member_congruent isIn (by decide) _ _ _ hequal
  · exact (coherent .folded).trichotomous _ _ hpadded htwo

end Comparator

/-! ## Membership -/

namespace Value

variable {mode : CaseMode} {a : Value} {items : List Value}

/-- An element is found by the equality of values, but missing elements are
passed over. -/
theorem memberOf_list_iff : a.memberOf mode (.list items) = true ↔
    ∃ item ∈ items, item.isMissing = false ∧ a.equals mode item = true := by
  simp only [memberOf, Bool.and_eq_true, List.any_eq_true, Bool.not_eq_true']
  constructor
  · rintro ⟨hpresent, item, hitem, hequal⟩
    exact ⟨item, hitem, isMissing_congr hequal ▸ hpresent, hequal⟩
  · rintro ⟨item, hitem, hpresent, hequal⟩
    exact ⟨isMissing_congr hequal ▸ hpresent, item, hitem, hequal⟩

theorem holds_list (mode : CaseMode) (a : Value) (items : List Value) :
    (list items).holds mode a = a.memberOf mode (.list items) := by
  simp only [holds, memberOf, equals_comm mode a]

end Value

namespace Comparator

open Value

/-- A list is searched by comparing its elements that are not missing. -/
structure SearchesPresent (mode : CaseMode) : Prop where
  isIn_iff : ∀ (a : Value) (items : List Value), isIn.holds mode a (.list items) = true ↔
    ∃ item ∈ items, item.isMissing = false ∧ equals.holds mode a item = true
  isNotIn_iff : ∀ (a : Value) (items : List Value), isNotIn.holds mode a (.list items) = true ↔
    ∀ item ∈ items, item.isMissing = false → notEquals.holds mode a item = true
  contains_iff : ∀ (items : List Value) (a : Value), contains.holds mode (.list items) a = true ↔
    ∃ item ∈ items, item.isMissing = false ∧ equals.holds mode item a = true
  contains_eq_isIn : ∀ (items : List Value) (a : Value),
    contains.holds mode (.list items) a = isIn.holds mode a (.list items)
  /-- Comparing all elements alike makes a difference only where a missing value is
  looked for in a list with a missing element. -/
  isIn_iff_exists : ∀ (a : Value) (items : List Value),
    (isIn.holds mode a (.list items) = true ↔ ∃ item ∈ items, equals.holds mode a item = true) ↔
      ¬ (a.isMissing = true ∧ ∃ item ∈ items, item.isMissing = true)

variable {mode : CaseMode} {a b : Value}

theorem equals_of_isMissing (ha : a.isMissing = true) (hb : b.isMissing = true) :
    equals.holds mode a b = true :=
  equals_iff_standing.mpr
    ((standing_eq_missing_iff.mpr ha).trans (standing_eq_missing_iff.mpr hb).symm)

/-- In and Contains look for an equal element among those that are not missing,
the missing value is in no list, and the negated operators say the opposite. -/
theorem searchesPresent (mode : CaseMode) : SearchesPresent mode where
  isIn_iff := fun _ _ => memberOf_list_iff
  isNotIn_iff := by
    intro a items
    have hnot : isNotIn.holds mode a (.list items) = !a.memberOf mode (.list items) := rfl
    rw [hnot, Bool.not_eq_true', ← Bool.not_eq_true, memberOf_list_iff]
    simp [holds]
  contains_iff := by
    intro items a
    have hcontains : contains.holds mode (.list items) a = a.memberOf mode (.list items) :=
      holds_list mode a items
    rw [hcontains, memberOf_list_iff]
    simp only [holds, equals_comm mode a]
  contains_eq_isIn := fun items a => holds_list mode a items
  isIn_iff_exists := by
    intro a items
    have hmember : isIn.holds mode a (.list items) = true ↔
        ∃ item ∈ items, item.isMissing = false ∧ equals.holds mode a item = true :=
      memberOf_list_iff
    rw [hmember]
    constructor
    · rintro hlift ⟨ha, item, hitem, hmissing⟩
      obtain ⟨found, -, hpresent, hequal⟩ :=
        hlift.mpr ⟨item, hitem, equals_of_isMissing ha hmissing⟩
      rw [← isMissing_congr hequal, ha] at hpresent
      exact Bool.true_eq_false.mp hpresent
    · intro hnone
      constructor
      · rintro ⟨item, hitem, -, hequal⟩
        exact ⟨item, hitem, hequal⟩
      · rintro ⟨item, hitem, hequal⟩
        refine ⟨item, hitem, ?_, hequal⟩
        by_contra hmissing
        rw [Bool.not_eq_false] at hmissing
        exact hnone ⟨(isMissing_congr hequal).trans hmissing, item, hitem, hmissing⟩

theorem searchesPresent_nested :
    isIn.holds .folded (str "YES") (.list [.null, .list [str "yes"], str "Yes"]) = true ∧
      isNotIn.holds .folded .absent (.list [.null, .list [.null]]) = true := by
  constructor
  · exact ((searchesPresent .folded).isIn_iff _ _).mpr
      ⟨str "Yes", by simp, rfl, by decide +kernel⟩
  · refine ((searchesPresent .folded).isNotIn_iff _ _).mpr fun item hitem hpresent => ?_
    rcases List.mem_cons.mp hitem with rfl | hrest
    · exact absurd hpresent (by decide)
    · rw [List.mem_singleton.mp hrest]
      decide +kernel

/-- Null equals null and is no member of a list that holds it. -/
theorem null_not_found : ¬ (isIn.holds .folded .null (.list [.null]) = true ↔
    ∃ item ∈ [Value.null], equals.holds .folded .null item = true) := by
  simp [holds, Value.equals, memberOf, isMissing]

end Comparator

end FormRules
