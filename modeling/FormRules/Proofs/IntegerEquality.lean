import FormRules.Proofs.ValueEquality

/-!
# Equality of stored integers

An integer is stored as a number or as the text of its decimal digits, and is
compared by the double nearest to it, or by its digits when it is too large for
a finite double.  So two stored integers are equal when they are the same or
round to the same finite double.  Up to `2^53` every integer is a double of its
own; from there on neighbours share one.
-/

namespace FormRules

/-- The ways in which an integer is stored. -/
def Value.StoresInteger (n : Int) (v : Value) : Prop := v = .int n ∨ v = .str (Text.intText n)

/-- Two integers have the same nearest double, and it is finite. -/
def Double.RoundAlike (m n : Int) : Prop :=
  ∃ x y, (ofInt m).finite? = some x ∧ (ofInt n).finite? = some y ∧ x.value = y.value

/-! ## The digits of an integer -/

namespace Text

theorem natAbs_of_toDigits_eq {m n : Int}
    (h : Nat.toDigits 10 m.natAbs = Nat.toDigits 10 n.natAbs) : m.natAbs = n.natAbs := by
  rw [← digitsValue_toDigits m.natAbs, h, digitsValue_toDigits]

/-- A minus sign is no digit, so the sign of an integer shows. -/
theorem toDigits_ne_minus (n : Nat) (rest : List Char) : Nat.toDigits 10 n ≠ '-' :: rest := by
  intro heq
  have hdigit : '-'.isDigit = true := isDigit_of_mem_toDigits (n := n) '-' (by simp [heq])
  exact absurd hdigit (by decide)

theorem intText_injective : Function.Injective intText := by
  intro m n h
  have hchars := congrArg String.toList h
  rw [toList_intText, toList_intText] at hchars
  by_cases hm : m < 0 <;> by_cases hn : n < 0 <;>
    simp only [hm, hn, decide_true, decide_false, if_true, Bool.false_eq_true, if_false]
      at hchars
  · have habs := natAbs_of_toDigits_eq (List.cons.inj hchars).2
    omega
  · exact absurd hchars.symm (toDigits_ne_minus _ _)
  · exact absurd hchars (toDigits_ne_minus _ _)
  · have habs := natAbs_of_toDigits_eq hchars
    omega

theorem folded_intText (n : Int) : folded (intText n) = intText n := by
  have hchars : ∀ c ∈ (intText n).toList, isNumeralChar c = true ∧ smallExponent c = c := by
    have hdigit : ∀ c ∈ Nat.toDigits 10 n.natAbs,
        isNumeralChar c = true ∧ smallExponent c = c := by
      intro c hc
      have hc' := isDigit_of_mem_toDigits c hc
      refine ⟨isNumeralChar_of_digit (by simp [digit?_of_isDigit hc']), if_neg ?_⟩
      rintro rfl
      exact absurd hc' (by decide)
    rw [toList_intText]
    split
    · exact List.forall_mem_cons.mpr ⟨by decide, hdigit⟩
    · exact hdigit
  apply String.toList_inj.mp
  rw [toList_folded, foldChars_of_numeralChars fun c hc => (hchars c hc).1]
  exact (List.map_congr_left fun c hc => (hchars c hc).2).trans (List.map_id _)

end Text

/-! ## Integers that share a double -/

theorem exists_unitsPerOne_eq : ∃ s, unitsPerOne = 2 ^ s := ⟨1074, by decide +kernel⟩

theorem roundUnits_eq_self {n : Nat} (h : gridStep n ∣ n) : roundUnits n 1 = n := by
  obtain ⟨k, hk⟩ := h
  have hquotient : n / gridStep n = k := Nat.div_eq_of_eq_mul_right (gridStep_pos n) hk
  have hremainder : n % gridStep n = 0 := Nat.mod_eq_zero_of_dvd ⟨k, hk⟩
  simp only [roundUnits, roundDiv, Nat.div_one, one_mul, hquotient, hremainder]
  simp [gridStep_pos n, mul_comm k, ← hk]

/-- Numbers of at most 53 binary digits are kept. -/
theorem roundUnits_small {n : Nat} (s : Nat) (hn : n ≤ 2 ^ 53) :
    roundUnits (n * 2 ^ s) 1 = n * 2 ^ s :=
  roundUnits_eq_self (gridStep_dvd_mul hn)

/-- Rounding takes no larger number below those. -/
theorem le_roundUnits_large {n : Nat} (s : Nat) (hn : 2 ^ 53 ≤ n) :
    2 ^ 53 * 2 ^ s ≤ roundUnits (n * 2 ^ s) 1 := by
  have hscaled : 2 ^ (53 + s) ≤ n * 2 ^ s := by
    rw [pow_add]
    exact Nat.mul_le_mul_right _ hn
  have hne : n * 2 ^ s ≠ 0 := (Nat.lt_of_lt_of_le (Nat.two_pow_pos _) hscaled).ne'
  have hlog : 53 + s ≤ (n * 2 ^ s / 1).log2 := by
    rwa [Nat.div_one, Nat.le_log2 hne]
  rw [← pow_add]
  exact (Nat.pow_le_pow_right (by decide) hlog).trans (two_pow_log2_le_roundUnits (by omega))

namespace Double

variable {m n : Int} {x : Finite}

theorem finite?_ofInt (h : (ofInt n).finite? = some x) :
    x.negative = decide (n < 0) ∧ x.units = roundUnits (n.natAbs * unitsPerOne) 1 := by
  unfold ofInt ofRatio ofUnits at h
  split at h
  · rw [← Option.some.inj h]
    exact ⟨rfl, rfl⟩
  · cases h

theorem natAbs_value (x : Finite) : x.value.natAbs = x.units := by
  unfold Finite.value
  split <;> simp

/-- Up to `2^53` every integer is a double. -/
theorem value_ofInt_small (h : (ofInt n).finite? = some x) (hn : n.natAbs ≤ 2 ^ 53) :
    x.value = n * unitsPerOne := by
  obtain ⟨hnegative, hunits⟩ := finite?_ofInt h
  obtain ⟨s, hs⟩ := exists_unitsPerOne_eq
  rw [hs, roundUnits_small s hn, ← hs] at hunits
  unfold Finite.value
  rw [hnegative, hunits, Nat.cast_mul]
  by_cases hsign : n < 0
  · rw [if_pos (by simpa using hsign), Int.ofNat_natAbs_of_nonpos hsign.le, neg_mul, neg_neg]
  · rw [if_neg (by simpa using hsign), Int.natAbs_of_nonneg (not_lt.mp hsign)]

theorem le_units_ofInt_large (h : (ofInt n).finite? = some x) (hn : 2 ^ 53 ≤ n.natAbs) :
    2 ^ 53 * unitsPerOne ≤ x.units := by
  obtain ⟨s, hs⟩ := exists_unitsPerOne_eq
  rw [(finite?_ofInt h).2, hs]
  exact le_roundUnits_large s hn

theorem RoundAlike.symm (h : RoundAlike m n) : RoundAlike n m := by
  obtain ⟨x, y, hx, hy, heq⟩ := h
  exact ⟨y, x, hy, hx, heq.symm⟩

/-- An integer below `2^53` shares its double with no other. -/
theorem RoundAlike.eq_of_small (h : RoundAlike m n) (hm : m.natAbs < 2 ^ 53) : m = n := by
  obtain ⟨x, y, hx, hy, heq⟩ := h
  have hunit : (unitsPerOne : Int) ≠ 0 := by
    exact_mod_cast unitsPerOne_pos.ne'
  have hxvalue : x.value = m * unitsPerOne := value_ofInt_small hx hm.le
  by_cases hn : n.natAbs ≤ 2 ^ 53
  · rw [hxvalue, value_ofInt_small hy hn] at heq
    exact mul_right_cancel₀ hunit heq
  · have hlarge : 2 ^ 53 * unitsPerOne ≤ y.units := le_units_ofInt_large hy (by omega)
    have hsmall : m.natAbs * unitsPerOne < 2 ^ 53 * unitsPerOne :=
      Nat.mul_lt_mul_of_pos_right hm unitsPerOne_pos
    have hunits : m.natAbs * unitsPerOne = y.units := by
      rw [← natAbs_value, ← heq, hxvalue, Int.natAbs_mul, Int.natAbs_natCast]
    omega

theorem RoundAlike.lt_overflowSize (h : RoundAlike m n) : (m.natAbs : ℚ) < overflowSize := by
  obtain ⟨x, y, hx, -, -⟩ := h
  exact ofInt_finite_iff.mp (by rw [hx]; rfl)

end Double

/-! ## What a stored integer is compared by -/

namespace Value.StoresInteger

variable {mode : CaseMode} {m n : Int} {a b v : Value}

theorem number?_eq (h : v.StoresInteger n) : v.number? = (Double.ofInt n).finite? := by
  rcases h with rfl | rfl
  · rfl
  · exact number?_intText n

theorem isMissing (h : v.StoresInteger n) : v.isMissing = false := by
  rcases h with rfl | rfl <;> rfl

theorem comparedText (h : v.StoresInteger n) : v.comparedText mode = Text.intText n := by
  have htext : v.text = Text.intText n := by
    rcases h with rfl | rfl <;> rfl
  unfold Value.comparedText
  rw [htext]
  cases mode with
  | exact => rfl
  | folded => exact Text.folded_intText n

theorem equals_eq (ha : a.StoresInteger m) (hb : b.StoresInteger n) : a.equals mode b =
    match a.number?, b.number? with
    | some x, some y => x.value == y.value
    | _, _ => Text.intText m == Text.intText n := by
  unfold Value.equals
  rw [ha.isMissing, hb.isMissing, ha.comparedText, hb.comparedText]
  rfl

/-- Stored integers are equal when they are the same or are rounded to the same
double. -/
theorem equals_iff (ha : a.StoresInteger m) (hb : b.StoresInteger n) :
    a.equals mode b = true ↔ m = n ∨ Double.RoundAlike m n := by
  have hm := ha.number?_eq
  have hn := hb.number?_eq
  have hdigits : (Text.intText m == Text.intText n) = true ↔ m = n :=
    beq_iff_eq.trans Text.intText_injective.eq_iff
  have halike : Double.RoundAlike m n ↔
      ∃ x y, a.number? = some x ∧ b.number? = some y ∧ x.value = y.value := by
    rw [hm, hn]
    rfl
  have hsame : m = n → a.number? = b.number? := by
    rintro rfl
    exact hm.trans hn.symm
  rw [ha.equals_eq hb, halike]
  cases hx : a.number? with
  | none => simpa using hdigits
  | some x =>
      cases hy : b.number? with
      | none => simpa using hdigits
      | some y =>
          rw [hx, hy] at hsame
          have hvalue : m = n → x.value = y.value := fun h => by rw [Option.some.inj (hsame h)]
          simpa using hvalue

end Value.StoresInteger

/-! ## The operators on two stored integers -/

namespace Comparator

open Value

/-- Equality and membership take two values for equal exactly when a condition
holds. -/
structure IdentifiedIff (mode : CaseMode) (a b : Value) (p : Prop) : Prop where
  equals_iff : equals.holds mode a b = true ↔ p
  notEquals_iff : notEquals.holds mode a b = true ↔ ¬ p
  isIn_iff : isIn.holds mode a (.list [b]) = true ↔ p
  contains_iff : contains.holds mode (.list [a]) b = true ↔ p

variable {mode : CaseMode} {m n : Int} {a b : Value}

theorem identifiedIff_of_equals_iff {p : Prop} (hb : b.isMissing = false)
    (h : a.equals mode b = true ↔ p) : IdentifiedIff mode a b p where
  equals_iff := h
  notEquals_iff := by
    have hnot : notEquals.holds mode a b = !a.equals mode b := rfl
    rw [hnot, Bool.not_eq_true', ← Bool.not_eq_true, h]
  isIn_iff := by
    have hmember : isIn.holds mode a (.list [b]) = a.memberOf mode (.list [b]) := rfl
    rw [hmember, memberOf_list_iff]
    simpa [hb] using h
  contains_iff := by
    have hcontains : contains.holds mode (.list [a]) b = (!b.isMissing && a.equals mode b) := by
      simp [holds, Value.holds]
    rw [hcontains, hb]
    exact h

/-- Stored integers are identified when they are the same or share a finite
double.  One that is below `2^53` or too large for a finite double is identified
with no other. -/
theorem storedIntegers_identifiedIff (mode : CaseMode) (ha : a.StoresInteger m)
    (hb : b.StoresInteger n) :
    IdentifiedIff mode a b (m = n ∨ Double.RoundAlike m n) ∧
      (m.natAbs < 2 ^ 53 ∨ n.natAbs < 2 ^ 53 ∨
        overflowSize ≤ (m.natAbs : ℚ) ∨ overflowSize ≤ (n.natAbs : ℚ) →
          IdentifiedIff mode a b (m = n)) := by
  have hequal : a.equals mode b = true ↔ m = n ∨ Double.RoundAlike m n := ha.equals_iff hb
  refine ⟨identifiedIff_of_equals_iff hb.isMissing hequal, fun hrange => ?_⟩
  have halike : Double.RoundAlike m n → m = n := by
    intro h
    rcases hrange with hm | hn | hm | hn
    · exact h.eq_of_small hm
    · exact (h.symm.eq_of_small hn).symm
    · exact absurd h.lt_overflowSize (not_lt.mpr hm)
    · exact absurd h.symm.lt_overflowSize (not_lt.mpr hn)
  exact identifiedIff_of_equals_iff hb.isMissing
    (hequal.trans ⟨fun h => h.elim id halike, .inl⟩)

theorem storedIntegers_identifiedIff_large :
    IdentifiedIff .folded (str "9007199254740991") (int 9007199254740992)
        ((9007199254740991 : Int) = 9007199254740992) ∧
      IdentifiedIff .exact (int (10 ^ 400)) (str (Text.intText (10 ^ 400 + 1)))
        ((10 ^ 400 : Int) = 10 ^ 400 + 1 ∨ Double.RoundAlike (10 ^ 400) (10 ^ 400 + 1)) := by
  constructor
  · exact (storedIntegers_identifiedIff .folded (m := 9007199254740991) (n := 9007199254740992)
      (.inr (by decide +kernel)) (.inl rfl)).2 (.inl (by decide))
  · exact (storedIntegers_identifiedIff .exact (.inl rfl) (.inr rfl)).1

/-- The first two neighbours that share a double are taken for each other, as
numbers and as digits. -/
theorem identified_neighbours :
    equals.holds .exact (int 9007199254740992) (int 9007199254740993) = true ∧
      notEquals.holds .exact (int 9007199254740992) (int 9007199254740993) = false ∧
      isIn.holds .folded (str "9007199254740992") (.list [str "9007199254740993"]) = true ∧
      contains.holds .folded (.list [int 9007199254740992]) (str "9007199254740993") = true := by
  decide +kernel

end Comparator

end FormRules
