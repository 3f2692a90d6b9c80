import FormRules.Double.Numeral
import FormRules.Double.Shortest
import Mathlib.Tactic

/-!
# Sizes that round to a finite double

Rounding to 53 binary digits takes a number to `2^1024` or beyond exactly when
its size is not below `2^1024 - 2^970`: the last number below lies half a step
under the limit, and the half goes up because the multiple beneath it is odd.
So a ratio, an integer and a decimal numeral are finite doubles exactly when
what they denote is below that bound.  The shortcuts for numerals of very large
or very small order agree with it.
-/

namespace FormRules

/-! ## Rounding against a bound -/

/-- A half above an odd number goes up. -/
theorem roundDiv_le_iff_of_odd {n d k : Nat} (hd : 0 < d) (hodd : k % 2 = 1) :
    roundDiv n d ≤ k ↔ 2 * n < (2 * k + 1) * d := by
  have hn : d * (n / d) + n % d = n := Nat.div_add_mod n d
  have hr : n % d < d := Nat.mod_lt n hd
  simp only [roundDiv]
  rcases lt_trichotomy (n / d) k with hlt | heq | hgt
  · have hmul : d * (n / d + 1) ≤ d * k := Nat.mul_le_mul_left d hlt
    have hbound : 2 * n < (2 * k + 1) * d := by linarith
    have hle : n / d + n / d % 2 ≤ k := by omega
    simp only [hbound, iff_true]
    split
    · exact hlt.le
    · split
      · exact hlt
      · exact hle
  · have hbound : 2 * n < (2 * k + 1) * d ↔ 2 * (n % d) < d := by
      rw [← heq]
      constructor <;> intro h <;> linarith
    rw [hbound, heq]
    by_cases hhalf : 2 * (n % d) < d
    · simp [hhalf]
    · simp only [hhalf, if_false, iff_false, not_le]
      split
      · omega
      · omega
  · have hmul : d * (k + 1) ≤ n := (Nat.mul_le_mul_left d hgt).trans (Nat.mul_div_le n d)
    have hbound : ¬ 2 * n < (2 * k + 1) * d := by
      rw [not_lt]
      linarith
    simp only [hbound, iff_false, not_le]
    split
    · exact hgt
    · split <;> omega

theorem div_le_roundDiv (n d : Nat) : n / d ≤ roundDiv n d := by
  simp only [roundDiv]
  split
  · exact le_rfl
  · split <;> omega

theorem gridStep_pos (units : Nat) : 0 < gridStep units := Nat.two_pow_pos _

/-- Rounding up adds no more than one step. -/
theorem roundUnits_le (n d : Nat) : roundUnits n d ≤ n / d + gridStep (n / d) := by
  have hround := Nat.mul_le_mul_right (gridStep (n / d))
    (roundDiv_le_succ n (d * gridStep (n / d)))
  have hdown := Nat.div_mul_le_self (n / d) (gridStep (n / d))
  rw [← Nat.div_div_eq_div_mul] at hround
  unfold roundUnits
  linarith

/-- Rounding down keeps the leading binary digit. -/
theorem two_pow_log2_le_roundUnits {n d : Nat} (h : 52 ≤ (n / d).log2) :
    2 ^ (n / d).log2 ≤ roundUnits n d := by
  have hne : n / d ≠ 0 := by
    intro hzero
    simp [hzero] at h
  have hlog : 2 ^ (n / d).log2 = 2 ^ 52 * gridStep (n / d) := by
    unfold gridStep
    rw [Nat.pow_eq, ← pow_add, Nat.add_sub_cancel' h]
  have hdown : 2 ^ 52 ≤ n / (d * gridStep (n / d)) := by
    rw [← Nat.div_div_eq_div_mul, Nat.le_div_iff_mul_le (gridStep_pos _), ← hlog]
    exact Nat.log2_self_le hne
  rw [hlog]
  exact Nat.mul_le_mul_right _ (hdown.trans (div_le_roundDiv _ _))

/-! ## The grid under a power of two -/

section Grid

variable {units t : Nat}

theorem lt_of_log2_lt (h : units.log2 < t + 53) : units < 2 ^ 53 * 2 ^ t := by
  calc
    units < 2 ^ (units.log2 + 1) := Nat.lt_log2_self
    _ ≤ 2 ^ (t + 53) := Nat.pow_le_pow_right (by decide) h
    _ = 2 ^ 53 * 2 ^ t := by rw [pow_add, mul_comm]

theorem gridStep_le_of_log2_lt (h : units.log2 < t + 53) : gridStep units ≤ 2 ^ t :=
  Nat.pow_le_pow_right (by decide) (by omega)

theorem gridStep_eq_of_log2_eq (h : units.log2 = t + 53) : gridStep units = 2 * 2 ^ t := by
  unfold gridStep
  rw [h, Nat.pow_eq, Nat.add_sub_assoc (by decide), pow_add]
  ring

end Grid

/-- Among the numbers with the last number of binary digits below a power of
two, those up to half a step under it stay below it. -/
theorem roundUnits_lt_iff_of_log2_eq {n d t : Nat} (hd : 0 < d) (htop : (n / d).log2 = t + 53) :
    roundUnits n d < 2 ^ 54 * 2 ^ t ↔ n < d * ((2 ^ 54 - 1) * 2 ^ t) := by
  have hstep := gridStep_eq_of_log2_eq htop
  have hsplit : roundUnits n d < 2 ^ 54 * 2 ^ t ↔
      roundDiv n (d * gridStep (n / d)) ≤ 2 ^ 53 - 1 := by
    unfold roundUnits
    rw [hstep]
    constructor
    · intro h
      by_contra hgt
      have hmul : 2 ^ 53 * (2 * 2 ^ t) ≤ roundDiv n (d * (2 * 2 ^ t)) * (2 * 2 ^ t) :=
        Nat.mul_le_mul_right _ (by omega)
      omega
    · intro h
      have hmul : roundDiv n (d * (2 * 2 ^ t)) * (2 * 2 ^ t) ≤ (2 ^ 53 - 1) * (2 * 2 ^ t) :=
        Nat.mul_le_mul_right _ h
      have hpos : 0 < (2 : Nat) ^ t := by positivity
      omega
  have hodd : 2 * (2 ^ 53 - 1) + 1 = 2 ^ 54 - 1 := by norm_num
  have hdouble : ∀ k, k * (d * (2 * 2 ^ t)) = 2 * (d * (k * 2 ^ t)) := fun k => by ring
  rw [hsplit, roundDiv_le_iff_of_odd (Nat.mul_pos hd (gridStep_pos _)) (by norm_num), hstep, hodd,
    hdouble]
  omega

/-- Rounding to 53 binary digits stays below a power of two up to half a step
under it. -/
theorem roundUnits_lt_two_pow_iff {n d : Nat} (hd : 0 < d) (t : Nat) :
    roundUnits n d < 2 ^ (t + 54) ↔ n < d * ((2 ^ 54 - 1) * 2 ^ t) := by
  have hlimit : (2 : Nat) ^ (t + 54) = 2 ^ 54 * 2 ^ t := by rw [pow_add, mul_comm]
  rcases lt_trichotomy (n / d).log2 (t + 53) with hlow | htop | hhigh
  · have hquotient := lt_of_log2_lt hlow
    have hstep := gridStep_le_of_log2_lt hlow
    have hround := roundUnits_le n d
    have hn : n < d * (n / d + 1) := Nat.lt_mul_div_succ n hd
    have hn' : d * (n / d + 1) ≤ d * ((2 ^ 54 - 1) * 2 ^ t) :=
      Nat.mul_le_mul_left d (by omega)
    constructor
    · intro _
      omega
    · intro _
      omega
  · rw [hlimit]
    exact roundUnits_lt_iff_of_log2_eq hd htop
  · have hne : n / d ≠ 0 := by
      intro hzero
      simp [hzero] at hhigh
    have hpow : 2 ^ 54 * 2 ^ t ≤ 2 ^ (n / d).log2 := by
      rw [← hlimit]
      exact Nat.pow_le_pow_right (by decide) hhigh
    have hround := hpow.trans (two_pow_log2_le_roundUnits (by omega))
    have hn : d * (2 ^ 54 * 2 ^ t) ≤ n :=
      (Nat.mul_le_mul_left d (hpow.trans (Nat.log2_self_le hne))).trans (Nat.mul_div_le n d)
    have hn' : d * ((2 ^ 54 - 1) * 2 ^ t) ≤ d * (2 ^ 54 * 2 ^ t) :=
      Nat.mul_le_mul_left d (by omega)
    constructor
    · intro _
      omega
    · intro _
      omega

/-- What lies within half a step of a double stays below the same bound, its
own end apart: the last double before the limit is an odd multiple of its step. -/
theorem two_mul_add_gridStep {units t : Nat} (hgrid : gridStep units ∣ units)
    (hlimit : units < 2 ^ (t + 54)) :
    2 * units + gridStep units < 2 * ((2 ^ 54 - 1) * 2 ^ t) ∨
      2 * units + gridStep units = 2 * ((2 ^ 54 - 1) * 2 ^ t) ∧
        units / gridStep units % 2 = 1 := by
  have hpos : 0 < (2 : Nat) ^ t := by positivity
  have hlimit' : units < 2 ^ 54 * 2 ^ t := by rwa [pow_add, mul_comm] at hlimit
  by_cases hlow : units.log2 < t + 53
  · have hunits := lt_of_log2_lt hlow
    have hstep := gridStep_le_of_log2_lt hlow
    left
    omega
  · have hne : units ≠ 0 := by
      intro hzero
      simp [hzero] at hlow
    have htop : units.log2 = t + 53 := by
      have hlog := (Nat.log2_lt hne).mpr hlimit
      omega
    have hstep := gridStep_eq_of_log2_eq htop
    obtain ⟨m, hm⟩ := hgrid
    rw [hstep] at hm ⊢
    have hquotient : units / (2 * 2 ^ t) = m := by
      rw [hm]
      exact Nat.mul_div_cancel_left m (by omega)
    rw [hquotient]
    have hm' : units = 2 * (m * 2 ^ t) := by
      rw [hm]
      ring
    have hbound : m < 2 ^ 53 := by
      by_contra hlarge
      have hmul : 2 ^ 53 * 2 ^ t ≤ m * 2 ^ t := Nat.mul_le_mul_right _ (by omega)
      omega
    by_cases hlast : m = 2 ^ 53 - 1
    · right
      subst hlast
      exact ⟨by omega, by decide⟩
    · left
      have hmul : m * 2 ^ t ≤ (2 ^ 53 - 2) * 2 ^ t := Nat.mul_le_mul_right _ (by omega)
      omega

/-! ## The bound of finite doubles -/

/-- Units of the first number that rounds to no finite double. -/
def overflowUnits : Nat := (2 ^ 54 - 1) * Nat.pow 2 2044

/-- The first size that rounds to no finite double. -/
def overflowSize : ℚ := (overflowUnits : ℚ) / unitsPerOne

theorem unitsPerOne_pos : 0 < unitsPerOne := by decide +kernel

theorem one_lt_overflowSize : 1 < overflowSize := by
  have hunits : unitsPerOne < overflowUnits := by decide +kernel
  unfold overflowSize
  rw [one_lt_div (by exact_mod_cast unitsPerOne_pos)]
  exact_mod_cast hunits

theorem overflowSize_le : overflowSize ≤ 10 ^ 310 := by
  have hunits : overflowUnits ≤ 10 ^ 310 * unitsPerOne := by decide +kernel
  unfold overflowSize
  rw [div_le_iff₀ (by exact_mod_cast unitsPerOne_pos)]
  exact_mod_cast hunits

theorem two_pow_eq_unitsLimit : 2 ^ (2044 + 54) = unitsLimit := by decide +kernel

theorem mul_two_pow_eq_overflowUnits : (2 ^ 54 - 1) * 2 ^ 2044 = overflowUnits := by
  decide +kernel

theorem Finite.two_mul_units_add_gapAbove (x : Finite) :
    2 * x.units + x.gapAbove < 2 * overflowUnits ∨
      2 * x.units + x.gapAbove = 2 * overflowUnits ∧ x.endsRoundHere = false := by
  have hlimit := x.bounded
  rw [← two_pow_eq_unitsLimit] at hlimit
  have hbound := two_mul_add_gridStep x.onGrid hlimit
  rw [mul_two_pow_eq_overflowUnits] at hbound
  rcases hbound with hbelow | ⟨hend, hodd⟩
  · exact .inl hbelow
  · refine .inr ⟨hend, ?_⟩
    simp [endsRoundHere, gapAbove, hodd]

namespace Double

/-- A size in units is rounded to a finite double where it is below the size
that overflows. -/
theorem ofUnits_finite_iff {negative : Bool} {n d : Nat} (hd : 0 < d) :
    (ofUnits negative n d).finite?.isSome ↔ n < d * overflowUnits := by
  have hbound := roundUnits_lt_two_pow_iff (n := n) hd 2044
  rw [two_pow_eq_unitsLimit, mul_two_pow_eq_overflowUnits] at hbound
  unfold ofUnits
  rw [← hbound]
  split
  · rename_i hfinite
    simp [finite?, hfinite]
  · rename_i hinfinite
    simp [finite?, hinfinite]

theorem ofRatio_finite_iff {negative : Bool} {n d : Nat} (hd : 0 < d) :
    (ofRatio negative n d).finite?.isSome ↔ (n : ℚ) / d < overflowSize := by
  unfold ofRatio overflowSize
  rw [ofUnits_finite_iff hd, div_lt_div_iff₀ (by exact_mod_cast hd)
    (by exact_mod_cast unitsPerOne_pos), mul_comm (overflowUnits : ℚ)]
  exact_mod_cast Iff.rfl

theorem ofInt_finite_iff {n : Int} :
    (ofInt n).finite?.isSome ↔ (n.natAbs : ℚ) < overflowSize := by
  unfold ofInt
  rw [ofRatio_finite_iff (by decide), Nat.cast_one, div_one]

end Double

/-! ## Decimal numerals -/

namespace Text

theorem digitsValue_append (ds es : List Nat) :
    digitsValue (ds ++ es) = digitsValue ds * 10 ^ es.length + digitsValue es := by
  induction es using List.reverseRecOn with
  | nil => simp
  | append_singleton es e ih =>
      rw [← List.append_assoc, digitsValue_append_one, ih, digitsValue_append_one,
        List.length_append, List.length_singleton, pow_succ]
      ring

theorem digitsValue_cons (d : Nat) (ds : List Nat) :
    digitsValue (d :: ds) = d * 10 ^ ds.length + digitsValue ds := by
  have hsplit := digitsValue_append [d] ds
  simpa [digitsValue] using hsplit

theorem digitsValue_lt {ds : List Nat} (h : ∀ d ∈ ds, d ≤ 9) :
    digitsValue ds < 10 ^ ds.length := by
  induction ds with
  | nil => simp
  | cons d ds ih =>
      have hrest := ih fun e he => h e (List.mem_cons_of_mem d he)
      have hd : d * 10 ^ ds.length ≤ 9 * 10 ^ ds.length :=
        Nat.mul_le_mul_right _ (h d List.mem_cons_self)
      rw [digitsValue_cons, List.length_cons, pow_succ]
      omega

theorem digitsValue_dropWhile (ds : List Nat) :
    digitsValue (ds.dropWhile (· == 0)) = digitsValue ds := by
  induction ds with
  | nil => rfl
  | cons d ds ih =>
      by_cases hzero : d = 0
      · simp [hzero, ih, digitsValue_cons]
      · simp [hzero]

end Text

namespace Double

open Text

/-- The number `d₁d₂… · 10^exponent`. -/
def decimalSize (digits : List Nat) (exponent : Int) : ℚ := digitsValue digits * 10 ^ exponent

theorem decimalSize_dropWhile (digits : List Nat) (exponent : Int) :
    decimalSize (digits.dropWhile (· == 0)) exponent = decimalSize digits exponent := by
  unfold decimalSize
  rw [digitsValue_dropWhile]

theorem decimalSize_lt {digits : List Nat} (h : ∀ d ∈ digits, d ≤ 9) (exponent : Int) :
    decimalSize digits exponent < 10 ^ (digits.length + exponent) := by
  have hvalue : (digitsValue digits : ℚ) < 10 ^ digits.length := by
    exact_mod_cast digitsValue_lt h
  unfold decimalSize
  rw [zpow_add₀ (by norm_num), zpow_natCast]
  exact mul_lt_mul_of_pos_right hvalue (by positivity)

theorem le_decimalSize {d : Nat} (digits : List Nat) (hd : d ≠ 0) (exponent : Int) :
    (10 : ℚ) ^ (digits.length + exponent) ≤ decimalSize (d :: digits) exponent := by
  have hvalue : 10 ^ digits.length ≤ digitsValue (d :: digits) := by
    have hd' : 1 * 10 ^ digits.length ≤ d * 10 ^ digits.length :=
      Nat.mul_le_mul_right _ (Nat.one_le_iff_ne_zero.mpr hd)
    rw [digitsValue_cons]
    omega
  unfold decimalSize
  rw [zpow_add₀ (by norm_num), zpow_natCast]
  exact mul_le_mul_of_nonneg_right (by exact_mod_cast hvalue) (by positivity)

/-- A decimal numeral is a finite double exactly when the number it writes is
below the bound. -/
theorem ofDecimal_finite_iff {negative : Bool} {digits : List Nat} (h : ∀ d ∈ digits, d ≤ 9)
    (exponent : Int) :
    (ofDecimal negative digits exponent).finite?.isSome ↔
      decimalSize digits exponent < overflowSize := by
  have hdigits : ∀ d ∈ digits.dropWhile (· == 0), d ≤ 9 :=
    fun d hd => h d (List.dropWhile_sublist _ |>.subset hd)
  rw [← decimalSize_dropWhile]
  have hhead := List.head?_dropWhile_not (· == 0) digits
  simp only [ofDecimal]
  generalize digits.dropWhile (· == 0) = kept at hdigits hhead
  cases kept with
  | nil =>
      have hsize : decimalSize [] exponent < overflowSize := by
        simpa [decimalSize] using zero_lt_one.trans one_lt_overflowSize
      simp [finite?, hsize]
  | cons d rest =>
      have hd : d ≠ 0 := by simpa using hhead
      have hupper := decimalSize_lt hdigits exponent
      have hlower := le_decimalSize rest hd exponent
      simp only [List.isEmpty_cons, Bool.false_or, decide_eq_true_eq]
      split
      · -- Of so small an order a number is below one.
        rename_i hsmall
        have hone : (10 : ℚ) ^ (((d :: rest).length : Int) + exponent) ≤ 1 :=
          zpow_le_one_of_nonpos₀ (by norm_num) (by omega)
        have hsize := (hupper.trans_le hone).trans one_lt_overflowSize
        simp [finite?, hsize]
      · split
        · rename_i hlarge
          have hbound : (10 : ℚ) ^ (310 : Int) ≤ 10 ^ ((rest.length : Int) + exponent) := by
            apply zpow_le_zpow_right₀ (by norm_num)
            simp only [List.length_cons] at hlarge
            omega
          have hsize := (overflowSize_le.trans hbound).trans hlower
          simp [finite?, hsize]
        · simp only [Nat.pow_eq]
          split
          · have hscale : (10 : ℚ) ^ exponent = ((10 : ℚ) ^ exponent.natAbs)⁻¹ := by
              rw [← zpow_natCast, ← zpow_neg]
              congr 1
              omega
            rw [ofRatio_finite_iff (Nat.pow_pos (by decide)), decimalSize, hscale]
            simp [div_eq_mul_inv]
          · have hscale : (10 : ℚ) ^ exponent = (10 : ℚ) ^ exponent.natAbs := by
              rw [← zpow_natCast]
              congr 1
              omega
            rw [ofRatio_finite_iff (by decide), decimalSize, hscale]
            simp

/-- A row of digits stands for the double nearest to its value, however long it
is. -/
theorem ofDecimal_whole {negative : Bool} {digits : List Nat} (h : ∀ d ∈ digits, d ≤ 9) :
    (ofDecimal negative digits 0).finite? = (ofRatio negative (digitsValue digits) 1).finite? := by
  have hfinite : (ofDecimal negative digits 0).finite?.isSome ↔
      (ofRatio negative (digitsValue digits) 1).finite?.isSome := by
    rw [ofDecimal_finite_iff h, ofRatio_finite_iff (by decide), decimalSize]
    simp
  rw [← digitsValue_dropWhile] at hfinite ⊢
  revert hfinite
  simp only [ofDecimal]
  generalize digits.dropWhile (· == 0) = kept
  intro hfinite
  cases kept with
  | nil => simp [ofRatio, ofUnits, finite?, roundUnits, roundDiv, gridStep, Finite.signedZero,
      unitsLimit_pos]
  | cons d rest =>
      have hlength : ((d :: rest).length : Int) = rest.length + 1 := by simp
      simp only [List.isEmpty_cons, Bool.false_or, decide_eq_true_eq, hlength] at hfinite ⊢
      split at hfinite
      · omega
      · rename_i hsmall
        rw [if_neg hsmall]
        split at hfinite
        · rename_i hlarge
          rw [if_pos hlarge]
          exact (Option.not_isSome_iff_eq_none.mp (mt hfinite.mpr (by simp [finite?]))).symm
        · rename_i hbounded
          rw [if_neg hbounded]
          simp [Text.digitsValue]

end Double

end FormRules
