import FormRules.Proofs.FiniteSizes

/-!
# The numbers that round to a double

A number rounds to a finite double exactly when it lies between the midpoints to
the neighbouring doubles; the midpoints themselves round to the double whose last
binary digit is even.  Above a double its own step decides, below it the step of
the doubles underneath, which is half as wide under a power of two.
-/

namespace FormRules

/-! ## Rounding a quotient -/

/-- A quotient is rounded to the number it is nearest to, and on a tie to an
even one. -/
theorem roundDiv_eq {n d m : Nat} (hlow : 2 * (m * d) ≤ 2 * n + d)
    (hhigh : 2 * n ≤ 2 * (m * d) + d)
    (htie : m % 2 = 1 → 2 * (m * d) < 2 * n + d ∧ 2 * n < 2 * (m * d) + d) (hd : 0 < d) :
    roundDiv n d = m := by
  have hn : d * (n / d) + n % d = n := Nat.div_add_mod n d
  have hr : n % d < d := Nat.mod_lt n hd
  rw [Nat.mul_comm d] at hn
  rcases lt_trichotomy (n / d) m with hlt | heq | hgt
  · have hnext : n / d + 1 = m := by
      by_contra hne
      have hmul : (n / d + 2) * d ≤ m * d := Nat.mul_le_mul_right d (by omega)
      have hexpand : (n / d + 2) * d = n / d * d + 2 * d := by ring
      omega
    have hmul : m * d = n / d * d + d := by
      rw [← hnext]
      ring
    unfold roundDiv
    dsimp only
    rcases Nat.lt_or_ge d (2 * (n % d)) with hover | hhalf
    · rw [if_neg (by omega), if_pos hover, hnext]
    · have heven : m % 2 = 0 := by
        by_contra hodd
        have hstrict := htie (by omega)
        omega
      rw [if_neg (by omega), if_neg (by omega)]
      omega
  · have hmul : m * d = n / d * d := by rw [heq]
    unfold roundDiv
    dsimp only
    rcases Nat.lt_or_ge (2 * (n % d)) d with hunder | hhalf
    · rw [if_pos hunder, heq]
    · have heven : m % 2 = 0 := by
        by_contra hodd
        have hstrict := htie (by omega)
        omega
      rw [if_neg (by omega), if_neg (by omega), heq, heven, Nat.add_zero]
  · have hmul : (m + 1) * d ≤ n / d * d := Nat.mul_le_mul_right d hgt
    have hexpand : (m + 1) * d = m * d + d := by ring
    omega

/-- A quotient within half a step of a multiple of the step rounds to it. -/
theorem roundDiv_mul_step {n d u s : Nat} (hdvd : s ∣ u) (hlow : 2 * (u * d) ≤ 2 * n + s * d)
    (hhigh : 2 * n ≤ 2 * (u * d) + s * d)
    (htie : u / s % 2 = 1 → 2 * (u * d) < 2 * n + s * d ∧ 2 * n < 2 * (u * d) + s * d)
    (hd : 0 < d) (hs : 0 < s) : roundDiv n (d * s) * s = u := by
  have hwhole : u / s * s = u := Nat.div_mul_cancel hdvd
  have hscale : u / s * (d * s) = u * d := by
    calc
      u / s * (d * s) = u / s * s * d := by ring
      _ = u * d := by rw [hwhole]
  have hstep : d * s = s * d := Nat.mul_comm d s
  have hround : roundDiv n (d * s) = u / s := by
    apply roundDiv_eq
    · rw [hscale, hstep]
      exact hlow
    · rw [hscale, hstep]
      exact hhigh
    · rw [hscale, hstep]
      exact htie
    · exact Nat.mul_pos hd hs
  rw [hround, hwhole]

/-! ## Steps around a double -/

theorem add_le_of_dvd {g a b : Nat} (ha : g ∣ a) (hb : g ∣ b) (hlt : a < b) : a + g ≤ b := by
  have hgap : g ≤ b - a := Nat.le_of_dvd (by omega) (Nat.dvd_sub hb ha)
  omega

section Step

variable {u q : Nat}

theorem gridStep_congr (h : q.log2 = u.log2) : gridStep q = gridStep u := by
  unfold gridStep
  rw [h]

theorem gridStep_dvd_two_pow {e : Nat} (h : u.log2 ≤ e + 52) : gridStep u ∣ 2 ^ e := by
  unfold gridStep
  rw [Nat.pow_eq]
  exact Nat.pow_dvd_pow 2 (by omega)

theorem gridStep_of_small (h : u.log2 < 53) : gridStep u = 1 := by
  have hshift : u.log2 - 52 = 0 := by omega
  unfold gridStep
  rw [hshift]

theorem gridStep_above (hgrid : gridStep u ∣ u) (hlow : u ≤ q) (hhigh : q < u + gridStep u) :
    gridStep q = gridStep u := by
  by_cases hsmall : u.log2 < 53
  · have hstep := gridStep_of_small hsmall
    have heq : q = u := by omega
    rw [heq]
  · have hne : u ≠ 0 := by
      intro hzero
      simp [hzero] at hsmall
    have hroom : u + gridStep u ≤ 2 ^ (u.log2 + 1) :=
      add_le_of_dvd hgrid (gridStep_dvd_two_pow (by omega)) Nat.lt_log2_self
    have hself := Nat.log2_self_le hne
    apply gridStep_congr
    rw [Nat.log2_eq_iff (by omega)]
    exact ⟨hself.trans hlow, hhigh.trans_le hroom⟩

end Step

namespace Finite

variable (x : Finite)

/-- Under a power of two the doubles are closer. -/
theorem gapBelow_of_power (hlarge : 53 ≤ x.units.log2) (hpower : x.units = 2 ^ x.units.log2) :
    x.gapBelow = 2 ^ (x.units.log2 - 53) := by
  have hshift : x.units.log2 - 52 + 52 = x.units.log2 := by omega
  have hone : x.units.log2 - 52 - 1 = x.units.log2 - 53 := by omega
  unfold gapBelow
  simp only [Nat.pow_eq, hshift, hone]
  rw [if_pos ⟨hpower, by omega⟩]

theorem gapBelow_of_not_power (h : x.units.log2 < 53 ∨ x.units ≠ 2 ^ x.units.log2) :
    x.gapBelow = x.gapAbove := by
  unfold gapBelow gapAbove gridStep
  simp only [Nat.pow_eq]
  rw [if_neg]
  intro hpower
  rcases h with hsmall | hother
  · omega
  · have hshift : x.units.log2 - 52 + 52 = x.units.log2 := by omega
    rw [hshift] at hpower
    exact hother hpower.1

theorem two_pow_log2_split (hlarge : 53 ≤ x.units.log2) :
    (2 : Nat) ^ x.units.log2 = 2 ^ 53 * 2 ^ (x.units.log2 - 53) := by
  rw [← pow_add]
  congr 1
  omega

theorem gapBelow_pos : 0 < x.gapBelow := by
  by_cases hpower : 53 ≤ x.units.log2 ∧ x.units = 2 ^ x.units.log2
  · rw [x.gapBelow_of_power hpower.1 hpower.2]
    exact Nat.two_pow_pos _
  · rw [x.gapBelow_of_not_power (by omega)]
    exact gridStep_pos _

theorem gapBelow_dvd : x.gapBelow ∣ x.units := by
  by_cases hpower : 53 ≤ x.units.log2 ∧ x.units = 2 ^ x.units.log2
  · rw [x.gapBelow_of_power hpower.1 hpower.2]
    conv_rhs => rw [hpower.2]
    exact Nat.pow_dvd_pow 2 (by omega)
  · rw [x.gapBelow_of_not_power (by omega)]
    exact x.onGrid

/-- An odd multiple of either step takes in none of its midpoints. -/
theorem endsRoundHere_of_odd (h : x.units / x.gapBelow % 2 = 1) : x.endsRoundHere = false := by
  by_cases hpower : 53 ≤ x.units.log2 ∧ x.units = 2 ^ x.units.log2
  · have hunits : x.units = 2 ^ 53 * x.gapBelow := by
      rw [x.gapBelow_of_power hpower.1 hpower.2, ← x.two_pow_log2_split hpower.1]
      exact hpower.2
    have hquotient : x.units / x.gapBelow = 2 ^ 53 :=
      Nat.div_eq_of_eq_mul_left x.gapBelow_pos hunits
    rw [hquotient] at h
    omega
  · rw [x.gapBelow_of_not_power (by omega)] at h
    simp [endsRoundHere, h]

theorem gridStep_below {q : Nat} (hlow : x.units ≤ q + x.gapBelow) (hhigh : q < x.units) :
    gridStep q = x.gapBelow := by
  have hne : x.units ≠ 0 := by omega
  by_cases hsmall : x.units.log2 < 53
  · rw [x.gapBelow_of_not_power (.inl hsmall), gapAbove, gridStep_of_small hsmall]
    apply gridStep_of_small
    by_cases hzero : q = 0
    · simp [hzero]
    · rw [Nat.log2_lt hzero]
      exact hhigh.trans ((Nat.log2_lt hne).mp hsmall)
  · by_cases hpower : x.units = 2 ^ x.units.log2
    · have hgap := x.gapBelow_of_power (by omega) hpower
      have hsplit := x.two_pow_log2_split (by omega)
      have hhalf : (2 : Nat) ^ (x.units.log2 - 1) = 2 ^ 52 * 2 ^ (x.units.log2 - 53) := by
        rw [← pow_add]
        congr 1
        omega
      have hlog : q.log2 = x.units.log2 - 1 := by
        have hnext : x.units.log2 - 1 + 1 = x.units.log2 := by omega
        rw [Nat.log2_eq_iff (by omega), hnext]
        omega
      rw [hgap]
      unfold gridStep
      rw [hlog, Nat.pow_eq]
      congr 1
    · have hgap := x.gapBelow_of_not_power (.inr hpower)
      have hself := Nat.log2_self_le hne
      have hroom : 2 ^ x.units.log2 + x.gapAbove ≤ x.units :=
        add_le_of_dvd (gridStep_dvd_two_pow (by omega)) x.onGrid (by omega)
      have hlt : x.units < 2 ^ (x.units.log2 + 1) := Nat.lt_log2_self
      rw [hgap]
      apply gridStep_congr
      rw [Nat.log2_eq_iff (by omega)]
      omega

/-! ## Intervals -/

/-- The number of units lies in the interval of the numbers that round to `x`. -/
def Takes (x : Finite) (r : ℚ) : Prop :=
  (x.units - x.gapBelow / 2 < r ∧ r < x.units + x.gapAbove / 2) ∨
    x.endsRoundHere = true ∧ x.units - x.gapBelow / 2 ≤ r ∧ r ≤ x.units + x.gapAbove / 2

theorem takes_div_iff {n d : Nat} (hd : 0 < d) :
    x.Takes (n / d) ↔
      (2 * (x.units * d) < 2 * n + x.gapBelow * d ∧ 2 * n < 2 * (x.units * d) + x.gapAbove * d) ∨
        x.endsRoundHere = true ∧ 2 * (x.units * d) ≤ 2 * n + x.gapBelow * d ∧
          2 * n ≤ 2 * (x.units * d) + x.gapAbove * d := by
  have hd' : (0 : ℚ) < d := by exact_mod_cast hd
  have hlow : (x.units - x.gapBelow / 2 : ℚ) < n / d ↔
      2 * (x.units * d) < 2 * n + x.gapBelow * d := by
    rw [lt_div_iff₀ hd', ← Nat.cast_lt (α := ℚ)]
    push_cast
    constructor <;> intro h <;> linarith
  have hhigh : (n / d : ℚ) < x.units + x.gapAbove / 2 ↔
      2 * n < 2 * (x.units * d) + x.gapAbove * d := by
    rw [div_lt_iff₀ hd', ← Nat.cast_lt (α := ℚ)]
    push_cast
    constructor <;> intro h <;> linarith
  have hlow' : (x.units - x.gapBelow / 2 : ℚ) ≤ n / d ↔
      2 * (x.units * d) ≤ 2 * n + x.gapBelow * d := by
    rw [le_div_iff₀ hd', ← Nat.cast_le (α := ℚ)]
    push_cast
    constructor <;> intro h <;> linarith
  have hhigh' : (n / d : ℚ) ≤ x.units + x.gapAbove / 2 ↔
      2 * n ≤ 2 * (x.units * d) + x.gapAbove * d := by
    rw [div_le_iff₀ hd', ← Nat.cast_le (α := ℚ)]
    push_cast
    constructor <;> intro h <;> linarith
  unfold Takes
  rw [hlow, hhigh, hlow', hhigh']

/-- A quotient of at least the units of a double rounds to it while it is within half a
step. -/
theorem roundUnits_of_above {n d : Nat} (hd : 0 < d) (habove : x.units ≤ n / d)
    (hhigh : 2 * n ≤ 2 * (x.units * d) + x.gapAbove * d)
    (hstrict : x.endsRoundHere = false → 2 * n < 2 * (x.units * d) + x.gapAbove * d) :
    roundUnits n d = x.units := by
  have hunits : x.units * d ≤ n := (Nat.le_div_iff_mul_le hd).mp habove
  have hpos : 0 < x.gapAbove * d := Nat.mul_pos (gridStep_pos _) hd
  have hnear : n / d < x.units + x.gapAbove := by
    rw [Nat.div_lt_iff_lt_mul hd, Nat.add_mul]
    omega
  have hstep : gridStep (n / d) = x.gapAbove := gridStep_above x.onGrid habove hnear
  have hgrid : x.gapAbove ∣ x.units := x.onGrid
  unfold roundUnits
  rw [hstep]
  apply roundDiv_mul_step hgrid _ hhigh _ hd (gridStep_pos _)
  · exact (Nat.mul_le_mul_left 2 hunits).trans (Nat.le_add_right _ _)
  · intro hodd
    have hends : x.endsRoundHere = false := by simp [endsRoundHere, hodd]
    have hstrict' := hstrict hends
    exact ⟨by omega, hstrict'⟩

/-- A quotient below the units of a double rounds to it while it is within half a step;
the step is the one below the double, also where the quotient lies on the other side of
a power of two. -/
theorem roundUnits_of_below {n d : Nat} (hd : 0 < d) (hunder : n / d < x.units)
    (hlow : 2 * (x.units * d) ≤ 2 * n + x.gapBelow * d)
    (hstrict : x.endsRoundHere = false → 2 * (x.units * d) < 2 * n + x.gapBelow * d) :
    roundUnits n d = x.units := by
  have hunits : n < x.units * d := (Nat.div_lt_iff_lt_mul hd).mp hunder
  have hgap := x.gapBelow_pos
  have hpos : 0 < x.gapBelow * d := Nat.mul_pos hgap hd
  have hnear : x.units ≤ n / d + x.gapBelow := by
    have hlast : n < (n / d + 1) * d := by
      rw [Nat.mul_comm]
      exact Nat.lt_mul_div_succ n hd
    have hdouble : 2 * x.units * d < (2 * (n / d + 1) + x.gapBelow) * d := by
      rw [Nat.add_mul, Nat.mul_assoc, Nat.mul_assoc]
      omega
    have hcancel := Nat.lt_of_mul_lt_mul_right hdouble
    omega
  have hstep : gridStep (n / d) = x.gapBelow := x.gridStep_below hnear hunder
  unfold roundUnits
  rw [hstep]
  apply roundDiv_mul_step x.gapBelow_dvd hlow _ _ hd hgap
  · omega
  · intro hodd
    have hstrict' := hstrict (x.endsRoundHere_of_odd hodd)
    exact ⟨hstrict', by omega⟩

/-- Every size in the interval of a double is rounded to it. -/
theorem roundUnits_of_takes {n d : Nat} (hd : 0 < d) (h : x.Takes (n / d)) :
    roundUnits n d = x.units := by
  have hbounds := (x.takes_div_iff hd).mp h
  have hstrict : x.endsRoundHere = false →
      2 * (x.units * d) < 2 * n + x.gapBelow * d ∧ 2 * n < 2 * (x.units * d) + x.gapAbove * d := by
    intro hends
    simpa [hends] using hbounds
  by_cases habove : x.units ≤ n / d
  · have hhigh : 2 * n ≤ 2 * (x.units * d) + x.gapAbove * d := by omega
    exact x.roundUnits_of_above hd habove hhigh fun hends => (hstrict hends).2
  · have hlow : 2 * (x.units * d) ≤ 2 * n + x.gapBelow * d := by omega
    exact x.roundUnits_of_below hd (by omega) hlow fun hends => (hstrict hends).1

theorem ofUnits_of_takes {n d : Nat} (hd : 0 < d) (h : x.Takes (n / d)) :
    Double.ofUnits x.negative n d = .finite x := by
  have hunits := x.roundUnits_of_takes hd h
  have hbounded : roundUnits n d < unitsLimit := by
    rw [hunits]
    exact x.bounded
  unfold Double.ofUnits
  rw [dif_pos hbounded]
  cases x with
  | mk negative units onGrid bounded =>
      simp only at hunits
      subst hunits
      rfl

/-! ## Sizes in an interval -/

variable {x} {size : ℚ}

/-- The interval of a double other than zero keeps away from zero. -/
theorem Takes.half_le (h : x.Takes size) (hx : x.units ≠ 0) : 1 / 2 ≤ size := by
  have hgap : x.gapBelow ≤ x.units := Nat.le_of_dvd (Nat.pos_of_ne_zero hx) x.gapBelow_dvd
  have hgap' : (x.gapBelow : ℚ) ≤ x.units := by exact_mod_cast hgap
  have hone : (1 : ℚ) ≤ x.units := by exact_mod_cast Nat.one_le_iff_ne_zero.mpr hx
  have hlow : x.units - x.gapBelow / 2 ≤ size := by
    rcases h with h | h
    · exact h.1.le
    · exact h.2.1
  linarith

theorem Takes.lt_overflowUnits (h : x.Takes size) : size < overflowUnits := by
  rcases x.two_mul_units_add_gapAbove with hlt | ⟨heq, hends⟩
  · have hlt' : (2 * x.units + x.gapAbove : ℚ) < 2 * overflowUnits := by exact_mod_cast hlt
    rcases h with h | h
    · linarith [h.2]
    · linarith [h.2.2]
  · have heq' : (2 * x.units + x.gapAbove : ℚ) = 2 * overflowUnits := by exact_mod_cast heq
    rcases h with h | h
    · linarith [h.2]
    · rw [hends] at h
      cases h.1

end Finite

namespace Double

open Text

theorem decimalSize_nil (exponent : Int) : decimalSize [] exponent = 0 := by
  simp [decimalSize]

theorem decimalSize_nonneg (digits : List Nat) (exponent : Int) :
    0 ≤ decimalSize digits exponent := by
  unfold decimalSize
  positivity

theorem decimalSize_of_neg {digits : List Nat} {exponent : Int} (h : exponent < 0) :
    decimalSize digits exponent =
      (digitsValue digits : ℚ) / (10 ^ exponent.natAbs : Nat) := by
  have hscale : (10 : ℚ) ^ exponent = ((10 : ℚ) ^ exponent.natAbs)⁻¹ := by
    rw [← zpow_natCast, ← zpow_neg]
    congr 1
    omega
  rw [decimalSize, hscale, Nat.cast_pow, Nat.cast_ofNat, div_eq_mul_inv]

theorem decimalSize_of_nonneg {digits : List Nat} {exponent : Int} (h : 0 ≤ exponent) :
    decimalSize digits exponent =
      ((digitsValue digits * 10 ^ exponent.natAbs : Nat) : ℚ) / (1 : Nat) := by
  have hscale : (10 : ℚ) ^ exponent = (10 : ℚ) ^ exponent.natAbs := by
    rw [← zpow_natCast]
    congr 1
    omega
  rw [decimalSize, hscale, Nat.cast_mul, Nat.cast_pow, Nat.cast_ofNat, Nat.cast_one, div_one]

theorem unitsPerOne_lt : unitsPerOne < 10 ^ 330 := by decide +kernel

theorem ofRatio_of_takes {x : Finite} {n d : Nat} (hd : 0 < d)
    (h : x.Takes ((n : ℚ) / d * unitsPerOne)) : ofRatio x.negative n d = .finite x := by
  unfold ofRatio
  refine x.ofUnits_of_takes hd ?_
  rw [Nat.cast_mul, mul_div_right_comm]
  exact h

/-- A decimal of so small an order is below half the smallest double. -/
theorem decimalSize_mul_lt_half {digits : List Nat} (hdigits : ∀ d ∈ digits, d ≤ 9)
    {exponent : Int} (hsmall : (digits.length : Int) + exponent < -330) :
    decimalSize digits exponent * unitsPerOne < 1 / 2 := by
  have hpos : (0 : ℚ) < unitsPerOne := by exact_mod_cast unitsPerOne_pos
  have hupper := decimalSize_lt hdigits exponent
  have hpow : (10 : ℚ) ^ ((digits.length : Int) + exponent) ≤ 10 ^ (-331 : Int) :=
    zpow_le_zpow_right₀ (by norm_num) (by omega)
  have hunits : (unitsPerOne : ℚ) < 10 ^ (330 : Int) := by exact_mod_cast unitsPerOne_lt
  have hsize : decimalSize digits exponent * unitsPerOne < 10 ^ (-331 : Int) * 10 ^ (330 : Int) :=
    mul_lt_mul'' (hupper.trans_le hpow) hunits (decimalSize_nonneg _ _) hpos.le
  rw [← zpow_add₀ (by norm_num)] at hsize
  exact hsize.trans (by norm_num)

/-- A decimal in the interval of a double other than zero reads as that double. -/
theorem ofDecimal_of_takes {x : Finite} {digits : List Nat} (hdigits : ∀ d ∈ digits, d ≤ 9)
    {exponent : Int} (hx : x.units ≠ 0)
    (h : x.Takes (decimalSize digits exponent * unitsPerOne)) :
    ofDecimal x.negative digits exponent = .finite x := by
  have hpos : (0 : ℚ) < unitsPerOne := by exact_mod_cast unitsPerOne_pos
  have hfinite : (ofDecimal x.negative digits exponent).finite?.isSome := by
    rw [ofDecimal_finite_iff hdigits, overflowSize, lt_div_iff₀ hpos]
    exact h.lt_overflowUnits
  have hkept : ∀ d ∈ digits.dropWhile (· == 0), d ≤ 9 :=
    fun d hd => hdigits d (List.dropWhile_sublist _ |>.subset hd)
  rw [← decimalSize_dropWhile] at h
  revert hfinite
  simp only [ofDecimal]
  generalize digits.dropWhile (· == 0) = kept at h hkept
  intro hfinite
  have hhalf := h.half_le hx
  cases kept with
  | nil =>
      rw [decimalSize_nil, zero_mul] at hhalf
      norm_num at hhalf
  | cons d rest =>
      simp only [List.isEmpty_cons, Bool.false_or, decide_eq_true_eq] at hfinite ⊢
      split
      · rename_i hsmall
        exact absurd (decimalSize_mul_lt_half hkept hsmall) (not_lt.mpr hhalf)
      · rename_i hnotSmall
        rw [if_neg hnotSmall] at hfinite
        split
        · rename_i hlarge
          rw [if_pos hlarge] at hfinite
          cases hfinite
        · split
          · rename_i hnegative
            rw [decimalSize_of_neg hnegative] at h
            exact ofRatio_of_takes (Nat.pow_pos (by decide)) h
          · rename_i hnonneg
            rw [decimalSize_of_nonneg (not_lt.mp hnonneg)] at h
            exact ofRatio_of_takes Nat.one_pos h

end Double

end FormRules
