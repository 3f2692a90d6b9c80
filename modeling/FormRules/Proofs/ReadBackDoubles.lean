import FormRules.Proofs.PrintedNumbers
import FormRules.Proofs.RoundingIntervals

/-!
# Printed doubles read back

Seventeen digits suffice for every double: on the grid of that many digits two
neighbouring decimals are closer together than two doubles, so one of the decimals
around a double lies in its interval.  The search for the shortest digits therefore
always finds some, and what it finds rounds to the double.  Hence a printed double
reads as itself, and different doubles print differently.
-/

namespace FormRules

open Text Numeral

namespace Finite

variable {x : Finite} {k : Int} {c : Nat}

/-- A decimal found on a grid is one of the two neighbours of the double, not
further away than half a step. -/
theorem onGrid?_cases (h : x.onGrid? k = some c) :
    let scale := 10 ^ (-k).toNat
    let d := unitsPerOne * 10 ^ k.toNat
    c = x.units * scale / d ∧
        (2 * (x.units * scale % d) < x.gapBelow * scale ∨
          x.endsRoundHere = true ∧ 2 * (x.units * scale % d) ≤ x.gapBelow * scale) ∨
      c = x.units * scale / d + 1 ∧
        (2 * (d - x.units * scale % d) < x.gapAbove * scale ∨
          x.endsRoundHere = true ∧ 2 * (d - x.units * scale % d) ≤ x.gapAbove * scale) := by
  intro scale d
  have hreaches : ∀ {distance gap : Nat}, (if x.endsRoundHere then decide (2 * distance ≤ gap)
      else decide (2 * distance < gap)) = true →
        2 * distance < gap ∨ x.endsRoundHere = true ∧ 2 * distance ≤ gap := by
    intro distance gap hreach
    split at hreach
    · rename_i hends
      exact .inr ⟨hends, by simpa using hreach⟩
    · exact .inl (by simpa using hreach)
  simp only [onGrid?, Nat.pow_eq] at h
  split at h
  · rename_i hbelow habove
    have hlow := hreaches hbelow
    have hhigh := hreaches habove
    split at h
    · exact .inl ⟨(Option.some.inj h).symm, hlow⟩
    · split at h
      · exact .inr ⟨(Option.some.inj h).symm, hhigh⟩
      · -- The even neighbour is one of the two.
        have hc := Option.some.inj h
        rcases Nat.mod_two_eq_zero_or_one (x.units * scale / d) with heven | hodd
        · exact .inl ⟨by rw [← hc, heven, Nat.add_zero], hlow⟩
        · exact .inr ⟨by rw [← hc, hodd], hhigh⟩
  · rename_i hbelow _
    exact .inl ⟨(Option.some.inj h).symm, hreaches hbelow⟩
  · rename_i _ habove
    exact .inr ⟨(Option.some.inj h).symm, hreaches habove⟩
  · simp at h

theorem ten_zpow_eq (k : Int) : (10 : ℚ) ^ k = 10 ^ k.toNat / 10 ^ (-k).toNat := by
  have hsplit : (k.toNat : Int) - ((-k).toNat : Int) = k := Int.toNat_sub_toNat_neg k
  rw [← zpow_natCast, ← zpow_natCast, ← zpow_sub₀ (by norm_num), hsplit]

/-- A decimal that is found lies in the interval of the double. -/
theorem takes_of_onGrid? (h : x.onGrid? k = some c) : x.Takes ((c : ℚ) * 10 ^ k * unitsPerOne) := by
  have hscale : 0 < 10 ^ (-k).toNat := Nat.pow_pos (by decide)
  have hd : 0 < unitsPerOne * 10 ^ k.toNat :=
    Nat.mul_pos unitsPerOne_pos (Nat.pow_pos (by decide))
  have hcases := onGrid?_cases h
  have hsplit := Nat.div_add_mod (x.units * 10 ^ (-k).toNat) (unitsPerOne * 10 ^ k.toNat)
  have hmod := Nat.mod_lt (x.units * 10 ^ (-k).toNat) hd
  have hsize : (c : ℚ) * 10 ^ k * unitsPerOne =
      ((unitsPerOne * 10 ^ k.toNat * c : Nat) : ℚ) / (10 ^ (-k).toNat : Nat) := by
    rw [ten_zpow_eq, Nat.cast_mul, Nat.cast_mul, Nat.cast_pow, Nat.cast_pow, Nat.cast_ofNat]
    generalize (unitsPerOne : ℚ) = unit
    ring
  rw [hsize, takes_div_iff x hscale]
  simp only at hcases
  generalize unitsPerOne * 10 ^ k.toNat = d at *
  generalize 10 ^ (-k).toNat = scale at *
  have hpos : 0 < x.gapBelow * scale := Nat.mul_pos x.gapBelow_pos hscale
  have hpos' : 0 < x.gapAbove * scale := Nat.mul_pos (gridStep_pos _) hscale
  rcases hcases with ⟨hc, hnear | ⟨hends, hnear⟩⟩ | ⟨hc, hnear | ⟨hends, hnear⟩⟩
  · rw [hc]
    exact .inl (by omega)
  · rw [hc]
    exact .inr ⟨hends, by omega⟩
  · rw [hc, Nat.mul_succ]
    exact .inl (by omega)
  · rw [hc, Nat.mul_succ]
    exact .inr ⟨hends, by omega⟩

/-! ## Seventeen digits -/

theorem gapBelow_le_gapAbove (x : Finite) : x.gapBelow ≤ x.gapAbove := by
  by_cases hpower : 53 ≤ x.units.log2 ∧ x.units = 2 ^ x.units.log2
  · rw [x.gapBelow_of_power hpower.1 hpower.2]
    exact Nat.pow_le_pow_right (by decide) (by omega)
  · rw [x.gapBelow_of_not_power (by omega)]

/-- Where neighbouring decimals are closer than doubles, one of them is found. -/
theorem onGrid?_isSome
    (h : unitsPerOne * 10 ^ k.toNat < x.gapBelow * 10 ^ (-k).toNat) : (x.onGrid? k).isSome := by
  have hd : 0 < unitsPerOne * 10 ^ k.toNat :=
    Nat.mul_pos unitsPerOne_pos (Nat.pow_pos (by decide))
  have hgaps : x.gapBelow * 10 ^ (-k).toNat ≤ x.gapAbove * 10 ^ (-k).toNat :=
    Nat.mul_le_mul_right _ x.gapBelow_le_gapAbove
  have hmod := Nat.mod_lt (x.units * 10 ^ (-k).toNat) hd
  simp only [onGrid?, Nat.pow_eq]
  generalize x.gapBelow * 10 ^ (-k).toNat = belowGap at *
  generalize x.gapAbove * 10 ^ (-k).toNat = aboveGap at *
  generalize unitsPerOne * 10 ^ k.toNat = d at *
  split
  · split
    · rfl
    · split <;> rfl
  · rfl
  · rfl
  · rename_i hbelow habove
    split at hbelow
    · simp_all
      omega
    · simp_all
      omega

/-- A double has no more units than `10^16` of its steps. -/
theorem units_lt_steps (x : Finite) : x.units < 10 ^ 16 * x.gapBelow := by
  have hlt : x.units < 2 ^ (x.units.log2 + 1) := Nat.lt_log2_self
  have hgap := x.gapBelow_pos
  by_cases hpower : 53 ≤ x.units.log2 ∧ x.units = 2 ^ x.units.log2
  · have hsplit := x.two_pow_log2_split hpower.1
    rw [← x.gapBelow_of_power hpower.1 hpower.2, ← hpower.2] at hsplit
    omega
  · have hstep := x.gapBelow_of_not_power (by omega)
    have hroom : 2 ^ (x.units.log2 + 1) ≤ 2 ^ 53 * x.gapBelow := by
      rw [hstep]
      unfold gapAbove gridStep
      rw [Nat.pow_eq, ← pow_add]
      exact Nat.pow_le_pow_right (by decide) (by omega)
    omega

/-- Whether a number of units lies below `10^p`. -/
def unitsBelow (units : Nat) : Int → Bool
  | .ofNat p => units < unitsPerOne * Nat.pow 10 p
  | .negSucc p => units * Nat.pow 10 (p + 1) < unitsPerOne

theorem unitsBelow_iff {units : Nat} {p : Int} :
    unitsBelow units p = true ↔ (units : ℚ) < 10 ^ p * unitsPerOne := by
  cases p with
  | ofNat p =>
      have hpow : (10 : ℚ) ^ (Int.ofNat p) = 10 ^ p := zpow_natCast 10 p
      rw [hpow, unitsBelow, decide_eq_true_eq, Nat.pow_eq, mul_comm]
      exact_mod_cast Iff.rfl
  | negSucc p =>
      rw [zpow_negSucc, unitsBelow, decide_eq_true_eq, Nat.pow_eq, inv_mul_eq_div,
        lt_div_iff₀ (by positivity)]
      exact_mod_cast Iff.rfl

theorem log2_lt_of_lt_two_pow {n e : Nat} (hn : n ≠ 0) (h : n < 2 ^ e) : n.log2 < e :=
  (Nat.log2_lt hn).mpr h

/-- The estimate of the decimal order is at most one too large. -/
theorem order_estimate : ∀ e : Nat, e < 2044 + 54 →
    unitsBelow (2 ^ e) (Int.fdiv (((e : Int) - 1074) * 30103) 100000 - 1) = false := by
  decide +kernel

theorem le_units_of_decimalOrder (hx : x.units ≠ 0) :
    (10 : ℚ) ^ (x.decimalOrder - 1) * unitsPerOne ≤ x.units := by
  have hbelow : ∀ p, x.belowPowerOfTen p = unitsBelow x.units p := by
    intro p
    cases p <;> rfl
  have hnot : ∀ p, x.belowPowerOfTen p = false → (10 : ℚ) ^ p * unitsPerOne ≤ x.units := by
    intro p hp
    rw [hbelow, ← Bool.not_eq_true, unitsBelow_iff, not_lt] at hp
    exact hp
  unfold decimalOrder
  dsimp only
  split
  · have hlimit := x.bounded
    rw [← two_pow_eq_unitsLimit] at hlimit
    have hlog := log2_lt_of_lt_two_pow hx hlimit
    have hself : ((2 ^ x.units.log2 : Nat) : ℚ) ≤ x.units := by
      exact_mod_cast Nat.log2_self_le hx
    have hestimate := order_estimate x.units.log2 hlog
    rw [← Bool.not_eq_true, unitsBelow_iff, not_lt] at hestimate
    exact hestimate.trans hself
  · rename_i hguess
    split
    · rw [Int.add_sub_cancel]
      exact hnot _ (by simpa using hguess)
    · rename_i hnext
      have hshift : ∀ guess : Int, guess + 2 - 1 = guess + 1 := by
        intro guess
        omega
      rw [hshift]
      exact hnot _ (by simpa using hnext)

/-- Among the decimals of seventeen digits one is found. -/
theorem onGrid?_seventeen (hx : x.units ≠ 0) : (x.onGrid? (x.decimalOrder - 17)).isSome := by
  have hten : (0 : ℚ) < 10 ^ 16 := by positivity
  have hlow := x.le_units_of_decimalOrder hx
  have hhigh : (x.units : ℚ) < 10 ^ 16 * x.gapBelow := by exact_mod_cast x.units_lt_steps
  have hshift : (10 : ℚ) ^ (x.decimalOrder - 1) = 10 ^ 16 * 10 ^ (x.decimalOrder - 17) := by
    rw [← zpow_natCast, ← zpow_add₀ (by norm_num)]
    congr 1
    omega
  have hsize : (10 : ℚ) ^ (x.decimalOrder - 17) * unitsPerOne < x.gapBelow := by
    rw [hshift, mul_assoc] at hlow
    exact lt_of_mul_lt_mul_left (hlow.trans_lt hhigh) hten.le
  apply onGrid?_isSome
  rw [ten_zpow_eq, div_mul_eq_mul_div, div_lt_iff₀ (by positivity), mul_comm] at hsize
  exact_mod_cast hsize

/-! ## The printed text -/

/-- The digits a double is printed by write a decimal in its interval. -/
theorem shortestDigits_takes (hx : x.units ≠ 0) :
    (∀ c ∈ x.shortestDigits.1, c.isDigit = true) ∧
      x.Takes (Double.decimalSize (digitValues x.shortestDigits.1)
        (x.shortestDigits.2 - x.shortestDigits.1.length) * unitsPerOne) := by
  cases hfound : (List.range 17).findSome? fun (i : Nat) =>
      (x.onGrid? (x.decimalOrder - ((i : Int) + 1))).map fun c =>
        (c, x.decimalOrder - ((i : Int) + 1)) with
  | none =>
      have hlast : (x.onGrid? (x.decimalOrder - 17)).map (fun c => (c, x.decimalOrder - 17)) =
          none := List.findSome?_eq_none_iff.mp hfound 16 (by decide)
      have hsome := onGrid?_seventeen hx
      rw [Option.map_eq_none_iff.mp hlast] at hsome
      cases hsome
  | some found =>
      rcases found with ⟨c, k⟩
      rcases List.exists_of_findSome?_eq_some hfound with ⟨i, -, hsome⟩
      rcases Option.map_eq_some_iff.mp hsome with ⟨c', hgrid, heq⟩
      rcases Prod.mk.inj heq with ⟨rfl, rfl⟩
      have hdigits := withoutZeros_spec (isDigit_of_mem_toDigits (n := c'))
        (x.decimalOrder - ((i : Int) + 1))
      have htakes := takes_of_onGrid? hgrid
      rw [← digitsValue_toDigits c'] at htakes
      simp only [shortestDigits, hfound, Option.getD_some]
      refine ⟨hdigits.1, ?_⟩
      rw [hdigits.2]
      exact htakes

theorem shortestDigits_ne_nil (hx : x.units ≠ 0) : x.shortestDigits.1 ≠ [] := by
  intro hempty
  have hnil : digitValues [] = [] := rfl
  have hhalf := (shortestDigits_takes hx).2.half_le hx
  rw [hempty, hnil, Double.decimalSize_nil, zero_mul] at hhalf
  norm_num at hhalf

/-- A printed double is a numeral that rounds to the double. -/
theorem text_writes (x : Finite) :
    ∃ body digits e, x.text = String.ofList (if x.negative then '-' :: body else body) ∧
      Writes body digits e ∧ Double.ofDecimal x.negative digits e = .finite x := by
  by_cases hx : x.units = 0
  · have hwrites := writes_fraction (isDigit_of_mem_zeros 1) (by simp) (isDigit_of_mem_zeros 1)
      endsIn_nil
    refine ⟨_, _, _, ?_, hwrites, ?_⟩
    · unfold text
      rw [if_pos hx]
      rfl
    · rcases x with ⟨negative, units, onGrid, bounded⟩
      simp only at hx
      subst hx
      rfl
  · have hdigits := shortestDigits_takes hx
    rcases writeDigits_writesSize hdigits.1 (shortestDigits_ne_nil hx) x.shortestDigits.2 with
      ⟨digits, e, hwrites, hsize⟩
    refine ⟨_, _, _, ?_, hwrites, ?_⟩
    · unfold text
      rw [if_neg hx]
    · apply Double.ofDecimal_of_takes hwrites.le hx
      rw [hsize]
      exact hdigits.2

/-- A printed double reads as itself. -/
theorem number?_text (x : Finite) : (Value.str x.text).number? = some x := by
  rcases x.text_writes with ⟨body, digits, e, htext, hwrites, hvalue⟩
  rw [htext, hwrites.number?_eq, hvalue]
  rfl

theorem text_injective {x y : Finite} (h : x.text = y.text) : x = y := by
  have hx := x.number?_text
  rw [h, y.number?_text] at hx
  exact (Option.some.inj hx).symm

end Finite

end FormRules
