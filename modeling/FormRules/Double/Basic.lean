/-!
# Doubles as exact numbers

Every finite double is a whole multiple of `2^-1074`, the smallest positive
one.  A finite double is therefore kept as a sign and that multiple, its
*units*; comparing two of them is comparing integers, and rounding a quotient
to the nearest double is one function on natural numbers.  The sign is kept
beside the units because zero has two signs.
-/

namespace FormRules

/-- Units in one: `2^1074`. -/
def unitsPerOne : Nat := Nat.pow 2 1074

/-- Units from which on a number is too large to be finite: `2^1024` ones. -/
def unitsLimit : Nat := Nat.pow 2 2098

theorem unitsLimit_pos : 0 < unitsLimit := by decide +kernel

/-- The distance of neighbouring doubles at a number of units, of which 53
binary digits are kept. -/
def gridStep (units : Nat) : Nat := Nat.pow 2 (units.log2 - 52)

/-- A finite double: a sign and a number of units of `2^-1074`. -/
structure Finite where
  negative : Bool
  units : Nat
  onGrid : gridStep units ∣ units
  bounded : units < unitsLimit
deriving DecidableEq, Repr

inductive Double where
  | finite (x : Finite)
  | infinite (negative : Bool)
  | nan
deriving DecidableEq, Repr

/-- `n / d` rounded to the nearest integer, a half to the even neighbour. -/
def roundDiv (n d : Nat) : Nat :=
  let q := n / d
  let r := n % d
  if 2 * r < d then q else if d < 2 * r then q + 1 else q + q % 2

theorem roundDiv_le_succ (n d : Nat) : roundDiv n d ≤ n / d + 1 := by
  simp only [roundDiv]
  split
  · omega
  · split <;> omega

/-- `n / d` units rounded to 53 binary digits. -/
def roundUnits (n d : Nat) : Nat := roundDiv n (d * gridStep (n / d)) * gridStep (n / d)

theorem gridStep_dvd_mul {q s : Nat} (hq : q ≤ Nat.pow 2 53) :
    gridStep (q * Nat.pow 2 s) ∣ q * Nat.pow 2 s := by
  unfold gridStep
  simp only [Nat.pow_eq] at hq ⊢
  rcases Nat.lt_or_eq_of_le hq with hlt | heq
  · by_cases hzero : q = 0
    · simp [hzero]
    · have hprod : q * 2 ^ s < 2 ^ (53 + s) := by
        rw [Nat.pow_add]
        exact Nat.mul_lt_mul_of_pos_right hlt (Nat.two_pow_pos s)
      have hne : q * 2 ^ s ≠ 0 := Nat.mul_ne_zero hzero (Nat.ne_of_gt (Nat.two_pow_pos s))
      have hlog : (q * 2 ^ s).log2 < 53 + s := (Nat.log2_lt hne).mpr hprod
      exact Nat.dvd_trans (Nat.pow_dvd_pow 2 (by omega)) (Nat.dvd_mul_left _ _)
  · -- Rounding up to `2^53` moves on to the next grid, which is coarser.
    rw [heq, ← Nat.pow_add, Nat.log2_two_pow]
    exact Nat.pow_dvd_pow 2 (by omega)

theorem roundUnits_onGrid (n d : Nat) : gridStep (roundUnits n d) ∣ roundUnits n d := by
  apply gridStep_dvd_mul
  have hlog : n / d < 2 ^ ((n / d).log2 + 1) := Nat.lt_log2_self
  have hsplit : 2 ^ ((n / d).log2 + 1) ≤ 2 ^ ((n / d).log2 - 52) * 2 ^ 53 := by
    rw [← Nat.pow_add]
    exact Nat.pow_le_pow_right (by decide) (by omega)
  have hquotient : n / (d * gridStep (n / d)) < 2 ^ 53 := by
    rw [← Nat.div_div_eq_div_mul]
    exact Nat.div_lt_of_lt_mul (Nat.lt_of_lt_of_le hlog hsplit)
  exact Nat.le_trans (roundDiv_le_succ _ _) hquotient

namespace Finite

/-- The signed number of units, by which finite doubles are compared. -/
def value (x : Finite) : Int :=
  if x.negative then -(x.units : Int) else x.units

/-- Zero with a sign. -/
def signedZero (negative : Bool) : Finite :=
  ⟨negative, 0, Nat.dvd_zero _, unitsLimit_pos⟩

def zero : Finite := signedZero false

/-- The integer a finite double stands for, when it has no fraction. -/
def toInt? (x : Finite) : Option Int :=
  if x.units % unitsPerOne = 0 then
    let n : Int := (x.units / unitsPerOne : Nat)
    some (if x.negative then -n else n)
  else none

/-- The number of hundredths nearest to the size of `x`, a half to the even
neighbour. -/
def hundredths (x : Finite) : Nat := roundDiv (x.units * 100) unitsPerOne

end Finite

namespace Double

/-- The nearest double to `n / d` units: at most 53 binary digits are kept, a
half goes to the even neighbour, and what reaches `2^1024` is infinite. -/
def ofUnits (negative : Bool) (n d : Nat) : Double :=
  if h : roundUnits n d < unitsLimit then
    .finite ⟨negative, roundUnits n d, roundUnits_onGrid n d, h⟩
  else .infinite negative

def ofRatio (negative : Bool) (n d : Nat) : Double := ofUnits negative (n * unitsPerOne) d

def ofInt (n : Int) : Double := ofRatio (n < 0) n.natAbs 1

def finite? : Double → Option Finite
  | .finite x => some x
  | _ => none

/-- The sum of two doubles, rounded to the nearest double. -/
def plus : Double → Double → Double
  | .finite x, .finite y =>
    let sum := x.value + y.value
    let negative := if sum = 0 then x.negative && y.negative else decide (sum < 0)
    ofUnits negative sum.natAbs 1
  | .nan, _ => .nan
  | _, .nan => .nan
  | .infinite s, .infinite t => if s = t then .infinite s else .nan
  | .infinite s, .finite _ => .infinite s
  | .finite _, .infinite t => .infinite t

/-- The double nearest to `x` rounded to two decimal places. -/
def roundedToHundredths : Double → Double
  | .finite x => ofRatio x.negative x.hundredths 100
  | x => x

end Double

end FormRules
