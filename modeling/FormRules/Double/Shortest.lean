import FormRules.Double.Basic
import FormRules.Text.Digit

/-!
# The shortest text of a double

A double is written with the fewest decimal digits that still round to it, and
of those the nearest to it.  The numbers that round to a finite double form an
interval around it; on the grid of `n`-digit decimals only the two neighbours
of the double have to be tried, and the first `n` whose grid meets the
interval decides.
-/

namespace FormRules

namespace Finite

/-- The distance, in units, to the next larger double. -/
def gapAbove (x : Finite) : Nat := gridStep x.units

/-- The distance, in units, to the next smaller double: half the other gap at
a power of two, unless the doubles below are as wide apart. -/
def gapBelow (x : Finite) : Nat :=
  let shift := x.units.log2 - 52
  if x.units = Nat.pow 2 (shift + 52) ∧ 0 < shift then Nat.pow 2 (shift - 1)
  else Nat.pow 2 shift

/-- Whether the ends of the interval that rounds to `x` belong to it. -/
def endsRoundHere (x : Finite) : Bool := x.units / x.gapAbove % 2 == 0

/-- Whether the size of `x` lies below `10^p`. -/
def belowPowerOfTen (x : Finite) : Int → Bool
  | .ofNat p => x.units < unitsPerOne * Nat.pow 10 p
  | .negSucc p => x.units * Nat.pow 10 (p + 1) < unitsPerOne

/-- The least `p` with the size of `x` below `10^p`, for `x` other than zero;
the binary order of size leaves three candidates. -/
def decimalOrder (x : Finite) : Int :=
  let guess := Int.fdiv (((x.units.log2 : Int) - 1074) * 30103) 100000
  if x.belowPowerOfTen guess then guess
  else if x.belowPowerOfTen (guess + 1) then guess + 1
  else guess + 2

/-- The multiple of `10^k` that rounds to `x` and is nearest to it, when there
is one; of two at the same distance the even multiple. -/
def onGrid? (x : Finite) (k : Int) : Option Nat :=
  let scale := Nat.pow 10 (-k).toNat
  let n := x.units * scale
  let d := unitsPerOne * Nat.pow 10 k.toNat
  let low := n / d
  let below := n % d
  let above := d - below
  let reaches (distance gap : Nat) : Bool :=
    if x.endsRoundHere then 2 * distance ≤ gap * scale else 2 * distance < gap * scale
  match reaches below x.gapBelow, reaches above x.gapAbove with
  | true, true =>
    if below < above then some low
    else if above < below then some (low + 1)
    else some (low + low % 2)
  | true, false => some low
  | false, true => some (low + 1)
  | false, false => none

/-- The shortest digits of a double other than zero, and the exponent `p` for
which its size is `0.d₁d₂… · 10^p`. -/
def shortestDigits (x : Finite) : List Char × Int :=
  let order := x.decimalOrder
  let found := (List.range 17).findSome? fun (i : Nat) =>
    let k : Int := order - ((i : Int) + 1)
    (x.onGrid? k).map fun c => (c, k)
  let (c, k) := found.getD (0, 0)
  let digits := Nat.toDigits 10 c
  ((digits.reverse.dropWhile (· == '0')).reverse, digits.length + k)

/-- Digits `0.d₁d₂… · 10^p` written out: positionally when `-4 < p ≤ 16`, with
`.0` after a whole number, and otherwise with an exponent of at least two
digits. -/
def writeDigits (digits : List Char) (p : Int) : List Char :=
  if -4 < p ∧ p ≤ 16 then
    if p ≤ 0 then
      '0' :: '.' :: List.replicate (-p).toNat '0' ++ digits
    else
      let whole := p.toNat
      let padded := digits ++ List.replicate (whole - digits.length) '0'
      let fraction := digits.drop whole
      padded.take whole ++ '.' :: (if fraction.isEmpty then ['0'] else fraction)
  else
    let exponent := p - 1
    let size := Nat.toDigits 10 exponent.natAbs
    let mantissa :=
      match digits with
      | d :: rest@(_ :: _) => d :: '.' :: rest
      | ds => ds
    mantissa ++ 'e' :: (if exponent < 0 then '-' else '+') ::
      (if size.length < 2 then '0' :: size else size)

/-- The text of a finite double; zero keeps its sign. -/
def text (x : Finite) : String :=
  let body :=
    if x.units = 0 then ['0', '.', '0']
    else
      let (digits, p) := x.shortestDigits
      writeDigits digits p
  String.ofList (if x.negative then '-' :: body else body)

/-- The text of a finite double with two decimal places, a half going to the
even neighbour. -/
def fixedText (x : Finite) : String :=
  let cents := x.hundredths
  let fraction := cents % 100
  (if x.negative then "-" else "") ++ Text.natText (cents / 100) ++ "." ++
    (if fraction < 10 then "0" else "") ++ Text.natText fraction

end Finite

namespace Double

def text : Double → String
  | .finite x => x.text
  | .infinite negative => if negative then "-inf" else "inf"
  | .nan => "nan"

def fixedText : Double → String
  | .finite x => x.fixedText
  | x => x.text

end Double

end FormRules
