import FormRules.Double.Basic
import FormRules.Text.Digit

/-!
# Numbers written as text

A numeral is an optional sign, decimal digits of any script with at most one
point among them, and an optional exponent; `_` may stand between two digits.
It denotes the double nearest to the number it writes.  The words for infinity
and for the undefined number are numerals as well, in any case.
-/

namespace FormRules

namespace Double

/-- The double nearest to `d₁d₂… · 10^exponent`.  Numbers whose order of size
shows that they are infinite or zero are not computed. -/
def ofDecimal (negative : Bool) (digits : List Nat) (exponent : Int) : Double :=
  let digits := digits.dropWhile (· == 0)
  let order := (digits.length : Int) + exponent
  if digits.isEmpty || order < -330 then .finite (.signedZero negative)
  else if 310 < order then .infinite negative
  else
    let n := Text.digitsValue digits
    if exponent < 0 then ofRatio negative n (Nat.pow 10 exponent.natAbs)
    else ofRatio negative (n * Nat.pow 10 exponent.natAbs) 1

end Double

namespace Numeral

/-- Splits an optional sign from a text; `true` is minus. -/
def takeSign : List Char → Bool × List Char
  | '-' :: cs => (true, cs)
  | '+' :: cs => (false, cs)
  | cs => (false, cs)

/-- The exponent that ends a numeral: nothing, or `e` and an integer. -/
def exponent? : List Char → Option Int
  | [] => some 0
  | c :: cs =>
    if c = 'e' ∨ c = 'E' then
      let (negative, cs) := takeSign cs
      (Text.allDigits? Text.digit? cs).map fun n => if negative then -(n : Int) else n
    else none

/-- The double denoted by an unsigned numeral of digits. -/
def digits? (negative : Bool) (cs : List Char) : Option Double :=
  let (whole, rest) := Text.takeDigits Text.digit? cs
  let (fraction, rest) :=
    match rest with
    | '.' :: rest => Text.takeDigits Text.digit? rest
    | rest => ([], rest)
  if whole.isEmpty && fraction.isEmpty then none
  else (exponent? rest).map fun e =>
    Double.ofDecimal negative (whole ++ fraction) (e - fraction.length)

def word? (negative : Bool) (cs : List Char) : Option Double :=
  let word := String.ofList (cs.map Char.toLower)
  if word = "inf" ∨ word = "infinity" then some (.infinite negative)
  else if word = "nan" then some .nan
  else none

def read? (s : String) : Option Double :=
  let (negative, cs) := takeSign s.toList
  (digits? negative cs).orElse fun _ => word? negative cs

end Numeral

end FormRules
