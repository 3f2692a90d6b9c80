import FormRules.Reading.Basic
import FormRules.Text.Blank
import FormRules.Value.Basic

/-!
# Reading scalar values

Texts are read from texts alone.  Integers are also read from booleans, from
doubles without a fraction and from decimal text; booleans also from one and
zero and from a few words.
-/

namespace FormRules

namespace Reading

/-- The smallest integer of 64 bits, `-2^63`. -/
def wordMin : Int := -9223372036854775808

/-- The first integer above those of 64 bits, `2^63`. -/
def wordLimit : Int := 9223372036854775808

def text : Value → Reading String
  | .str s => .ok s
  | _ => fault .notText

def nonEmptyText (v : Value) : Reading String :=
  (text v).andThen fun s => if s.isEmpty then fault .textTooShort else .ok s

def list : Value → Reading (List Value)
  | .list items => .ok items
  | _ => fault .notAList

def object : Value → Reading Fields
  | .obj fields => .ok fields
  | _ => fault .notAnObject

/-- A value that may also be null. -/
def nullable {α : Type} (read : Value → Reading α) : Value → Reading (Option α)
  | .null => .ok none
  | v => (read v).map some

def texts (v : Value) : Reading (List String) := (list v).andThen (each text)

/-- What follows the digits of an integer text: nothing, or a point and
zeros. -/
def isWholeTail : List Char → Bool
  | [] => true
  | '.' :: zeros => !zeros.isEmpty && zeros.all (· == '0')
  | _ => false

/-- The number whose digits a text begins with, when nothing else follows that
counts. -/
def wholeOf? (cs : List Char) : Option Nat :=
  match Text.takeDigits Text.asciiDigit? cs with
  | ([], _) => none
  | (digits, tail) => if isWholeTail tail then some (Text.digitsValue digits) else none

/-- A text without the zeros and `_` it begins with, if a digit or a minus sign
follows them; otherwise the last of them stays. -/
def withoutLeadingZeros (cs : List Char) : List Char :=
  let isFiller (c : Char) := c == '0' || c == '_'
  let rest := cs.dropWhile isFiller
  if rest.head?.any fun c => c == '-' || (Text.asciiDigit? c).isSome then rest
  else (cs.takeWhile isFiller).drop ((cs.takeWhile isFiller).length - 1) ++ rest

/-- The number behind a minus sign that follows zeros: a `_` may lead it, but no
further zero. -/
def wholeAfterMinus? (cs : List Char) : Option Nat :=
  let cs := if cs.head? = some '_' then cs.drop 1 else cs
  match cs with
  | '0' :: c :: _ => if c = '.' then wholeOf? cs else none
  | cs => wholeOf? cs

/-- The number a text without a sign in front writes, and whether a minus sign
stands behind the zeros it begins with. -/
def magnitude? (cs : List Char) : Option (Bool × Nat) :=
  if cs.head? = some '0' then
    match withoutLeadingZeros cs with
    | '-' :: rest => (wholeAfterMinus? rest).map (true, ·)
    | cs => (wholeOf? cs).map (false, ·)
  else (wholeOf? cs).map (false, ·)

/-- The integer a text writes: white space around it does not count, `_` may
stand between digits, and a fraction of zeros is no fraction.  Zeros in front
do not count either, so a minus sign may stand behind them. -/
def integerOfText? (s : String) : Option Int :=
  let signed (negative : Bool) (n : Nat) : Int := if negative then -n else n
  match Text.trimChars Text.isUnicodeSpace s.toList with
  | '-' :: cs =>
    match magnitude? cs with
    | some (false, n) => some (signed true n)
    | _ => none
  | '+' :: cs => (magnitude? cs).map fun (negative, n) => signed negative n
  | cs => (magnitude? cs).map fun (negative, n) => signed negative n

/-- The integer a finite double stands for.  Doubles at the ends of the 64-bit
integers or beyond stand for none. -/
def integerOfFinite (x : Finite) : Reading Int :=
  match x.toInt? with
  | none => fault .fraction
  | some n => if wordMin < n ∧ n < wordLimit then .ok n else fault .outOfRange

def integer : Value → Reading Int
  | .int n => .ok n
  | .bool b => .ok (if b then 1 else 0)
  | .float (.finite x) => integerOfFinite x
  | .float _ => fault .notFinite
  | .str s =>
    match integerOfText? s with
    | some n => .ok n
    | none => fault .notANumeral
  | _ => fault .notAnInteger

def integerFrom (least : Int) (v : Value) : Reading Int :=
  (integer v).andThen fun n => if n < least then fault .tooSmall else .ok n

def flagOfInt (n : Int) : Reading Bool :=
  if n = 1 then .ok true
  else if n = 0 then .ok false
  else if wordMin ≤ n ∧ n < wordLimit then fault .notAFlagWord
  else fault .notAFlag

/-- The boolean a word stands for, in any case. -/
def flagOfText? (s : String) : Option Bool :=
  let word := String.ofList (s.toList.map Char.toLower)
  if ["true", "t", "yes", "y", "on", "1"].contains word then some true
  else if ["false", "f", "no", "n", "off", "0"].contains word then some false
  else none

def flag : Value → Reading Bool
  | .bool b => .ok b
  | .int n => flagOfInt n
  | .float (.finite x) =>
    match integerOfFinite x with
    | .ok n => flagOfInt n
    | .faulty _ => fault .notAFlag
  | .str s =>
    match flagOfText? s with
    | some b => .ok b
    | none => fault .notAFlagWord
  | _ => fault .notAFlag

end Reading

end FormRules
