import FormRules.Double.Numeral
import FormRules.Text.Blank
import FormRules.Text.Fold
import FormRules.Text.Search
import FormRules.Value.Printing

/-!
# Comparing values

Values are compared as numbers when both sides stand for a number and as texts
otherwise.  A number, a numeral and a padded numeral stand for a number;
booleans do not.  A missing value equals a missing value and nothing else.
Texts are compared as written or through their case folding.
-/

namespace FormRules

/-- How texts are compared: as written, or without regard to case. -/
inductive CaseMode where
  | exact
  | folded
deriving DecidableEq, Repr

namespace CaseMode

def ofSensitive (sensitive : Bool) : CaseMode := if sensitive then .exact else .folded

def apply (mode : CaseMode) (s : String) : String :=
  match mode with
  | .exact => s
  | .folded => Text.folded s

end CaseMode

namespace Value

def number? : Value → Option Finite
  | .int n => (Double.ofInt n).finite?
  | .float x => x.finite?
  | .str s => (Numeral.read? (Text.trimmed s)).bind Double.finite?
  | _ => none

/-- The text a value is compared by: booleans in lower case, texts as they
are, everything else as printed. -/
def text : Value → String
  | .bool b => if b then "true" else "false"
  | v => v.plain

/-- The text of a value as it is compared in a case mode. -/
def comparedText (mode : CaseMode) (v : Value) : String := mode.apply v.text

def equals (mode : CaseMode) (a b : Value) : Bool :=
  if a.isMissing || b.isMissing then a.isMissing && b.isMissing
  else
    match a.number?, b.number? with
    | some x, some y => x.value == y.value
    | _, _ => a.comparedText mode == b.comparedText mode

/-- A relation between two numbers; it fails when either side is none. -/
def numbersSatisfy (r : Int → Int → Bool) (a b : Value) : Bool :=
  match a.number?, b.number? with
  | some x, some y => r x.value y.value
  | _, _ => false

/-- A relation between two texts; it fails when either side is missing. -/
def textsSatisfy (r : String → String → Bool) (mode : CaseMode) (a b : Value) : Bool :=
  if a.isMissing || b.isMissing then false
  else r (a.comparedText mode) (b.comparedText mode)

/-- Whether a value holds another: a list by one of its elements, anything
else by its text. -/
def holds (mode : CaseMode) (v part : Value) : Bool :=
  match v with
  | .list items => !part.isMissing && items.any fun item => item.equals mode part
  | v => textsSatisfy Text.holds mode v part

/-- Whether a value is one of the elements of a list. -/
def memberOf (mode : CaseMode) (v : Value) (collection : Value) : Bool :=
  match collection with
  | .list items => !v.isMissing && items.any fun item => v.equals mode item
  | _ => false

/-- Whether a value is missing, a blank text, or an empty list or object. -/
def isEmpty : Value → Bool
  | .absent => true
  | .null => true
  | .str s => Text.isBlank s
  | .list items => items.isEmpty
  | .obj fields => fields.isEmpty
  | _ => false

theorem equals_comm (mode : CaseMode) (a b : Value) : a.equals mode b = b.equals mode a := by
  unfold equals
  rw [Bool.or_comm]
  split
  · exact Bool.and_comm _ _
  · cases a.number? <;> cases b.number? <;> simp [BEq.comm]

end Value

end FormRules
