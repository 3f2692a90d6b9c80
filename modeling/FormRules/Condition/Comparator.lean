import FormRules.Text.Spelling
import FormRules.Value.Comparison

/-!
# Comparison operators

The sixteen ways in which a leaf of a condition compares a field with an
expected value.  Half of the operators that look at texts, lists or missing
values are negations of the other half; ordering operators never hold unless
both sides are numbers.
-/

namespace FormRules

inductive Comparator where
  | equals
  | notEquals
  | greaterThan
  | greaterThanOrEqual
  | lessThan
  | lessThanOrEqual
  | contains
  | notContains
  | startsWith
  | endsWith
  | isIn
  | isNotIn
  | isNull
  | isNotNull
  | isEmpty
  | isNotEmpty
deriving DecidableEq, Repr

namespace Comparator

def all : List Comparator :=
  [.equals, .notEquals, .greaterThan, .greaterThanOrEqual, .lessThan, .lessThanOrEqual,
   .contains, .notContains, .startsWith, .endsWith, .isIn, .isNotIn,
   .isNull, .isNotNull, .isEmpty, .isNotEmpty]

def name : Comparator → String
  | equals => "Equals"
  | notEquals => "NotEquals"
  | greaterThan => "GreaterThan"
  | greaterThanOrEqual => "GreaterThanOrEqual"
  | lessThan => "LessThan"
  | lessThanOrEqual => "LessThanOrEqual"
  | contains => "Contains"
  | notContains => "NotContains"
  | startsWith => "StartsWith"
  | endsWith => "EndsWith"
  | isIn => "In"
  | isNotIn => "NotIn"
  | isNull => "IsNull"
  | isNotNull => "IsNotNull"
  | isEmpty => "IsEmpty"
  | isNotEmpty => "IsNotEmpty"

/-- The operator some spelling names. -/
def ofName? (s : String) : Option Comparator := all.find? fun op => Text.sameName op.name s

/-- Whether an operator looks at the field alone. -/
def isValueless : Comparator → Bool
  | isNull | isNotNull | isEmpty | isNotEmpty => true
  | _ => false

/-- The sign an operator is shown by in a description. -/
def symbol : Comparator → String
  | equals => "=="
  | notEquals => "!="
  | greaterThan => ">"
  | greaterThanOrEqual => ">="
  | lessThan => "<"
  | lessThanOrEqual => "<="
  | op => op.name

/-- Whether the comparison of a field's value with the expected one holds. -/
def holds (op : Comparator) (mode : CaseMode) (value expected : Value) : Bool :=
  match op with
  | equals => value.equals mode expected
  | notEquals => !value.equals mode expected
  | greaterThan => Value.numbersSatisfy (fun x y => decide (y < x)) value expected
  | greaterThanOrEqual => Value.numbersSatisfy (fun x y => decide (y ≤ x)) value expected
  | lessThan => Value.numbersSatisfy (fun x y => decide (x < y)) value expected
  | lessThanOrEqual => Value.numbersSatisfy (fun x y => decide (x ≤ y)) value expected
  | contains => value.holds mode expected
  | notContains => !value.holds mode expected
  | startsWith => Value.textsSatisfy Text.beginsWith mode value expected
  | endsWith => Value.textsSatisfy Text.endsWith mode value expected
  | isIn => value.memberOf mode expected
  | isNotIn => !value.memberOf mode expected
  | isNull => value.isMissing
  | isNotNull => !value.isMissing
  | isEmpty => value.isEmpty
  | isNotEmpty => !value.isEmpty

def describe (op : Comparator) (field : String) (expected : Value) : String :=
  if op.isValueless then field ++ " " ++ op.name
  else field ++ " " ++ op.symbol ++ " " ++ expected.shown

theorem mem_all (op : Comparator) : op ∈ all := by cases op <;> simp [all]

end Comparator

end FormRules
