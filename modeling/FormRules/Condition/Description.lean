import FormRules.Condition.Basic

/-!
# Conditions as text

A leaf reads as its comparison; a group stands in brackets with its operator
between the children, `NOT` before them, or an unknown operator before a list
of them.
-/

namespace FormRules

/-- A leaf as text; an unknown operator is shown as it is stored. -/
def OperatorId.describe (operator : OperatorId Comparator) (field : String) (value : Value) :
    String :=
  match operator with
  | .known op => op.describe field value
  | operator => field ++ " " ++ operator.text Comparator.name ++ " " ++ value.shown

/-- A group as text, given the texts of its children. -/
def OperatorId.describeGroup (operator : OperatorId Connective) (parts : List String) :
    String :=
  match operator with
  | .known .conjunction => "(" ++ " AND ".intercalate parts ++ ")"
  | .known .disjunction => "(" ++ " OR ".intercalate parts ++ ")"
  | .known .negation => "NOT (" ++ " AND ".intercalate parts ++ ")"
  | operator => operator.text Connective.name ++ "(" ++ ", ".intercalate parts ++ ")"

namespace Condition

mutual

def describe : Condition → String
  | .leaf field operator value => operator.describe field value
  | .group operator children => operator.describeGroup (describeAll children)

def describeAll : List Condition → List String
  | [] => []
  | c :: rest => c.describe :: describeAll rest

end

theorem describeAll_eq_map (cs : List Condition) : describeAll cs = cs.map describe := by
  induction cs with
  | nil => rfl
  | cons c rest ih => simp [describeAll, ih]

end Condition

end FormRules
