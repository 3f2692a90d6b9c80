import FormRules.Text.Spelling

/-!
# Logical operators

The operators that join the children of a group: all of them hold, some of
them holds, or not all of them hold.
-/

namespace FormRules

inductive Connective where
  | conjunction
  | disjunction
  | negation
deriving DecidableEq, Repr

namespace Connective

def all : List Connective := [.conjunction, .disjunction, .negation]

def name : Connective → String
  | conjunction => "And"
  | disjunction => "Or"
  | negation => "Not"

/-- The logical operator some spelling names. -/
def ofName? (s : String) : Option Connective := all.find? fun op => Text.sameName op.name s

end Connective

end FormRules
