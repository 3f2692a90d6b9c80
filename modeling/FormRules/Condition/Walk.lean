import FormRules.Condition.Basic
import FormRules.Distinct

/-!
# Walking conditions

All conditions of a tree, each group before its children and the children from
left to right.  The walk keeps the trees it has still to visit in a list and
puts the children of a group in front; `preorder` is the same order by
recursion on the tree.
-/

namespace FormRules

namespace Condition

def children : Condition → List Condition
  | .leaf _ _ _ => []
  | .group _ children => children

mutual

def size : Condition → Nat
  | .leaf _ _ _ => 1
  | .group _ children => sizeOfAll children + 1

def sizeOfAll : List Condition → Nat
  | [] => 0
  | c :: rest => c.size + sizeOfAll rest

end

theorem sizeOfAll_append (cs ds : List Condition) :
    sizeOfAll (cs ++ ds) = sizeOfAll cs + sizeOfAll ds := by
  induction cs with
  | nil => simp [sizeOfAll]
  | cons c rest ih => simp [sizeOfAll, ih, Nat.add_assoc]

theorem sizeOfAll_children_lt (c : Condition) : sizeOfAll c.children < c.size := by
  cases c <;> simp [children, size, sizeOfAll]

/-- Visits the pending trees, the first one next. -/
def walkFrom : List Condition → List Condition
  | [] => []
  | c :: pending => c :: walkFrom (c.children ++ pending)
termination_by pending => sizeOfAll pending
decreasing_by
  have := sizeOfAll_children_lt c
  simp only [sizeOfAll_append, sizeOfAll]
  omega

/-- All conditions of a tree in the order they are visited. -/
def walk (c : Condition) : List Condition := walkFrom [c]

def field? : Condition → Option String
  | .leaf field _ _ => some field
  | .group _ _ => none

/-- The operator of a condition, as text, when evaluation rejects it. -/
def unsupportedOperator? : Condition → Option String
  | .leaf _ operator _ =>
    if operator.known?.isSome then none else some (operator.text Comparator.name)
  | .group operator _ =>
    if operator.known?.isSome then none else some (operator.text Connective.name)

/-- The references of a tree, each at its first occurrence. -/
def references (c : Condition) : List String := distinct (c.walk.filterMap field?)

/-- The operators of a tree that evaluation rejects, with repetitions. -/
def unsupportedOperators (c : Condition) : List String :=
  c.walk.filterMap unsupportedOperator?

mutual

/-- All conditions of a tree, a group before its children. -/
def preorder : Condition → List Condition
  | .leaf field operator value => [.leaf field operator value]
  | .group operator children => .group operator children :: preorderAll children

def preorderAll : List Condition → List Condition
  | [] => []
  | c :: rest => c.preorder ++ preorderAll rest

end

theorem preorderAll_append (cs ds : List Condition) :
    preorderAll (cs ++ ds) = preorderAll cs ++ preorderAll ds := by
  induction cs with
  | nil => rfl
  | cons c rest ih => simp [preorderAll, ih]

theorem preorder_eq (c : Condition) : c.preorder = c :: preorderAll c.children := by
  cases c <;> simp [preorder, children, preorderAll]

theorem walkFrom_eq_preorderAll (pending : List Condition) :
    walkFrom pending = preorderAll pending := by
  fun_induction walkFrom pending with
  | case1 => rfl
  | case2 c pending ih =>
    rw [ih, preorderAll_append, preorderAll, preorder_eq]
    rfl

end Condition

end FormRules
