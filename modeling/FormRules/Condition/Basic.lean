import FormRules.Condition.Comparator
import FormRules.Condition.Connective

/-!
# Conditions

A condition is a tree: a leaf compares one field with a value, a group joins
its children by a logical operator.  Operators a stored form uses but this
library does not know are kept as they were written, by name or by number, so
that a form can be loaded, shown and written back; only evaluation rejects
them.
-/

namespace FormRules

/-- An operator of a stored condition: a known one, or the name or number of
another. -/
inductive OperatorId (Known : Type) where
  | known (op : Known)
  | named (name : String)
  | numbered (n : Int)
deriving DecidableEq, Repr

namespace OperatorId

variable {Known : Type}

def known? : OperatorId Known → Option Known
  | .known op => some op
  | _ => none

/-- The operator as stored text, given the names of the known ones. -/
def text (name : Known → String) : OperatorId Known → String
  | .known op => name op
  | .named s => s
  | .numbered n => Text.intText n

end OperatorId

inductive Condition where
  /-- Compares the field behind a reference with a value. -/
  | leaf (field : String) (operator : OperatorId Comparator) (value : Value)
  /-- Joins conditions by a logical operator. -/
  | group (operator : OperatorId Connective) (children : List Condition)

namespace Condition

/-- The group that holds when all conditions hold. -/
def allOf (children : List Condition) : Condition := .group (.known .conjunction) children

/-- The group that holds when some condition holds. -/
def anyOf (children : List Condition) : Condition := .group (.known .disjunction) children

/-- The group that holds when a condition does not. -/
def negate (child : Condition) : Condition := .group (.known .negation) [child]

mutual

/-- The number of levels of a tree; a leaf has one. -/
def depth : Condition → Nat
  | .leaf _ _ _ => 1
  | .group _ children => depthOfAll children + 1

/-- The number of levels of the deepest tree of a list. -/
def depthOfAll : List Condition → Nat
  | [] => 0
  | c :: rest => max c.depth (depthOfAll rest)

end

mutual

def decEq : (a b : Condition) → Decidable (a = b)
  | .leaf f o v, .leaf f' o' v' =>
    decidable_of_iff (f = f' ∧ o = o' ∧ v = v') (by simp)
  | .group o cs, .group o' cs' =>
    match decEqList cs cs' with
    | .isTrue h => decidable_of_iff (o = o') (by simp [h])
    | .isFalse h => .isFalse (by simp [h])
  | .leaf _ _ _, .group _ _ => .isFalse nofun
  | .group _ _, .leaf _ _ _ => .isFalse nofun

def decEqList : (xs ys : List Condition) → Decidable (xs = ys)
  | [], [] => .isTrue rfl
  | [], _ :: _ => .isFalse nofun
  | _ :: _, [] => .isFalse nofun
  | x :: xs, y :: ys =>
    match decEq x y, decEqList xs ys with
    | .isTrue h, .isTrue hs => .isTrue (by rw [h, hs])
    | .isFalse h, _ => .isFalse (by simp [h])
    | _, .isFalse hs => .isFalse (by simp [hs])

end

instance : DecidableEq Condition := decEq

theorem depth_pos (c : Condition) : 0 < c.depth := by
  cases c <;> simp [depth]

theorem depth_le_depthOfAll {c : Condition} {cs : List Condition} (h : c ∈ cs) :
    c.depth ≤ depthOfAll cs := by
  induction cs with
  | nil => simp at h
  | cons d rest ih =>
    rcases List.mem_cons.1 h with rfl | h
    · exact Nat.le_max_left _ _
    · exact Nat.le_trans (ih h) (Nat.le_max_right _ _)

end Condition

end FormRules
