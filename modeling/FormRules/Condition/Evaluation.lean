import FormRules.Condition.Basic
import FormRules.FormData.Basic

/-!
# Evaluating conditions

A tree is evaluated from the left, and a group stops at the first child that
decides it.  Missing values and failed comparisons never fail an evaluation;
only a tree that is nested too deeply, uses an operator this library does not
know or holds a blank reference does, and only when the evaluation gets there.
-/

namespace FormRules

/-- Why a condition cannot be evaluated. -/
inductive EvaluationError where
  | tooDeep (limit : Int)
  | unsupportedComparator (name : String)
  | unsupportedConnective (name : String)
  | blankReference
  | notACondition (typeName : String)
deriving DecidableEq, Repr

def EvaluationError.message : EvaluationError → String
  | tooDeep limit => "Condition nesting exceeds maximum depth of " ++ Text.intText limit
  | unsupportedComparator name => "Operator '" ++ name ++ "' is not supported"
  | unsupportedConnective name => "Logical operator '" ++ name ++ "' is not supported"
  | blankReference => Reference.blankMessage
  | notACondition typeName =>
    "Invalid condition: expected a simple or complex condition, got " ++ typeName

/-- What an evaluation is told besides the condition and the data. -/
structure Evaluator where
  mode : CaseMode
  /-- The deepest level that is still evaluated; the root is at level 1. -/
  maxDepth : Int
  /-- The module of references without a module when none is current. -/
  defaultModule : String
deriving DecidableEq

namespace Evaluator

def leafHolds (e : Evaluator) (data : FormData) (field : String)
    (operator : OperatorId Comparator) (value : Value) : Except EvaluationError Bool :=
  match operator.known? with
  | none => .error (.unsupportedComparator (operator.text Comparator.name))
  | some op =>
    match Reference.read? field with
    | none => .error .blankReference
    | some reference =>
      .ok (op.holds e.mode (data.resolve e.defaultModule reference) value)

mutual

/-- The evaluation of a tree whose root stands at the given level. -/
def evaluateAt (e : Evaluator) (data : FormData) (level : Nat) :
    Condition → Except EvaluationError Bool
  | .leaf field operator value =>
    if e.maxDepth < level then .error (.tooDeep e.maxDepth)
    else e.leafHolds data field operator value
  | .group operator children =>
    if e.maxDepth < level then .error (.tooDeep e.maxDepth)
    else
      match operator with
      | .known .conjunction => allHold e data (level + 1) children
      | .known .disjunction => someHolds e data (level + 1) children
      | .known .negation => (allHold e data (level + 1) children).map (!·)
      | operator => .error (.unsupportedConnective (operator.text Connective.name))

/-- Whether all trees hold, up to the first that does not or fails. -/
def allHold (e : Evaluator) (data : FormData) (level : Nat) :
    List Condition → Except EvaluationError Bool
  | [] => .ok true
  | c :: rest =>
    match evaluateAt e data level c with
    | .ok true => allHold e data level rest
    | .ok false => .ok false
    | .error err => .error err

/-- Whether some tree holds, up to the first that does or fails. -/
def someHolds (e : Evaluator) (data : FormData) (level : Nat) :
    List Condition → Except EvaluationError Bool
  | [] => .ok false
  | c :: rest =>
    match evaluateAt e data level c with
    | .ok false => someHolds e data level rest
    | .ok true => .ok true
    | .error err => .error err

end

def evaluate (e : Evaluator) (data : FormData) (condition : Condition) :
    Except EvaluationError Bool :=
  e.evaluateAt data 1 condition

/-- What evaluating a value that was never read as a condition ends in. -/
def rejectValue (e : Evaluator) (v : Value) : EvaluationError :=
  if e.maxDepth < 1 then .tooDeep e.maxDepth else .notACondition v.typeName

mutual

/-- The sizes of the negated groups an evaluation enters, in order, of those
that do not have exactly one child. -/
def wideNegationsAt (e : Evaluator) (data : FormData) (level : Nat) : Condition → List Nat
  | .leaf _ _ _ => []
  | .group operator children =>
    if e.maxDepth < level then []
    else
      match operator with
      | .known .conjunction => wideNegationsWhile e data (level + 1) true children
      | .known .disjunction => wideNegationsWhile e data (level + 1) false children
      | .known .negation =>
        (if children.length = 1 then [] else [children.length]) ++
          wideNegationsWhile e data (level + 1) true children
      | _ => []

/-- The same for the children of a group, as long as they evaluate to the
result that lets the group go on. -/
def wideNegationsWhile (e : Evaluator) (data : FormData) (level : Nat) (goOn : Bool) :
    List Condition → List Nat
  | [] => []
  | c :: rest =>
    wideNegationsAt e data level c ++
      match evaluateAt e data level c with
      | .ok b => if b = goOn then wideNegationsWhile e data level goOn rest else []
      | .error _ => []

end

end Evaluator

end FormRules
