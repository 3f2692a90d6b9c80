import FormRules.Condition.Basic
import FormRules.Reading.Keyed

/-!
# Stored conditions

A leaf is stored as an object with a field, an operator and a value, a group
as one with a logical operator and its children.  Neither shape admits other
keys, so no object reads as both.  Inside a group or a rule the shape is found
by trying both; if neither fits, the faults of both are reported.
-/

namespace FormRules

namespace Condition

def fieldKey : FieldKey := .single "field"
def operatorKey : FieldKey := .single "operator"
def valueKey : FieldKey := .single "value"
def connectiveKey : FieldKey := ⟨"logicalOp", ["logical_op"]⟩
def childrenKey : FieldKey := ⟨"conditions", ["children"]⟩

def leafKeys : List FieldKey := [fieldKey, operatorKey, valueKey]
def groupKeys : List FieldKey := [connectiveKey, childrenKey]

/-- Reads an operator: a text that spells a known one, any other text as it
is, or a number. -/
def readOperator {Known : Type} (kindName : String) (ofName? : String → Option Known)
    (v : Value) : Reading (OperatorId Known) :=
  match v with
  | .str s =>
    match ofName? s with
    | some op => .ok (.known op)
    | none => .ok (.named s)
  | v =>
    match Reading.integer v with
    | .ok n => .ok (.numbered n)
    | .faulty faults =>
      .faulty (⟨.unknownName, ["str-enum[" ++ kindName ++ "]"]⟩ :: ⟨.notText, ["str"]⟩ ::
        faults.map (Fault.within "int"))

def readComparator : Value → Reading (OperatorId Comparator) :=
  readOperator "ComparisonOperator" Comparator.ofName?

def readConnective : Value → Reading (OperatorId Connective) :=
  readOperator "LogicalOperator" Connective.ofName?

def readLeaf : Value → Reading Condition
  | .obj fields =>
    (Condition.leaf <$> Reading.required fields fieldKey Reading.nonEmptyText
      <*> Reading.required fields operatorKey readComparator
      <*> Reading.optional fields valueKey .null .ok).withFaults
      (Reading.unknownKeyFaults fields leafKeys)
  | _ => Reading.fault .notAModel

/-- A value as a leaf or as a group, whichever fits. -/
def eitherShape (leaf group : Reading Condition) : Reading Condition :=
  match leaf, group with
  | .ok c, _ => .ok c
  | _, .ok c => .ok c
  | .faulty faults, .faulty more =>
    .faulty (faults.map (Fault.within "SimpleCondition") ++
      more.map (Fault.within "ComplexCondition"))

theorem sizeOf_lt_of_find? {key : FieldKey} {fields : Fields} {k : String} {v : Value}
    (h : key.find? fields = some (k, v)) : sizeOf v < sizeOf fields := by
  obtain ⟨s, _, hs⟩ := List.exists_of_findSome?_eq_some h
  obtain ⟨w, hw, he⟩ := Option.map_eq_some_iff.1 hs
  cases he
  have := List.sizeOf_lt_of_mem (Assoc.mem_of_get? hw)
  simp only [Prod.mk.sizeOf_spec] at this
  omega

mutual

def readGroup : Value → Reading Condition
  | .obj fields =>
    let children :=
      match _h : childrenKey.find? fields with
      | some (k, .list items) => (readChildrenFrom 0 items).within k
      | some (k, _) => (Reading.fault .notAList).within k
      | none => .ok []
    (Condition.group <$> Reading.required fields connectiveKey readConnective
      <*> children).withFaults (Reading.unknownKeyFaults fields groupKeys)
  | _ => Reading.fault .notAModel
termination_by v => sizeOf v
decreasing_by
  have := sizeOf_lt_of_find? _h
  simp only [Value.list.sizeOf_spec, Value.obj.sizeOf_spec] at *
  omega

/-- Reads conditions of either shape, the first at the given position. -/
def readChildrenFrom (start : Nat) : List Value → Reading (List Condition)
  | [] => .ok []
  | v :: rest =>
    Reading.ap
      (((eitherShape (readLeaf v) (readGroup v)).within (Text.natText start)).map List.cons)
      (readChildrenFrom (start + 1) rest)
termination_by items => sizeOf items

end

def readEither (v : Value) : Reading Condition := eitherShape (readLeaf v) (readGroup v)

/-- Reads a condition on its own: a group when it has a logical operator, and
otherwise a leaf. -/
def read (v : Value) : Reading Condition :=
  match v with
  | .obj fields =>
    if (connectiveKey.find? fields).isSome then readGroup v else readLeaf v
  | v => readLeaf v

def storedOperator {Known : Type} (name : Known → String) : OperatorId Known → Value
  | .known op => .str (name op)
  | .named s => .str s
  | .numbered n => .int n

mutual

def stored : Condition → Value
  | .leaf field operator value =>
    .obj [("field", .str field), ("operator", storedOperator Comparator.name operator),
      ("value", value)]
  | .group operator children =>
    .obj [("logicalOp", storedOperator Connective.name operator),
      ("conditions", .list (storedAll children))]

def storedAll : List Condition → List Value
  | [] => []
  | c :: rest => c.stored :: storedAll rest

end

/-- Whether a condition reads back from its stored form. -/
def survivesStorage (c : Condition) : Bool := (read c.stored).value? == some c

end Condition

end FormRules
