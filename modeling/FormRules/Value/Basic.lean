import FormRules.Assoc
import FormRules.Double.Basic

/-!
# Field values

The values a form captures and a stored schema holds: the values of JSON, and
a mark for a value that was never captured.  An object is the list of its
fields in the order they were first written, each key once.
-/

namespace FormRules

inductive Value where
  /-- A value that was never captured. -/
  | absent
  | null
  | bool (b : Bool)
  | int (n : Int)
  | float (x : Double)
  | str (s : String)
  | list (items : List Value)
  | obj (fields : List (String × Value))

abbrev Fields := Assoc Value

namespace Value

mutual

def decEq : (a b : Value) → Decidable (a = b)
  | .absent, b => by cases b <;> first | exact .isTrue rfl | exact .isFalse nofun
  | .null, b => by cases b <;> first | exact .isTrue rfl | exact .isFalse nofun
  | .bool x, .bool y => decidable_of_iff (x = y) (by simp)
  | .int x, .int y => decidable_of_iff (x = y) (by simp)
  | .float x, .float y => decidable_of_iff (x = y) (by simp)
  | .str x, .str y => decidable_of_iff (x = y) (by simp)
  | .list x, .list y =>
    match decEqList x y with
    | .isTrue h => .isTrue (by rw [h])
    | .isFalse h => .isFalse (by simpa using h)
  | .obj x, .obj y =>
    match decEqFields x y with
    | .isTrue h => .isTrue (by rw [h])
    | .isFalse h => .isFalse (by simpa using h)
  | .bool _, .absent | .bool _, .null | .bool _, .int _ | .bool _, .float _ | .bool _, .str _
  | .bool _, .list _ | .bool _, .obj _ => .isFalse nofun
  | .int _, .absent | .int _, .null | .int _, .bool _ | .int _, .float _ | .int _, .str _
  | .int _, .list _ | .int _, .obj _ => .isFalse nofun
  | .float _, .absent | .float _, .null | .float _, .bool _ | .float _, .int _ | .float _, .str _
  | .float _, .list _ | .float _, .obj _ => .isFalse nofun
  | .str _, .absent | .str _, .null | .str _, .bool _ | .str _, .int _ | .str _, .float _
  | .str _, .list _ | .str _, .obj _ => .isFalse nofun
  | .list _, .absent | .list _, .null | .list _, .bool _ | .list _, .int _ | .list _, .float _
  | .list _, .str _ | .list _, .obj _ => .isFalse nofun
  | .obj _, .absent | .obj _, .null | .obj _, .bool _ | .obj _, .int _ | .obj _, .float _
  | .obj _, .str _ | .obj _, .list _ => .isFalse nofun

def decEqList : (xs ys : List Value) → Decidable (xs = ys)
  | [], [] => .isTrue rfl
  | [], _ :: _ => .isFalse nofun
  | _ :: _, [] => .isFalse nofun
  | x :: xs, y :: ys =>
    match decEq x y, decEqList xs ys with
    | .isTrue h, .isTrue hs => .isTrue (by rw [h, hs])
    | .isFalse h, _ => .isFalse (by simp [h])
    | _, .isFalse hs => .isFalse (by simp [hs])

def decEqFields : (xs ys : List (String × Value)) → Decidable (xs = ys)
  | [], [] => .isTrue rfl
  | [], _ :: _ => .isFalse nofun
  | _ :: _, [] => .isFalse nofun
  | (k, x) :: xs, (l, y) :: ys =>
    match decEq x y, decEqFields xs ys with
    | .isTrue h, .isTrue hs => decidable_of_iff (k = l) (by simp [h, hs])
    | .isFalse h, _ => .isFalse (by simp [h])
    | _, .isFalse hs => .isFalse (by simp [hs])

end

instance : DecidableEq Value := decEq

instance : Inhabited Value := ⟨.null⟩

/-- Whether there is nothing to compare: never captured, or null. -/
def isMissing : Value → Bool
  | .absent => true
  | .null => true
  | _ => false

/-- The name of a value's type, as messages give it. -/
def typeName : Value → String
  | .absent => "_Absent"
  | .null => "NoneType"
  | .bool _ => "bool"
  | .int _ => "int"
  | .float _ => "float"
  | .str _ => "str"
  | .list _ => "list"
  | .obj _ => "dict"

/-- Whether a value counts as nothing where a label is wanted: missing, false,
zero, or an empty text, list or object. -/
def isVoid : Value → Bool
  | .absent => true
  | .null => true
  | .bool b => !b
  | .int n => n == 0
  | .float (.finite x) => x.units == 0
  | .float _ => false
  | .str s => s.isEmpty
  | .list items => items.isEmpty
  | .obj fields => fields.isEmpty

def asText? : Value → Option String
  | .str s => some s
  | _ => none

def asList? : Value → Option (List Value)
  | .list items => some items
  | _ => none

/-- The text as a value, or null. -/
def ofText? (s : Option String) : Value :=
  match s with
  | some s => .str s
  | none => .null

end Value

end FormRules
