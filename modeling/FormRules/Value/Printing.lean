import FormRules.Double.Shortest
import FormRules.Text.Quoted
import FormRules.Value.Basic

/-!
# Printed values

`Value.shown` is a value as it stands inside another one or in a description:
texts are quoted, lists and objects show their parts in the same way.
`Value.plain` differs for texts alone, which it gives as they are.
-/

namespace FormRules

namespace Value

mutual

def shown : Value → String
  | .absent => "ABSENT"
  | .null => "None"
  | .bool b => if b then "True" else "False"
  | .int n => Text.intText n
  | .float x => x.text
  | .str s => Text.quoted s
  | .list items => "[" ++ ", ".intercalate (shownItems items) ++ "]"
  | .obj fields => "\x7b" ++ ", ".intercalate (shownFields fields) ++ "\x7d"

def shownItems : List Value → List String
  | [] => []
  | v :: rest => v.shown :: shownItems rest

def shownFields : List (String × Value) → List String
  | [] => []
  | (k, v) :: rest => (Text.quoted k ++ ": " ++ v.shown) :: shownFields rest

end

/-- A value as text of its own. -/
def plain : Value → String
  | .str s => s
  | v => v.shown

theorem shownItems_eq_map (items : List Value) : shownItems items = items.map shown := by
  induction items with
  | nil => rfl
  | cons v rest ih => simp [shownItems, ih]

end Value

end FormRules
