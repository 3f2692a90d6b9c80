import FormRules.Hierarchy.Repair

/-!
# Editing lists of nodes

An editor works on a list of nodes by adding, removing and relinking them.  A
parent assigned by hand is taken as it is, blank or unknown ids, flags and
numbers included; a repair in between or at the end clears what does not hold.
Lists and objects are left out: no check or repair could look them up among the
ids.
-/

namespace FormRules

inductive Edit where
  | add (node : Node)
  | remove (id : String)
  | link (id : String) (parent : Value)
  | repair

namespace Edit

/-- Removing takes away every node with the id, relinking only changes the
first one. -/
def apply : Edit → List Node → List Node
  | add node, nodes => nodes ++ [node]
  | remove id, nodes => nodes.filter fun node => node.id != id
  | link id parent, nodes => Nodes.relink nodes id parent
  | repair, nodes => Nodes.repaired nodes

/-- The list that edits lead to, from an empty one. -/
def listAfter (edits : List Edit) : List Node :=
  edits.foldl (fun nodes edit => edit.apply nodes) []

end Edit

end FormRules
