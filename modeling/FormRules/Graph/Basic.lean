import FormRules.Assoc

/-!
# Graphs of links

A graph lists, for each id, the ids it points to; a link may be empty, and ids
that are not listed point nowhere.  Parent links, formula dependencies and
next steps of a workflow are graphs of this kind.
-/

namespace FormRules

abbrev Graph := Assoc (List (Option String))

namespace Graph

/-- The ids an id points to, empty links left out. -/
def successors (g : Graph) (id : String) : List String :=
  ((Assoc.get? g id).getD []).filterMap fun link => link

/-- The links of an id that has a parent; an empty parent is no link. -/
def parentLinks : Option String → List (Option String)
  | some parent => if parent.isEmpty then [] else [some parent]
  | none => []

def ofParents (parents : Assoc (Option String)) : Graph :=
  parents.map fun e => (e.1, parentLinks e.2)

def ofLists (lists : Assoc (List String)) : Graph :=
  lists.map fun e => (e.1, e.2.map some)

theorem length_successors_le (g : Graph) (id : String) :
    (g.successors id).length ≤ ((Assoc.get? g id).getD []).length :=
  List.length_filterMap_le _ _

end Graph

end FormRules
