import FormRules.Hierarchy.Node

/-!
# Drafts of nodes

A node put together by hand instead of read from a stored object.  Its fields
are given under any spelling of their keys and taken as they are, whatever their
type.  A draft is written out with the fields that were given, each under the
preferred spelling, and the entries that belong to no field.
-/

namespace FormRules

structure Draft where
  /-- The fields that were given, under the preferred spelling of their keys. -/
  given : Fields
  /-- The entries that belong to no field. -/
  extra : Fields
deriving DecidableEq

namespace Draft

def ofFields (fields : Fields) : Draft where
  given := Node.keys.filterMap fun key => (key.find? fields).map fun e => (key.preferred, e.2)
  extra := Reading.unknownEntries fields Node.keys

/-- The value of a field, or what it has when it was not given. -/
def field (draft : Draft) (key : FieldKey) (default : Value) : Value :=
  (draft.given.get? key.preferred).getD default

def id (draft : Draft) : Value := draft.field Node.idKey .null

def parent (draft : Draft) : Value := draft.field Node.parentKey .null

def type (draft : Draft) : Value := draft.field Node.typeKey .null

def order (draft : Draft) : Value := draft.field Node.orderKey (.int 0)

def dependencies (draft : Draft) : Value := draft.field Node.dependenciesKey (.list [])

def payload (draft : Draft) : Value := draft.field Node.payloadKey (.obj [])

def setParent (draft : Draft) (parent : Value) : Draft :=
  { draft with given := draft.given.set Node.parentKey.preferred parent }

def extraKeys (draft : Draft) : List String := Node.sortedKeys draft.extra

def schema (draft : Draft) : Fields := draft.given ++ draft.extra

end Draft

end FormRules
