import FormRules.Rule.Basic
import FormRules.Text.Blank
import FormRules.Value.Printing

/-!
# Nodes

A node is the definition of a form field, with a link to its parent, the ids
its formula reads and its rules.  A node remembers the object it was read from,
so that it is written back with every key it came with and only a changed
parent link differs.  Rules that cannot be read do not make a node unreadable;
they are set aside and reported.  Reading leaves an id or nothing as the parent
link.  A link assigned by hand is taken as it is: a text, which alone can lead
to a node, null, a flag or a number.  A list or an object is not among what can
be assigned, since looking it up among the ids is an error of the caller's.
-/

namespace FormRules

structure RejectedRule where
  position : Nat
  /-- The stored id, unless it is void. -/
  id : Option String
  faults : Nat
deriving DecidableEq, Repr

def RejectedRule.text (rule : RejectedRule) : String :=
  let label :=
    match rule.id with
    | some id => "'" ++ id ++ "'"
    | none => "at position " ++ Text.natText rule.position
  "Rule " ++ label ++ " is malformed (" ++ Text.natText rule.faults ++ " error(s))"

structure Node where
  id : String
  /-- The parent link; null for a root. -/
  parent : Value
  /-- The tag of the field's type, such as a section. -/
  type : Option String
  order : Int
  /-- The ids a computed field reads. -/
  dependencies : List String
  rules : List Rule
  payload : Fields
  /-- Stored entries that belong to no field. -/
  extra : Fields
  rejected : List RejectedRule
  /-- The object the node was read from. -/
  source : Fields
  /-- The parent link as it was read. -/
  loadedParent : Value
deriving DecidableEq

namespace Node

def idKey : FieldKey := .single "id"
def parentKey : FieldKey := ⟨"parentId", ["parent_id"]⟩
def typeKey : FieldKey := ⟨"type", ["fieldType", "nodeType", "node_type"]⟩
def orderKey : FieldKey := .single "order"
def dependenciesKey : FieldKey := .single "dependencies"
def rulesKey : FieldKey := ⟨"conditionalRules", ["conditional_rules"]⟩
def payloadKey : FieldKey := .single "payload"

def keys : List FieldKey :=
  [idKey, parentKey, typeKey, orderKey, dependenciesKey, rulesKey, payloadKey]

/-- A blank parent is no parent. -/
def parentOf (parent : Option String) : Option String :=
  parent.filter fun p => !Text.isBlank p

/-- The id a stored rule is named by when it cannot be read. -/
def rejectedId (v : Value) : Option String :=
  match v with
  | .obj fields =>
    match Assoc.get? fields "id" with
    | some id => if id.isVoid then none else some id.plain
    | none => none
  | _ => none

/-- Reads the rules of a list from a position on: the readable ones, and what
is known of the others. -/
def readRulesFrom (defaultPriority : Reading Int) (start : Nat) :
    List Value → List Rule × List RejectedRule
  | [] => ([], [])
  | v :: rest =>
    let (kept, rejected) := readRulesFrom defaultPriority (start + 1) rest
    match Rule.read defaultPriority v with
    | .ok rule => (rule :: kept, rejected)
    | .faulty faults => (kept, ⟨start, rejectedId v, faults.length⟩ :: rejected)

/-- Reads the rules of a node; only a value that is no list is a fault. -/
def readRules (defaultPriority : Reading Int) (fields : Fields) :
    Reading (List Rule × List RejectedRule) :=
  match rulesKey.find? fields with
  | some (_, .list items) => .ok (readRulesFrom defaultPriority 0 items)
  | some (k, _) => .faulty [⟨.notAList, [k]⟩]
  | none => .ok ([], [])

def ofRead (fields : Fields) (id : String) (parent : Option String) (type : Option String)
    (order : Int) (dependencies : List String) (rules : List Rule × List RejectedRule)
    (payload : Fields) : Node where
  id := id
  parent := Value.ofText? (parentOf parent)
  type := type
  order := order
  dependencies := dependencies
  rules := rules.1
  payload := payload
  extra := Reading.unknownEntries fields keys
  rejected := rules.2
  source := fields
  loadedParent := Value.ofText? (parentOf parent)

def read (defaultPriority : Reading Int) : Value → Reading Node
  | .obj fields =>
    ofRead fields <$> Reading.required fields idKey Reading.text
      <*> Reading.nullableField fields parentKey Reading.text
      <*> Reading.nullableField fields typeKey Reading.text
      <*> Reading.optional fields orderKey 0 Reading.integer
      <*> Reading.optional fields dependenciesKey [] Reading.texts
      <*> readRules defaultPriority fields
      <*> Reading.optional fields payloadKey [] Reading.object
  | _ => Reading.fault .notAModel

/-- Links a node to another parent, which is taken as it is; lists and objects
are no parents. -/
def setParent (node : Node) (parent : Value) : Node := { node with parent := parent }

/-- The id a node names as its parent. -/
def parentId? (node : Node) : Option String := node.parent.asText?

/-- The text of a parent link that leads to none of the ids.  The last case is
that of a flag or a number assigned by hand. -/
def strayParent? (ids : List String) (node : Node) : Option String :=
  match node.parent with
  | .null => none
  | .str id => if ids.contains id then none else some id
  | v => some v.plain

/-- The keys of entries, in order. -/
def sortedKeys (entries : Fields) : List String :=
  (Assoc.keys entries).mergeSort fun a b => decide (a ≤ b)

def extraKeys (node : Node) : List String := sortedKeys node.extra

/-- The key under which an object holds its parent link. -/
def storedParentKey (source : Fields) : String :=
  (parentKey.find? source).elim parentKey.preferred (·.1)

/-- The node as it is stored: the object it was read from, with its parent link
changed if the node's has. -/
def schema (node : Node) : Fields :=
  if node.parent = node.loadedParent then node.source
  else node.source.set (storedParentKey node.source) node.parent

end Node

namespace Nodes

/-- Links the first node with an id to another parent. -/
def relink (nodes : List Node) (id : String) (parent : Value) : List Node :=
  match nodes with
  | [] => []
  | node :: rest =>
    if node.id = id then node.setParent parent :: rest else node :: relink rest id parent

end Nodes

end FormRules
