import FormRules.Reading.Scalar

/-!
# Reading the fields of an object

A field may be stored under one of several spellings of its key.  The first
spelling that is present is read; entries under the others count as unknown,
like any key that belongs to no field.
-/

namespace FormRules

/-- The keys a field may be stored under, the preferred one first. -/
structure FieldKey where
  preferred : String
  others : List String

namespace FieldKey

def spellings (key : FieldKey) : List String := key.preferred :: key.others

def single (name : String) : FieldKey := ⟨name, []⟩

/-- The entry that is read for a field. -/
def find? (key : FieldKey) (fields : Fields) : Option (String × Value) :=
  fields.first? key.spellings

end FieldKey

namespace Reading

variable {α : Type}

/-- A field that has to be there. -/
def required (fields : Fields) (key : FieldKey) (read : Value → Reading α) : Reading α :=
  match key.find? fields with
  | some (k, v) => (read v).within k
  | none => .faulty [⟨.missing, [key.preferred]⟩]

/-- A field that stands for a default when it is not there. -/
def optional (fields : Fields) (key : FieldKey) (default : α) (read : Value → Reading α) :
    Reading α :=
  match key.find? fields with
  | some (k, v) => (read v).within k
  | none => .ok default

/-- A field that may be missing or null. -/
def nullableField (fields : Fields) (key : FieldKey) (read : Value → Reading α) :
    Reading (Option α) :=
  optional fields key none (nullable read)

/-- The entries that are read for no field. -/
def unknownEntries (fields : Fields) (keys : List FieldKey) : Fields :=
  fields.without (keys.filterMap fun key => (key.find? fields).map (·.1))

/-- A fault for every entry that is read for no field. -/
def unknownKeyFaults (fields : Fields) (keys : List FieldKey) : List Fault :=
  (unknownEntries fields keys).map fun e => ⟨.unknownKey, [e.1]⟩

end Reading

end FormRules
