import FormRules.Text.Blank

/-!
# Field references

A condition names a field either alone or with the module it belongs to, as
`module.field`.  The module ends at the first dot, so a field name may hold
further dots; a reference that begins with a dot, or whose only dot ends it,
names no module.
-/

namespace FormRules

structure Reference where
  module : Option String
  field : String
deriving DecidableEq, Repr

namespace Reference

/-- Splits the characters of a reference at the first dot. -/
def splitChars (cs : List Char) : Option (List Char × List Char) :=
  match cs.span (· != '.') with
  | (before, _ :: after) =>
    if before.isEmpty || after.isEmpty then none else some (before, after)
  | _ => none

/-- A text that is not blank, taken as a reference. -/
def ofText (s : String) : Reference :=
  match splitChars s.toList with
  | some (before, after) => ⟨some (String.ofList before), String.ofList after⟩
  | none => ⟨none, s⟩

/-- Reads a reference; a blank text is none. -/
def read? (s : String) : Option Reference :=
  if Text.isBlank s then none else some (ofText s)

/-- What is said of a blank reference. -/
def blankMessage : String := "Field reference cannot be null or empty"

theorem read?_eq_none_iff {s : String} : read? s = none ↔ Text.isBlank s = true := by
  unfold read?
  split <;> simp_all

end Reference

end FormRules
