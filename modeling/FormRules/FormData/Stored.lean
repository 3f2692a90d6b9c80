import FormRules.FormData.Basic
import FormRules.Reading.Keyed

/-!
# Stored form data

Form data is stored as an object with the modules and the key of the current
one; both may be left out.
-/

namespace FormRules

namespace FormData

def modulesKey : FieldKey := .single "modules"
def currentKey : FieldKey := ⟨"currentModuleKey", ["current_module_key"]⟩

/-- Reads the modules of an object, each an object itself. -/
def readModules : Fields → Reading (Assoc Fields)
  | [] => .ok []
  | (key, v) :: rest =>
    Reading.ap (((Reading.object v).within key).map fun fields modules => (key, fields) :: modules)
      (readModules rest)

def read : Value → Reading FormData
  | .obj fields =>
    FormData.mk <$> Reading.optional fields modulesKey [] (fun v =>
        (Reading.object v).andThen readModules)
      <*> (Reading.nullableField fields currentKey Reading.text).map Value.ofText?
  | _ => Reading.fault .notAModel

def modulesValue (data : FormData) : Value :=
  .obj (data.modules.map fun e => (e.1, .obj e.2))

end FormData

end FormRules
