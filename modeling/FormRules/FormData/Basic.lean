import FormRules.Reference
import FormRules.Value.Basic

/-!
# Captured form data

The values a form has captured, by module and field, and the module the user
is in.  A reference without a module is looked up in the current module, or in
the default one when there is no current module.  Read or given by key, the
current module is a text or null.  Assigned by hand it may also be a flag or a
number, which leads to no module unless it is void.  A list or an object with
something in it can be the name of nothing, not even of a missing module, so
looking it up is an error of the caller's; such values are left out here.  A
stored null counts as never captured.
-/

namespace FormRules

structure FormData where
  modules : Assoc Fields
  /-- The module that references without a module are looked up in, or null. -/
  current : Value

namespace FormData

def empty : FormData := ⟨[], .null⟩

/-- The data of one module, which becomes the current one. -/
def ofModule (module : String) (fields : Fields) : FormData :=
  ⟨[(module, fields)], .str module⟩

/-- Where references without a module are looked up; a current module that is
no list and no object is assumed. -/
def effectiveModule? (data : FormData) (defaultModule : String) : Option String :=
  if data.current.isVoid then some defaultModule else data.current.asText?

/-- Whether a look-up that names this module, or none, has to be told the
default one. -/
def needsDefaultModule (data : FormData) (module : Option String) : Bool :=
  module.isNone && data.current.isVoid

def valueAt (data : FormData) (module field : String) : Value :=
  match (data.modules.get? module).bind fun fields => Assoc.get? fields field with
  | some .null => .absent
  | some v => v
  | none => .absent

/-- The value of a field of a module, or of the current one. -/
def value (data : FormData) (defaultModule : String) (module : Option String)
    (field : String) : Value :=
  ((module <|> data.effectiveModule? defaultModule).map (data.valueAt · field)).getD .absent

def resolve (data : FormData) (defaultModule : String) (reference : Reference) : Value :=
  data.value defaultModule reference.module reference.field

/-- Writes a field of a module; a new module is added at the end. -/
def set (data : FormData) (module field : String) (value : Value) : FormData :=
  let fields : Fields := (data.modules.get? module).getD []
  { data with modules := data.modules.set module (fields.set field value) }

/-- Makes a module the current one, or none if it is null; lists and objects
are no modules. -/
def setCurrent (data : FormData) (module : Value) : FormData :=
  { data with current := module }

def hasModule (data : FormData) (module : String) : Bool := data.modules.has module

def moduleKeys (data : FormData) : List String :=
  data.modules.keys.mergeSort fun a b => decide (a ≤ b)

def module? (data : FormData) (module : String) : Option Fields := data.modules.get? module

end FormData

end FormRules
