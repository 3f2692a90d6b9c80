import FormRules.FormData.Basic

/-!
# Changes to captured data

While a form is filled in, fields are written and the user goes from module to
module.  A field is written in the module that is named with it, whatever the
current one is, and any value may be written, null included.
-/

namespace FormRules

namespace FormData

inductive Change where
  | write (module field : String) (value : Value)
  /-- Another module becomes the current one, or none if it is null.  A list or
  an object could not be looked up afterwards. -/
  | enter (module : Value)

def Change.apply : Change → FormData → FormData
  | write module field value, data => data.set module field value
  | enter module, data => data.setCurrent module

/-- The data that changes lead to, one after another. -/
def after (data : FormData) (changes : List Change) : FormData :=
  changes.foldl (fun data change => change.apply data) data

end FormData

end FormRules
