/-!
# Log records

What is noted while rules are evaluated and hierarchies repaired.  Functions
that only compute stay free of records; the operations offered to callers pair
their result with the records made on the way.
-/

namespace FormRules

inductive Level where
  | debug
  | info
  | warning
  | error
deriving DecidableEq, Repr

namespace Level

def name : Level → String
  | .debug => "DEBUG"
  | .info => "INFO"
  | .warning => "WARNING"
  | .error => "ERROR"

end Level

/-- The part of the program a record comes from. -/
inductive Component where
  | conditions
  | engine
  | hierarchy
deriving DecidableEq, Repr

def Component.name : Component → String
  | .conditions => "formlogic.core.rules.conditions"
  | .engine => "formlogic.core.rules.engine"
  | .hierarchy => "formlogic.core.hierarchy.service"

structure LogRecord where
  level : Level
  component : Component
  message : String
deriving DecidableEq, Repr

def LogRecord.text (r : LogRecord) : String :=
  r.level.name ++ " " ++ r.component.name ++ ": " ++ r.message

/-- A result and the records made while computing it. -/
structure Logged (α : Type) where
  value : α
  log : List LogRecord

namespace Logged

variable {α β : Type}

def map (f : α → β) (a : Logged α) : Logged β := ⟨f a.value, a.log⟩

/-- Goes on with a result, keeping the records made so far in front. -/
def andThen (a : Logged α) (f : α → Logged β) : Logged β :=
  let b := f a.value
  ⟨b.value, a.log ++ b.log⟩

instance : Monad Logged where
  pure a := ⟨a, []⟩
  bind := andThen
  map := map

end Logged

end FormRules
