import FormRules.Assoc
import FormRules.Text.Digit

/-!
# Reading stored data

Reading a stored value gives either what it stands for or all of its faults,
each with the place it is found at.  Two readings that are put together keep
the faults of both, so nothing is reported one at a time.
-/

namespace FormRules

inductive FaultKind where
  | notAModel
  | missing
  | unknownKey
  | notText
  | textTooShort
  | notAList
  | notAnObject
  | notAnInteger
  | notANumeral
  | fraction
  | notFinite
  | outOfRange
  | tooSmall
  | notAFlagWord
  | notAFlag
  | unknownName
deriving DecidableEq, Repr

/-- The code a kind of fault is reported by. -/
def FaultKind.code : FaultKind → String
  | notAModel => "model_type"
  | missing => "missing"
  | unknownKey => "extra_forbidden"
  | notText => "string_type"
  | textTooShort => "string_too_short"
  | notAList => "list_type"
  | notAnObject => "dict_type"
  | notAnInteger => "int_type"
  | notANumeral => "int_parsing"
  | fraction => "int_from_float"
  | notFinite => "finite_number"
  | outOfRange => "int_parsing_size"
  | tooSmall => "greater_than_equal"
  | notAFlagWord => "bool_parsing"
  | notAFlag => "bool_type"
  | unknownName => "enum"

/-- A fault and the keys and positions that lead to it. -/
structure Fault where
  kind : FaultKind
  place : List String
deriving DecidableEq, Repr

def Fault.text (fault : Fault) : String :=
  fault.kind.code ++ "@" ++ "/".intercalate fault.place

/-- The same fault, seen from one step further out. -/
def Fault.within (step : String) (fault : Fault) : Fault :=
  { fault with place := step :: fault.place }

/-- What a stored value stands for, or its faults. -/
inductive Reading (α : Type) where
  | ok (value : α)
  | faulty (faults : List Fault)

namespace Reading

variable {α β : Type}

def fault (kind : FaultKind) : Reading α := .faulty [⟨kind, []⟩]

def map (f : α → β) : Reading α → Reading β
  | .ok a => .ok (f a)
  | .faulty faults => .faulty faults

/-- Applies a read function to a read argument; the faults of both are kept. -/
def ap (f : Reading (α → β)) (a : Reading α) : Reading β :=
  match f, a with
  | .ok f, .ok a => .ok (f a)
  | .ok _, .faulty faults => .faulty faults
  | .faulty faults, .ok _ => .faulty faults
  | .faulty faults, .faulty more => .faulty (faults ++ more)

instance : Functor Reading where
  map := map

instance : Applicative Reading where
  pure := .ok
  seq f a := ap f (a ())

def andThen (a : Reading α) (f : α → Reading β) : Reading β :=
  match a with
  | .ok a => f a
  | .faulty faults => .faulty faults

def faults : Reading α → List Fault
  | .ok _ => []
  | .faulty faults => faults

def value? : Reading α → Option α
  | .ok a => some a
  | .faulty _ => none

/-- The same reading, its faults seen from one step further out. -/
def within (step : String) : Reading α → Reading α
  | .ok a => .ok a
  | .faulty faults => .faulty (faults.map (Fault.within step))

def withFaults (a : Reading α) (more : List Fault) : Reading α :=
  if more.isEmpty then a else .faulty (a.faults ++ more)

/-- Reads every element of a list, each at its position from `start` on. -/
def eachFrom (read : β → Reading α) (start : Nat) : List β → Reading (List α)
  | [] => .ok []
  | b :: rest =>
    ap (map List.cons ((read b).within (Text.natText start))) (eachFrom read (start + 1) rest)

/-- Reads every element of a list at its position. -/
def each (read : β → Reading α) (bs : List β) : Reading (List α) := eachFrom read 0 bs

/-- The faults of a failed reading as they are reported: sorted by their
text. -/
def report (faults : List Fault) : List String :=
  (faults.map Fault.text).mergeSort fun a b => decide (a ≤ b)

@[simp] theorem map_ok (f : α → β) (a : α) : map f (.ok a) = .ok (f a) := rfl

@[simp] theorem map_faulty (f : α → β) (fs : List Fault) : map f (.faulty fs) = .faulty fs := rfl

@[simp] theorem within_ok (step : String) (a : α) : within step (.ok a) = .ok a := rfl

theorem ap_eq_ok_iff {f : Reading (α → β)} {a : Reading α} {b : β} :
    ap f a = .ok b ↔ ∃ g x, f = .ok g ∧ a = .ok x ∧ b = g x := by
  cases f <;> cases a <;> simp [ap, eq_comm]

theorem seq_eq_ok_iff {f : Reading (α → β)} {a : Reading α} {b : β} :
    f <*> a = .ok b ↔ ∃ g x, f = .ok g ∧ a = .ok x ∧ b = g x := ap_eq_ok_iff

theorem functorMap_eq_ok_iff {f : α → β} {a : Reading α} {b : β} :
    f <$> a = .ok b ↔ ∃ x, a = .ok x ∧ b = f x := by
  cases a <;> simp [Functor.map, eq_comm]

end Reading

end FormRules
