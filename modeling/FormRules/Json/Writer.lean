import FormRules.Double.Shortest
import FormRules.Text.Quoted
import FormRules.Value.Basic

/-!
# Writing JSON

Values are written over several lines, each level two spaces further in, with
every character outside ASCII as an escape.  A value that was never captured
has no written form of its own and stands as null.
-/

namespace FormRules

namespace Json

/-- A number as the four hexadecimal digits of an escape. -/
def unitEscape (n : Nat) : List Char := '\\' :: 'u' :: Text.hexDigits 4 n

def writeChar (c : Char) : List Char :=
  let n := c.toNat
  if c = '"' || c = '\\' then ['\\', c]
  else if c = '\n' then ['\\', 'n']
  else if c = '\r' then ['\\', 'r']
  else if c = '\t' then ['\\', 't']
  else if n = 0x08 then ['\\', 'b']
  else if n = 0x0C then ['\\', 'f']
  else if 0x20 ≤ n && n < 0x7F then [c]
  else if n < 0x10000 then unitEscape n
  else
    unitEscape (0xD800 + (n - 0x10000) / 0x400) ++ unitEscape (0xDC00 + (n - 0x10000) % 0x400)

def writeText (s : String) : String :=
  String.ofList ('"' :: s.toList.flatMap writeChar ++ ['"'])

def writeDouble : Double → String
  | .finite x => x.text
  | .infinite negative => if negative then "-Infinity" else "Infinity"
  | .nan => "NaN"

def newLine (level : Nat) : String := String.ofList ('\n' :: List.replicate (2 * level) ' ')

/-- The parts of a list or object between brackets, one to a line. -/
def bracketed (opening closing : String) (level : Nat) (parts : List String) : String :=
  if parts.isEmpty then opening ++ closing
  else
    opening ++ newLine (level + 1) ++ ("," ++ newLine (level + 1)).intercalate parts ++
      newLine level ++ closing

mutual

def writeAt (level : Nat) : Value → String
  | .absent => "null"
  | .null => "null"
  | .bool b => if b then "true" else "false"
  | .int n => Text.intText n
  | .float x => writeDouble x
  | .str s => writeText s
  | .list items => bracketed "[" "]" level (writeItemsAt (level + 1) items)
  | .obj fields => bracketed "\x7b" "\x7d" level (writeFieldsAt (level + 1) fields)

def writeItemsAt (level : Nat) : List Value → List String
  | [] => []
  | v :: rest => writeAt level v :: writeItemsAt level rest

def writeFieldsAt (level : Nat) : List (String × Value) → List String
  | [] => []
  | (k, v) :: rest => (writeText k ++ ": " ++ writeAt level v) :: writeFieldsAt level rest

end

def write (v : Value) : String := writeAt 0 v

end Json

end FormRules
