/-!
# Spellings of a name

Names of operators and actions are recognised in any case and with spaces or
underscores anywhere: `greater_than`, `Greater Than` and `GreaterThan` are one
name.  Two texts are spellings of one name when their keys are equal.
-/

namespace FormRules.Text

/-- The lower-case form of a letter whose lower-case form is an ASCII letter.
Besides the ASCII capitals this is the Kelvin sign. -/
def lowerChar (c : Char) : Char :=
  if c = '\u212A' then 'k' else c.toLower

/-- The lower-case form of a text, as far as it consists of ASCII letters. -/
def lowered (s : String) : String := String.ofList (s.toList.map lowerChar)

/-- What all spellings of a name have in common. -/
def spellingKey (s : String) : String :=
  String.ofList ((s.toList.filter fun c => c != '_' && c != ' ').map lowerChar)

/-- Whether two texts are spellings of one name. -/
def sameName (s t : String) : Bool := spellingKey s == spellingKey t

/-- The upper-case form of a letter whose upper-case form is an ASCII letter.
Besides the ASCII letters these are the dotless i and the long s. -/
def upperChar (c : Char) : Char :=
  if c = '\u0131' then 'I' else if c = '\u017F' then 'S' else c.toUpper

/-- The upper-case form of a text, as far as it consists of ASCII letters. -/
def uppered (s : String) : String := String.ofList (s.toList.map upperChar)

end FormRules.Text
