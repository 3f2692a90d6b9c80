/-!
# Parts of a text

Whether a text holds another one, begins with it or ends with it, decided on
the characters.
-/

namespace FormRules.Text

/-- Whether `needle` stands somewhere in `hay`. -/
def holdsChars (needle : List Char) : List Char → Bool
  | [] => needle.isEmpty
  | c :: cs => needle.isPrefixOf (c :: cs) || holdsChars needle cs

def holds (hay needle : String) : Bool := holdsChars needle.toList hay.toList

def beginsWith (hay needle : String) : Bool := needle.toList.isPrefixOf hay.toList

def endsWith (hay needle : String) : Bool := needle.toList.isSuffixOf hay.toList

theorem holdsChars_iff {needle hay : List Char} :
    holdsChars needle hay = true ↔ needle <:+: hay := by
  induction hay with
  | nil => simp [holdsChars]
  | cons c cs ih =>
    simp [holdsChars, ih, List.infix_cons_iff, List.isPrefixOf_iff_prefix]

end FormRules.Text
