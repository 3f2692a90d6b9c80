/-!
# White space

Two readings of white space meet in stored forms.  A text is *blank* when it
holds nothing but white space in the wide sense, which adds the four
information separators U+001C to U+001F to the characters of the Unicode
property.  Numbers written as text are trimmed by the property alone.
-/

namespace FormRules.Text

/-- White space by the Unicode property `White_Space`. -/
def isUnicodeSpace (c : Char) : Bool :=
  let n := c.toNat
  (0x09 ≤ n && n ≤ 0x0D) || n == 0x20 || n == 0x85 || n == 0xA0 || n == 0x1680 ||
    (0x2000 ≤ n && n ≤ 0x200A) || n == 0x2028 || n == 0x2029 || n == 0x202F ||
    n == 0x205F || n == 0x3000

/-- White space in the wide sense: the Unicode property and the information
separators. -/
def isSpace (c : Char) : Bool :=
  isUnicodeSpace c || (0x1C ≤ c.toNat && c.toNat ≤ 0x1F)

/-- Drops the characters of a class from both ends. -/
def trimChars (p : Char → Bool) (cs : List Char) : List Char :=
  ((cs.dropWhile p).reverse.dropWhile p).reverse

/-- Drops the characters of a class from the right end. -/
def trimRightChars (p : Char → Bool) (cs : List Char) : List Char :=
  (cs.reverse.dropWhile p).reverse

/-- The text without white space at either end. -/
def trimmed (s : String) : String :=
  String.ofList (trimChars isSpace s.toList)

def trimmedRight (s : String) : String :=
  String.ofList (trimRightChars isSpace s.toList)

/-- Whether a text holds nothing but white space; the empty text is blank. -/
def isBlank (s : String) : Bool :=
  s.toList.all isSpace

theorem isBlank_empty : isBlank "" = true := rfl

theorem ne_empty_of_not_blank {s : String} (h : isBlank s = false) : s ≠ "" := by
  rintro rfl
  simp [isBlank_empty] at h

end FormRules.Text
