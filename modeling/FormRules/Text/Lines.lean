/-!
# Lines of text

Texts from files may begin with a byte order mark, and end their lines with a
line feed, a carriage return or both; they are worked on with line feeds alone.
-/

namespace FormRules.Text

/-- Line breaks of every kind as one character. -/
def unifyLineBreaks : List Char → List Char
  | '\r' :: '\n' :: rest => '\n' :: unifyLineBreaks rest
  | '\r' :: rest => '\n' :: unifyLineBreaks rest
  | c :: rest => c :: unifyLineBreaks rest
  | [] => []

/-- A text split at its line feeds; there is always at least one line. -/
def splitLines : List Char → List (List Char)
  | [] => [[]]
  | c :: rest =>
    match splitLines rest with
    | [] => [[c]]
    | l :: ls => if c = '\n' then [] :: l :: ls else (c :: l) :: ls

/-- A text without the byte order mark that may stand in front of it. -/
def withoutByteOrderMark : List Char → List Char
  | '\uFEFF' :: rest => rest
  | cs => cs

end FormRules.Text
