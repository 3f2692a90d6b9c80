import FormRules.Cli.Markup
import FormRules.Text.Blank
import FormRules.Text.Cells
import FormRules.Text.Lines
import FormRules.Value.Basic

/-!
# Pages

What a command shows: lines, tables and documents, in order.  Lines and cells
are texts with styles.  Control characters that would move the cursor are left
out, and white space at the right end of a line or around a cell does not show.
-/

namespace FormRules

namespace Cli

inductive Block where
  | line (text : String)
  /-- Lines that show as they are. -/
  | verbatim (lines : List String)
  | table (title : String) (header : List String) (rows : List (List String))
  | document (v : Value)

abbrev Page := List Block

/-- Whether a terminal acts on a character instead of showing it. -/
def isCursorControl (c : Char) : Bool :=
  c.toNat == 7 || c.toNat == 8 || c.toNat == 11 || c.toNat == 12 || c.toNat == 13

/-- The lines a text with styles shows as. -/
def shownLines (s : String) : List String :=
  let seen := (withoutStyles s.toList).filter fun c => !isCursorControl c
  (Text.splitLines seen).map fun l => String.ofList (Text.expandTabs l)

/-- The rows a row of a table shows as: cells of several lines take as many. -/
def shownRows (row : List String) : List (List String) :=
  let cells := row.map shownLines
  let height := (cells.map List.length).foldl max 0
  (List.range height).map fun (i : Nat) =>
    cells.map fun ls => Text.trimmed ((ls[i]?).getD "")

/-- What is seen of a page: texts and rows of cells from top to bottom. -/
inductive Shown where
  | text (s : String)
  | cells (row : List String)
deriving DecidableEq

def Block.shown : Block → List Shown
  | .line s => (shownLines s).map fun l => .text (Text.trimmedRight l)
  | .verbatim ls => ls.map fun l => .text (Text.trimmedRight l)
  | .table title header rows =>
    .text title :: .cells header :: (rows.flatMap shownRows).map .cells
  | .document _ => []

namespace Page

/-- What is seen of a page, without empty lines at its end. -/
def shown (page : Page) : List Shown :=
  ((page.flatMap Block.shown).reverse.dropWhile (· == .text "")).reverse

/-- The document on a page, if it shows one. -/
def document? (page : Page) : Option Value :=
  page.findSome? fun
    | .document v => some v
    | _ => none

end Page

end Cli

end FormRules
