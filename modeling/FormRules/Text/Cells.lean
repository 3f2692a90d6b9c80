import FormRules.Text.CellTable

/-!
# Cells of a terminal

A terminal shows a text in cells.  Most characters take one, East Asian wide
characters and emoji two, and controls and marks on another character none.
Two characters act on a neighbour: what a zero-width joiner joins takes no room
of its own, and a selector turns a character before it into a wide emoji.
-/

namespace FormRules.Text

def inRanges (ranges : List (Nat × Nat)) (c : Char) : Bool :=
  ranges.any fun r => r.1 ≤ c.toNat && c.toNat ≤ r.2

/-- The cells of one character by itself. -/
def charCells (c : Char) : Nat :=
  if inRanges cellFreeRanges c then 0
  else if inRanges doubleCellRanges c then 2
  else 1

def zeroWidthJoiner : Char := '\u200D'

def emojiSelector : Char := '\uFE0F'

/-- The cells of what follows `base`, the last character that took any. -/
def cellsFrom (base : Option Char) : List Char → Nat
  | [] => 0
  | c :: rest =>
    if c = zeroWidthJoiner then
      match rest with
      | [] => 0
      | _ :: rest => cellsFrom base rest
    else if c = emojiSelector then
      (if base.any (inRanges selectableRanges) then 1 else 0) + cellsFrom none rest
    else charCells c + cellsFrom (if charCells c = 0 then base else some c) rest

def cells (cs : List Char) : Nat := cellsFrom none cs

/-- A line with its tabs written as spaces: at least one, up to the next multiple
of eight cells.  The line is `width` cells wide in front of `part`, which is
held last character first. -/
def expandTabsFrom (width : Nat) (part : List Char) : List Char → List Char
  | [] => part.reverse
  | c :: rest =>
    if c = '\t' then
      let shown := (' ' :: part).reverse
      let stop := width + cells shown
      let spaces := (8 - stop % 8) % 8
      shown ++ List.replicate spaces ' ' ++ expandTabsFrom (stop + spaces) [] rest
    else expandTabsFrom width (c :: part) rest

def expandTabs (cs : List Char) : List Char := expandTabsFrom 0 [] cs

end FormRules.Text
