import FormRules.Text.FoldTable

/-!
# Case folding

Texts are compared without regard to case through their full case folding:
each character is replaced by its folded form, which may be longer (`ß` folds
to `ss`).  Folding works character by character, so it distributes over
concatenation; every law about matches that survive folding rests on that.
-/

namespace FormRules.Text

/-- The folded form of one character. -/
def foldChar (c : Char) : List Char :=
  match foldRuns.findSome? (·.foldedCode? c.toNat) with
  | some n => [Char.ofNat n]
  | none =>
    match expandingFolds.lookup c.toNat with
    | some ns => ns.map Char.ofNat
    | none => [c]

def foldChars (cs : List Char) : List Char := cs.flatMap foldChar

/-- The full case folding of a text. -/
def folded (s : String) : String := String.ofList (foldChars s.toList)

@[simp] theorem foldChars_append (as bs : List Char) :
    foldChars (as ++ bs) = foldChars as ++ foldChars bs := by
  simp [foldChars]

@[simp] theorem toList_folded (s : String) : (folded s).toList = foldChars s.toList := by
  simp [folded]

end FormRules.Text
