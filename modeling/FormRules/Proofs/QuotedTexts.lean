import FormRules.Json.Reader
import FormRules.Text.Quoted
import Mathlib.Data.Nat.Digits.Defs

/-!
# Quoted texts can be read

What stands between the quotes is a row of characters and escapes.  Each of them
says by itself which character it is and where it ends, and none of them starts
with the quote in use.  So a quoted text says where it ends, and different texts are
quoted differently, whatever follows them.
-/

namespace FormRules.Text

/-! ## Escapes by a number -/

/-- The number that hexadecimal digits write. -/
def hexNumber (cs : List Char) : Nat :=
  cs.foldl (fun n c => 16 * n + (Json.hexValue? c).getD 0) 0

theorem hexValue?_digitChar : ∀ d < 16, Json.hexValue? (Nat.digitChar d) = some d := by decide

theorem hexNumber_toDigits (n : Nat) : hexNumber (Nat.toDigits 16 n) = n := by
  induction n using Nat.strongRecOn with
  | ind n ih =>
      by_cases hsmall : n < 16
      · rw [Nat.toDigits_of_lt_base hsmall]
        simp [hexNumber, hexValue?_digitChar n hsmall]
      · have hlast := hexValue?_digitChar (n % 16) (Nat.mod_lt n (by decide))
        have hfront := ih (n / 16) (by omega)
        rw [hexNumber] at hfront
        rw [Nat.toDigits_of_base_le (by decide) (Nat.le_of_not_lt hsmall), hexNumber,
          List.foldl_append, hfront]
        simp only [List.foldl_cons, List.foldl_nil, hlast, Option.getD_some]
        omega

theorem hexNumber_hexDigits (width n : Nat) : hexNumber (hexDigits width n) = n := by
  have hzeros : ∀ k, (List.replicate k '0').foldl
      (fun n c => 16 * n + (Json.hexValue? c).getD 0) 0 = 0 := by
    intro k
    induction k with
    | zero => rfl
    | succ k ih => simpa [List.replicate_succ, Json.hexValue?] using ih
  rw [hexDigits, hexNumber, List.foldl_append, hzeros]
  exact hexNumber_toDigits n

theorem length_hexDigits {width n : Nat} (hwidth : 0 < width) (h : n < 16 ^ width) :
    (hexDigits width n).length = width := by
  have hlength : (Nat.toDigits 16 n).length ≤ width := Nat.toDigits_length 16 n width hwidth h
  rw [hexDigits, List.length_append, List.length_replicate]
  omega

/-! ## Reading one character -/

/-- The character with the number that the first `width` digits write. -/
def readNumbered (width : Nat) (cs : List Char) : Char × List Char :=
  (Char.ofNat (hexNumber (cs.take width)), cs.drop width)

/-- What an escape stands for, given the character after the backslash. -/
def readEscape (kind : Char) (cs : List Char) : Char × List Char :=
  if kind = 'n' then ('\n', cs)
  else if kind = 'r' then ('\r', cs)
  else if kind = 't' then ('\t', cs)
  else if kind = 'x' then readNumbered 2 cs
  else if kind = 'u' then readNumbered 4 cs
  else if kind = 'U' then readNumbered 8 cs
  else (kind, cs)

/-- The first character of a text between quotes, and what follows it. -/
def readQuoted? : List Char → Option (Char × List Char)
  | [] => none
  | c :: cs => if c = '\\' then cs.head?.map fun kind => readEscape kind cs.tail else some (c, cs)

theorem readNumbered_hexDigits {width : Nat} {c : Char} (hwidth : 0 < width)
    (h : c.toNat < 16 ^ width) (s : List Char) :
    readNumbered width (hexDigits width c.toNat ++ s) = (c, s) := by
  have hlength := length_hexDigits hwidth h
  rw [readNumbered, List.take_left' hlength, List.drop_left' hlength, hexNumber_hexDigits,
    Char.ofNat_toNat]

theorem readQuoted?_numberEscape (c : Char) (s : List Char) :
    readQuoted? (numberEscape c ++ s) = some (c, s) := by
  have hvalid : c.toNat < 16 ^ 8 := by
    have hsize : c.toNat < 0x110000 := by
      rcases c.valid with hlow | hhigh
      · exact hlow.trans (by decide)
      · exact hhigh.2
    omega
  simp only [numberEscape]
  split
  · rename_i hsmall
    exact congrArg some (readNumbered_hexDigits (by decide) hsmall s)
  · split
    · rename_i hmiddle
      exact congrArg some (readNumbered_hexDigits (by decide) hmiddle s)
    · exact congrArg some (readNumbered_hexDigits (by decide) hvalid s)

section Quote

variable {quote : Char} (hquote : quote = '\'' ∨ quote = '"')

include hquote

theorem quote_ne_backslash : quote ≠ '\\' := by
  rcases hquote with hsingle | hdouble
  · rw [hsingle]
    decide
  · rw [hdouble]
    decide

theorem readEscape_quote (s : List Char) : readEscape quote s = (quote, s) := by
  rcases hquote with hsingle | hdouble
  · rw [hsingle]
    rfl
  · rw [hdouble]
    rfl

/-- Each character of a quoted text can be read back, escaped or not. -/
theorem readQuoted?_quoteChar (c : Char) (s : List Char) :
    readQuoted? (quoteChar quote c ++ s) = some (c, s) := by
  unfold quoteChar
  split
  · rename_i hescaped
    simp only [Bool.or_eq_true, decide_eq_true_eq] at hescaped
    rcases hescaped with heq | heq
    · rw [heq]
      exact congrArg some (readEscape_quote hquote s)
    · rw [heq]
      rfl
  · rename_i hplain
    have hbackslash : c ≠ '\\' := by
      rintro rfl
      simp at hplain
    -- The letters of line breaks and tabs, then characters shown as they are or by number.
    split
    · rename_i heq
      rw [heq]
      rfl
    · split
      · rename_i heq
        rw [heq]
        rfl
      · split
        · rename_i heq
          rw [heq]
          rfl
        · split
          · exact if_neg hbackslash
          · exact readQuoted?_numberEscape c s

/-- The closing quote starts no character of the text. -/
theorem quote_cons_ne_quoteChar (c : Char) (s t : List Char) :
    quote :: s ≠ quoteChar quote c ++ t := by
  have hbackslash := quote_ne_backslash hquote
  intro h
  have hread := readQuoted?_quoteChar hquote c t
  rw [← h] at hread
  have hsame : quote = c := by
    have hpair := (if_neg hbackslash).symm.trans hread
    exact congrArg Prod.fst (Option.some.inj hpair)
  rw [← hsame, quoteChar, if_pos (by simp)] at h
  exact hbackslash (List.cons.inj h).1

/-- The characters of a quoted text end at its quote and nowhere before. -/
theorem quotedChars_append_inj {cs ds s t : List Char}
    (h : cs.flatMap (quoteChar quote) ++ quote :: s = ds.flatMap (quoteChar quote) ++ quote :: t) :
    cs = ds ∧ s = t := by
  induction cs generalizing ds with
  | nil =>
      cases ds with
      | nil => exact ⟨rfl, (List.cons.inj h).2⟩
      | cons d ds =>
          rw [List.flatMap_cons, List.append_assoc] at h
          exact absurd h (quote_cons_ne_quoteChar hquote d _ _)
  | cons c cs ih =>
      cases ds with
      | nil =>
          rw [List.flatMap_cons, List.append_assoc] at h
          exact absurd h.symm (quote_cons_ne_quoteChar hquote c _ _)
      | cons d ds =>
          rw [List.flatMap_cons, List.flatMap_cons, List.append_assoc, List.append_assoc] at h
          have hread := congrArg readQuoted? h
          rw [readQuoted?_quoteChar hquote, readQuoted?_quoteChar hquote] at hread
          rcases Prod.mk.inj (Option.some.inj hread) with ⟨hchar, hrest⟩
          rcases ih hrest with ⟨htexts, hend⟩
          exact ⟨by rw [hchar, htexts], hend⟩

end Quote

/-! ## Quoted texts -/

theorem quoteFor_cases (cs : List Char) : quoteFor cs = '\'' ∨ quoteFor cs = '"' := by
  unfold quoteFor
  split
  · exact .inr rfl
  · exact .inl rfl

theorem toList_quoted (s : String) :
    (quoted s).toList = quoteFor s.toList ::
      (s.toList.flatMap (quoteChar (quoteFor s.toList)) ++ [quoteFor s.toList]) := by
  rw [quoted, String.toList_ofList]
  rfl

/-- A quoted text says where it ends. -/
theorem quoted_append_inj {a b : String} {s t : List Char}
    (h : (quoted a).toList ++ s = (quoted b).toList ++ t) : a = b ∧ s = t := by
  rw [toList_quoted, toList_quoted, List.cons_append, List.cons_append] at h
  rcases List.cons.inj h with ⟨hquote, hrest⟩
  rw [← hquote, List.append_assoc, List.append_assoc] at hrest
  rcases quotedChars_append_inj (quoteFor_cases a.toList) hrest with ⟨hchars, hend⟩
  exact ⟨String.toList_inj.mp hchars, hend⟩

end FormRules.Text
