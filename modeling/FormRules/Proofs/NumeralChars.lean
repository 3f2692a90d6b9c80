import FormRules.Value.Comparison
import Mathlib.Data.List.TakeWhile
import Mathlib.Tactic

/-!
# The characters of numerals

A text that stands for a number holds digits, signs, points, `_`, the letters of
an exponent and white space, and no other character.  Case folding leaves these
characters alone, up to the letter of an exponent, which is read in both cases,
and it makes none of them out of another character.  So a text stands for a
number exactly when its folding does.
-/

namespace FormRules

namespace Text

theorem digit?_eq_some_iff {c : Char} {d : Nat} :
    digit? c = some d ↔ ∃ z, (digitZeros.find? fun z => z ≤ c.toNat && c.toNat ≤ z + 9) = some z ∧
      c.toNat - z = d := by
  unfold digit?
  exact Option.map_eq_some_iff

/-! ## Digits at the start of a text -/

theorem takeDigits_cons {c : Char} {d : Nat} {cs : List Char} (hd : digit? c = some d)
    (hcs : ∀ c' rest, cs ≠ '_' :: c' :: rest) :
    takeDigits digit? (c :: cs) =
      (d :: (takeDigits digit? cs).1, (takeDigits digit? cs).2) := by
  conv_lhs => rw [takeDigits]
  simp only [hd]

theorem takeDigits_split (cs : List Char) :
    ∃ front, cs = front ++ (takeDigits digit? cs).2 ∧
      ∀ c ∈ front, (digit? c).isSome ∨ c = '_' := by
  fun_induction takeDigits digit? cs with
  | case1 => exact ⟨[], rfl, by simp⟩
  | case2 c cs hc => exact ⟨[], rfl, by simp⟩
  | case3 c d hd c' cs' hc' ds rest htake ih =>
      obtain ⟨front, hfront, hchars⟩ := ih
      refine ⟨c :: '_' :: front, ?_, ?_⟩
      · rw [htake] at hfront
        simp [hfront]
      · simp [hd]
        exact hchars
  | case4 c d hd c' cs' hc' => exact ⟨[c], rfl, by simp [hd]⟩
  | case5 c d hd cs hcs ds rest htake ih =>
      obtain ⟨front, hfront, hchars⟩ := ih
      refine ⟨c :: front, ?_, ?_⟩
      · rw [htake] at hfront
        simp [← hfront]
      · simp [hd]
        exact hchars

/-! ## Characters of numerals -/

/-- Ranges of the characters a text that stands for a number can hold. -/
def numeralRanges : List (Nat × Nat) :=
  digitZeros.map (fun z => (z, z + 9)) ++
    [(0x09, 0x0D), (0x1C, 0x20), (0x2B, 0x2B), (0x2D, 0x2E), (0x45, 0x45), (0x5F, 0x5F),
      (0x65, 0x65), (0x85, 0x85), (0xA0, 0xA0), (0x1680, 0x1680), (0x2000, 0x200A),
      (0x2028, 0x2029), (0x202F, 0x202F), (0x205F, 0x205F), (0x3000, 0x3000)]

def isNumeralChar (c : Char) : Bool :=
  numeralRanges.any fun r => r.1 ≤ c.toNat && c.toNat ≤ r.2

theorem isNumeralChar_iff {c : Char} :
    isNumeralChar c = true ↔ ∃ r ∈ numeralRanges, r.1 ≤ c.toNat ∧ c.toNat ≤ r.2 := by
  simp [isNumeralChar]

theorem isNumeralChar_of_digit {c : Char} (h : (digit? c).isSome) : isNumeralChar c = true := by
  obtain ⟨d, hd⟩ := Option.isSome_iff_exists.mp h
  obtain ⟨z, hz, -⟩ := digit?_eq_some_iff.mp hd
  have hrange := List.find?_some hz
  simp only [Bool.and_eq_true, decide_eq_true_eq] at hrange
  have hmem : (z, z + 9) ∈ numeralRanges :=
    List.mem_append_left _ (List.mem_map_of_mem (List.mem_of_find?_eq_some hz))
  exact isNumeralChar_iff.mpr ⟨_, hmem, hrange⟩

theorem isNumeralChar_of_space {c : Char} (h : isSpace c = true) : isNumeralChar c = true := by
  rw [isNumeralChar_iff]
  simp only [isSpace, isUnicodeSpace, Bool.or_eq_true, Bool.and_eq_true, decide_eq_true_eq,
    beq_iff_eq] at h
  simp only [numeralRanges, List.mem_append, or_and_right, exists_or, List.mem_cons,
    List.not_mem_nil, or_false, exists_eq_left]
  omega

/-! ## Folding the characters of numerals -/

theorem foldRuns_source : ∀ r ∈ numeralRanges, ∀ run ∈ foldRuns,
    run.last < r.1 ∨ r.2 < run.first ∨ r = (0x45, 0x45) := by
  decide +kernel

theorem expandingFolds_source : ∀ r ∈ numeralRanges, ∀ e ∈ expandingFolds,
    e.1 < r.1 ∨ r.2 < e.1 := by
  decide +kernel

theorem foldRuns_image : ∀ r ∈ numeralRanges, ∀ run ∈ foldRuns,
    run.last + run.offset < r.1 ∨ r.2 < run.first + run.offset ∨
      r = (0x65, 0x65) ∧ run.offset = 32 := by
  decide +kernel

theorem expandingFolds_image : ∀ e ∈ expandingFolds, e.2 ≠ [] ∧
    ∀ n ∈ e.2, isNumeralChar (Char.ofNat n) = false := by
  decide +kernel

/-- The letter of an exponent in its small form; other characters stay. -/
def smallExponent (c : Char) : Char := if c = 'E' then 'e' else c

theorem foldedCode?_eq_some {run : FoldRun} {c n : Nat} (h : run.foldedCode? c = some n) :
    run.first ≤ c ∧ c ≤ run.last ∧ n = (c + run.offset).toNat := by
  unfold FoldRun.foldedCode? at h
  split at h
  · rename_i hrun
    exact ⟨hrun.1, hrun.2.1, (Option.some.inj h).symm⟩
  · simp at h

theorem foldChar_cases (c : Char) :
    (∃ run ∈ foldRuns, ∃ n, run.foldedCode? c.toNat = some n ∧ foldChar c = [Char.ofNat n]) ∨
      (∃ e ∈ expandingFolds, e.1 = c.toNat ∧ foldChar c = e.2.map Char.ofNat) ∨
        foldChar c = [c] := by
  unfold foldChar
  cases hrun : foldRuns.findSome? (·.foldedCode? c.toNat) with
  | some n =>
      obtain ⟨run, hmem, hcode⟩ := List.exists_of_findSome?_eq_some hrun
      exact .inl ⟨run, hmem, n, hcode, rfl⟩
  | none =>
      cases hlookup : expandingFolds.lookup c.toNat with
      | some ns =>
          obtain ⟨before, after, hsplit, -⟩ := List.lookup_eq_some_iff.mp hlookup
          exact .inr (.inl ⟨(c.toNat, ns), by simp [hsplit], rfl, rfl⟩)
      | none => exact .inr (.inr rfl)

/-- Folding changes nothing of a numeral but the capital letter of its
exponent. -/
theorem foldChar_of_isNumeralChar {c : Char} (h : isNumeralChar c = true) :
    foldChar c = [smallExponent c] := by
  obtain ⟨r, hr, hlow, hhigh⟩ := isNumeralChar_iff.mp h
  by_cases hcapital : c = 'E'
  · subst hcapital
    decide
  · have hcode : c.toNat ≠ 0x45 := fun heq => hcapital (Char.toNat_inj.mp heq)
    have hsmall : smallExponent c = c := if_neg hcapital
    rw [hsmall]
    rcases foldChar_cases c with ⟨run, hrun, n, hfold, -⟩ | ⟨e, he, hfold, -⟩ | hsame
    · obtain ⟨hfirst, hlast, -⟩ := foldedCode?_eq_some hfold
      rcases foldRuns_source r hr run hrun with hbelow | habove | hletter
      · omega
      · omega
      · simp only [hletter] at hlow hhigh
        omega
    · rcases expandingFolds_source r hr e he with hbelow | habove <;> omega
    · exact hsame

/-- Folding makes no character of numerals out of another character. -/
theorem not_isNumeralChar_of_mem_foldChar {c d : Char} (h : isNumeralChar c = false)
    (hd : d ∈ foldChar c) : isNumeralChar d = false := by
  rcases foldChar_cases c with ⟨run, hrun, n, hfold, heq⟩ | ⟨e, he, -, heq⟩ | heq
  · obtain ⟨hfirst, hlast, hn⟩ := foldedCode?_eq_some hfold
    have hd' : d = Char.ofNat n := by simpa [heq] using hd
    rw [hd']
    by_contra hnumeral
    obtain ⟨r, hr, hlow, hhigh⟩ := isNumeralChar_iff.mp (by simpa using hnumeral)
    have hpositive : 0 < r.1 := (by decide : ∀ r ∈ numeralRanges, 0 < r.1) r hr
    have hcode : (Char.ofNat n).toNat = if n.isValidChar then n else 0 := by
      by_cases hvalid : n.isValidChar
      · rw [if_pos hvalid, Char.ofNat, dif_pos hvalid]
        rfl
      · rw [if_neg hvalid, Char.ofNat, dif_neg hvalid]
        rfl
    rw [hcode] at hlow hhigh
    split at hlow
    · rename_i hvalid
      rw [if_pos hvalid] at hhigh
      rcases foldRuns_image r hr run hrun with hbelow | habove | ⟨hletter, hoffset⟩
      · omega
      · omega
      · -- Only the capital letter folds to the small one.
        have hcapital : isNumeralChar c = true := by
          refine isNumeralChar_iff.mpr ⟨(0x45, 0x45), by decide, ?_⟩
          simp only [hletter] at hlow hhigh
          constructor <;> simp only <;> omega
        rw [h] at hcapital
        exact absurd hcapital (by decide)
    · omega
  · rw [heq] at hd
    obtain ⟨n, hn, heq'⟩ := List.mem_map.mp hd
    rw [← heq']
    exact (expandingFolds_image e he).2 n hn
  · have hd' : d = c := by simpa [heq] using hd
    rwa [hd']

theorem foldChar_ne_nil (c : Char) : foldChar c ≠ [] := by
  rcases foldChar_cases c with ⟨run, -, n, -, heq⟩ | ⟨e, he, -, heq⟩ | heq
  · simp [heq]
  · simpa [heq] using (expandingFolds_image e he).1
  · simp [heq]

theorem foldChars_of_numeralChars {cs : List Char} (h : ∀ c ∈ cs, isNumeralChar c = true) :
    foldChars cs = cs.map smallExponent := by
  induction cs with
  | nil => rfl
  | cons c rest ih =>
      have hrest := ih fun d hd => h d (List.mem_cons_of_mem c hd)
      have hfirst := foldChar_of_isNumeralChar (h c List.mem_cons_self)
      rw [← List.singleton_append, foldChars_append, hrest]
      simp [foldChars, hfirst]

theorem digit?_smallExponent (c : Char) : digit? (smallExponent c) = digit? c := by
  unfold smallExponent
  split
  · rename_i hcapital
    subst hcapital
    decide
  · rfl

theorem isSpace_smallExponent (c : Char) : isSpace (smallExponent c) = isSpace c := by
  unfold smallExponent
  split
  · rename_i hcapital
    subst hcapital
    decide
  · rfl

theorem smallExponent_eq_iff {c d : Char} (hcapital : d ≠ 'E') (hsmall : d ≠ 'e') :
    smallExponent c = d ↔ c = d := by
  unfold smallExponent
  split
  · rename_i heq
    subst heq
    simp [hcapital.symm, hsmall.symm]
  · rfl

theorem takeDigits_smallExponent (cs : List Char) :
    takeDigits digit? (cs.map smallExponent) =
      ((takeDigits digit? cs).1, (takeDigits digit? cs).2.map smallExponent) := by
  have hline : smallExponent '_' = '_' := by decide
  fun_induction takeDigits digit? cs with
  | case1 => simp [takeDigits]
  | case2 c cs hc => simp [takeDigits, digit?_smallExponent, hc]
  | case3 c d hd c' cs' hc' ds rest htake ih =>
      rw [htake] at ih
      simp only [List.map_cons] at ih
      simp [takeDigits, digit?_smallExponent, hd, hline, hc', ih]
  | case4 c d hd c' cs' hc' =>
      simp [takeDigits, digit?_smallExponent, hd, hline, hc']
  | case5 c d hd cs hcs ds rest htake ih =>
      have hmap : ∀ c' rest', cs.map smallExponent ≠ '_' :: c' :: rest' := by
        intro c' rest' heq
        obtain ⟨a, tail, hcons, ha, htail⟩ := List.map_eq_cons_iff.mp heq
        obtain ⟨b, tail', hcons', -, -⟩ := List.map_eq_cons_iff.mp htail
        rw [smallExponent_eq_iff (by decide) (by decide)] at ha
        exact hcs b tail' (by rw [hcons, hcons', ha])
      have hd' : digit? (smallExponent c) = some d := (digit?_smallExponent c).trans hd
      rw [List.map_cons, takeDigits_cons hd' hmap, ih, htake]

theorem trimChars_smallExponent (cs : List Char) :
    trimChars isSpace (cs.map smallExponent) = (trimChars isSpace cs).map smallExponent := by
  have hspace : isSpace ∘ smallExponent = isSpace := funext isSpace_smallExponent
  unfold trimChars
  rw [List.dropWhile_map, hspace, ← List.map_reverse, List.dropWhile_map, hspace,
    ← List.map_reverse]

theorem mem_trimChars {p : Char → Bool} {cs : List Char} {c : Char} (h : c ∈ cs)
    (hc : p c = false) : c ∈ trimChars p cs := by
  have hkept : ∀ ds : List Char, c ∈ ds → c ∈ ds.dropWhile p := by
    intro ds hds
    rw [← List.takeWhile_append_dropWhile (p := p) (l := ds)] at hds
    rcases List.mem_append.mp hds with htaken | hleft
    · have hp := List.mem_takeWhile_imp htaken
      simp [hc] at hp
    · exact hleft
  unfold trimChars
  rw [List.mem_reverse]
  exact hkept _ (List.mem_reverse.mpr (hkept cs h))

end Text

namespace Numeral

open Text

/-! ## Reading numerals -/

theorem takeSign_smallExponent (cs : List Char) :
    takeSign (cs.map smallExponent) = ((takeSign cs).1, (takeSign cs).2.map smallExponent) := by
  cases cs with
  | nil => rfl
  | cons c rest =>
      by_cases hminus : c = '-'
      · subst hminus
        rfl
      · by_cases hplus : c = '+'
        · subst hplus
          rfl
        · have hminus' : smallExponent c ≠ '-' := by
            rwa [ne_eq, smallExponent_eq_iff (by decide) (by decide)]
          have hplus' : smallExponent c ≠ '+' := by
            rwa [ne_eq, smallExponent_eq_iff (by decide) (by decide)]
          simp [takeSign, hminus, hplus, hminus', hplus']

theorem allDigits?_eq_some_iff {cs : List Char} {n : Nat} :
    allDigits? digit? cs = some n ↔
      (takeDigits digit? cs).1 ≠ [] ∧ (takeDigits digit? cs).2 = [] ∧
        digitsValue (takeDigits digit? cs).1 = n := by
  unfold allDigits?
  split
  · rename_i d ds htake
    simp [htake]
  · rename_i hother
    constructor
    · simp
    · rintro ⟨hdigits, hrest, -⟩
      obtain ⟨d, ds, hcons⟩ := List.exists_cons_of_ne_nil hdigits
      exact absurd (Prod.ext hcons hrest) (hother d ds)

theorem exponent?_cons (c : Char) (rest : List Char) :
    exponent? (c :: rest) =
      if c = 'e' ∨ c = 'E' then
        (allDigits? digit? (takeSign rest).2).map fun (n : Nat) =>
          if (takeSign rest).1 then -(n : Int) else n
      else none := by
  simp only [exponent?]
  cases allDigits? digit? (takeSign rest).2 <;> rfl

theorem digits?_of_point {negative : Bool} {cs rest : List Char}
    (h : (takeDigits digit? cs).2 = '.' :: rest) :
    digits? negative cs =
      if (takeDigits digit? cs).1.isEmpty && (takeDigits digit? rest).1.isEmpty then none
      else (exponent? (takeDigits digit? rest).2).map fun e =>
        Double.ofDecimal negative ((takeDigits digit? cs).1 ++ (takeDigits digit? rest).1)
          (e - (takeDigits digit? rest).1.length) := by
  simp only [digits?, h]

theorem digits?_of_no_point {negative : Bool} {cs : List Char}
    (h : ∀ rest, (takeDigits digit? cs).2 ≠ '.' :: rest) :
    digits? negative cs =
      if (takeDigits digit? cs).1.isEmpty then none
      else (exponent? (takeDigits digit? cs).2).map fun e =>
        Double.ofDecimal negative (takeDigits digit? cs).1 e := by
  simp only [digits?]
  simp

theorem exponent?_smallExponent (cs : List Char) :
    exponent? (cs.map smallExponent) = exponent? cs := by
  cases cs with
  | nil => rfl
  | cons c rest =>
      have hletter : smallExponent c = 'e' ∨ smallExponent c = 'E' ↔ c = 'e' ∨ c = 'E' := by
        unfold smallExponent
        split <;> simp_all
      have hdigits : ∀ ds : List Char,
          allDigits? digit? (ds.map smallExponent) = allDigits? digit? ds := by
        intro ds
        apply Option.ext
        intro n
        rw [allDigits?_eq_some_iff, allDigits?_eq_some_iff, takeDigits_smallExponent]
        simp
      simp only [List.map_cons, exponent?_cons, hletter, takeSign_smallExponent, hdigits]

theorem digits?_smallExponent (negative : Bool) (cs : List Char) :
    digits? negative (cs.map smallExponent) = digits? negative cs := by
  have htake := takeDigits_smallExponent cs
  have hpoint : ∀ c, smallExponent c = '.' ↔ c = '.' :=
    fun c => smallExponent_eq_iff (by decide) (by decide)
  by_cases hrest : ∃ rest, (takeDigits digit? cs).2 = '.' :: rest
  · obtain ⟨rest, hrest⟩ := hrest
    have hrest' : (takeDigits digit? (cs.map smallExponent)).2 =
        '.' :: rest.map smallExponent := by
      simp [htake, hrest, (hpoint '.').mpr rfl]
    rw [digits?_of_point hrest, digits?_of_point hrest', htake, takeDigits_smallExponent,
      exponent?_smallExponent]
  · have hnone : ∀ rest, (takeDigits digit? cs).2 ≠ '.' :: rest := fun rest h => hrest ⟨rest, h⟩
    have hnone' : ∀ rest, (takeDigits digit? (cs.map smallExponent)).2 ≠ '.' :: rest := by
      intro rest heq
      rw [htake] at heq
      obtain ⟨c, tail, hcons, hc, -⟩ := List.map_eq_cons_iff.mp heq
      rw [hpoint] at hc
      subst hc
      exact hnone tail hcons
    rw [digits?_of_no_point hnone, digits?_of_no_point hnone', htake, exponent?_smallExponent]

theorem takeSign_split (cs : List Char) :
    ∃ front, cs = front ++ (takeSign cs).2 ∧ ∀ c ∈ front, isNumeralChar c = true := by
  unfold takeSign
  split
  · exact ⟨['-'], rfl, List.forall_mem_singleton.mpr (by decide)⟩
  · exact ⟨['+'], rfl, List.forall_mem_singleton.mpr (by decide)⟩
  · exact ⟨[], rfl, by simp⟩

theorem takeDigits_front (cs : List Char) :
    ∃ front, cs = front ++ (takeDigits digit? cs).2 ∧ ∀ c ∈ front, isNumeralChar c = true := by
  obtain ⟨front, hsplit, hchars⟩ := takeDigits_split cs
  refine ⟨front, hsplit, fun c hc => ?_⟩
  rcases hchars c hc with hdigit | hline
  · exact isNumeralChar_of_digit hdigit
  · subst hline
    decide

theorem exponent?_chars {cs : List Char} {e : Int} (h : exponent? cs = some e) :
    ∀ c ∈ cs, isNumeralChar c = true := by
  cases cs with
  | nil => simp
  | cons c rest =>
      rw [exponent?_cons] at h
      split at h
      · rename_i hletter
        obtain ⟨n, hn, -⟩ := Option.map_eq_some_iff.mp h
        obtain ⟨sign, hsign, hsignChars⟩ := takeSign_split rest
        obtain ⟨front, hfront, hfrontChars⟩ := takeDigits_front (takeSign rest).2
        rw [(allDigits?_eq_some_iff.mp hn).2.1, List.append_nil] at hfront
        have hc : isNumeralChar c = true := by
          rcases hletter with heq | heq <;> subst heq <;> decide
        rw [hsign, hfront]
        simp only [List.mem_cons, List.mem_append, forall_eq_or_imp]
        exact ⟨hc, fun d hd => hd.elim (hsignChars d) (hfrontChars d)⟩
      · simp at h

theorem digits?_chars {negative : Bool} {cs : List Char} {x : Double}
    (h : digits? negative cs = some x) : ∀ c ∈ cs, isNumeralChar c = true := by
  have hexponent : ∀ {p : Prop} [Decidable p] {ds : List Char} {f : Int → Double},
      (if p then none else (exponent? ds).map f) = some x → ∀ c ∈ ds, isNumeralChar c = true := by
    intro p _ ds f hsome
    split at hsome
    · simp at hsome
    · obtain ⟨e, he, -⟩ := Option.map_eq_some_iff.mp hsome
      exact exponent?_chars he
  obtain ⟨whole, hwhole, hwholeChars⟩ := takeDigits_front cs
  by_cases hrest : ∃ rest, (takeDigits digit? cs).2 = '.' :: rest
  · obtain ⟨rest, hrest⟩ := hrest
    obtain ⟨fraction, hfraction, hfractionChars⟩ := takeDigits_front rest
    rw [digits?_of_point hrest] at h
    rw [hwhole, hrest, hfraction]
    simp only [List.mem_append, List.mem_cons]
    rintro c (hc | heq | hc | hc)
    · exact hwholeChars c hc
    · subst heq
      decide
    · exact hfractionChars c hc
    · exact hexponent h c hc
  · have hnone : ∀ rest, (takeDigits digit? cs).2 ≠ '.' :: rest := fun rest h => hrest ⟨rest, h⟩
    rw [digits?_of_no_point hnone] at h
    rw [hwhole]
    intro c hc
    rcases List.mem_append.mp hc with hc | hc
    · exact hwholeChars c hc
    · exact hexponent h c hc

/-- The finite double an unspaced numeral denotes. -/
def finite? (cs : List Char) : Option Finite :=
  (digits? (takeSign cs).1 (takeSign cs).2).bind Double.finite?

/-- The words for infinity and for the undefined number denote nothing finite. -/
theorem read?_bind_finite? (s : String) : (read? s).bind Double.finite? = finite? s.toList := by
  have hword : ∀ negative cs, (word? negative cs).bind Double.finite? = none := by
    intro negative cs
    unfold word?
    simp only
    split
    · rfl
    · split <;> rfl
  unfold read? finite?
  simp only
  cases digits? (takeSign s.toList).1 (takeSign s.toList).2 with
  | none => exact hword _ _
  | some x => rfl

theorem finite?_chars {cs : List Char} (h : (finite? cs).isSome) :
    ∀ c ∈ cs, isNumeralChar c = true := by
  unfold finite? at h
  cases hdigits : digits? (takeSign cs).1 (takeSign cs).2 with
  | none => simp [hdigits] at h
  | some x =>
      obtain ⟨sign, hsign, hchars⟩ := takeSign_split cs
      rw [hsign]
      intro c hc
      exact (List.mem_append.mp hc).elim (hchars c) (digits?_chars hdigits c)

/-- Numerals are read alike whichever letter marks the exponent. -/
theorem finite?_smallExponent (cs : List Char) :
    finite? (cs.map smallExponent) = finite? cs := by
  unfold finite?
  rw [takeSign_smallExponent]
  simp only [digits?_smallExponent]

end Numeral

/-! ## Texts that stand for a number -/

namespace Value

open Text

theorem number?_str (s : String) :
    (str s).number? = Numeral.finite? (trimChars isSpace s.toList) := by
  simp [number?, Numeral.read?_bind_finite?, trimmed]

theorem number?_str_chars {s : String} (h : (str s).number?.isSome) :
    ∀ c ∈ s.toList, isNumeralChar c = true := by
  rw [number?_str] at h
  intro c hc
  cases hspace : isSpace c with
  | true => exact isNumeralChar_of_space hspace
  | false => exact Numeral.finite?_chars h c (mem_trimChars hc hspace)

theorem number?_str_of_other_char {s : String} (c : Char) (hc : c ∈ s.toList)
    (hother : isNumeralChar c = false) : (str s).number?.isSome = false := by
  rw [← Bool.not_eq_true]
  intro hsome
  have hnumeral := number?_str_chars hsome c hc
  rw [hother] at hnumeral
  exact Bool.false_ne_true hnumeral

/-- Folding a text does not change whether it is a number. -/
theorem number?_folded_isSome (s : String) :
    (str (folded s)).number?.isSome = (str s).number?.isSome := by
  by_cases hchars : ∀ c ∈ s.toList, isNumeralChar c = true
  · rw [number?_str, number?_str, toList_folded, foldChars_of_numeralChars hchars,
      trimChars_smallExponent, Numeral.finite?_smallExponent]
  · -- Another character stays another one, so neither text is a numeral.
    obtain ⟨c, hc, hother⟩ : ∃ c ∈ s.toList, isNumeralChar c = false := by simpa using hchars
    obtain ⟨d, hd⟩ := List.exists_mem_of_ne_nil _ (foldChar_ne_nil c)
    have hfolded : d ∈ (folded s).toList := by
      rw [toList_folded]
      exact List.mem_flatMap.mpr ⟨c, hc, hd⟩
    rw [number?_str_of_other_char d hfolded (not_isNumeralChar_of_mem_foldChar hother hd),
      number?_str_of_other_char c hc hother]

end Value

end FormRules
