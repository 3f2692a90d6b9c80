import FormRules.Proofs.FiniteSizes
import FormRules.Proofs.NumeralChars

/-!
# Printed numbers

Integers and finite doubles print as numerals.  What such a numeral writes is
the integer itself, and for a double the decimal whose digits are laid out.  Read
again, a printed integer stands for the same double as the integer.
-/

namespace FormRules

namespace Text

theorem digit?_of_isDigit {c : Char} (h : c.isDigit = true) : digit? c = some (c.toNat - 0x30) := by
  obtain ⟨hlow, hhigh⟩ := Char.isDigit_iff_toNat.mp h
  have hlow' : 0x30 ≤ c.toNat := hlow
  have hhigh' : c.toNat ≤ 0x39 := hhigh
  simp [digit?, digitZeros, hlow', hhigh']

theorem isSpace_of_isDigit {c : Char} (h : c.isDigit = true) : isSpace c = false := by
  obtain ⟨hlow, hhigh⟩ := Char.isDigit_iff_toNat.mp h
  have hlow' : 0x30 ≤ c.toNat := hlow
  have hhigh' : c.toNat ≤ 0x39 := hhigh
  rw [← Bool.not_eq_true]
  simp only [isSpace, isUnicodeSpace, Bool.or_eq_true, Bool.and_eq_true, decide_eq_true_eq,
    beq_iff_eq]
  omega

theorem trimChars_eq_self {p : Char → Bool} {cs : List Char} (h : ∀ c ∈ cs, p c = false) :
    trimChars p cs = cs := by
  have hkept : ∀ ds : List Char, (∀ c ∈ ds, p c = false) → ds.dropWhile p = ds := by
    intro ds hds
    cases ds with
    | nil => rfl
    | cons d rest => simp [hds d List.mem_cons_self]
  unfold trimChars
  rw [hkept cs h, hkept cs.reverse fun c hc => h c (List.mem_reverse.mp hc), List.reverse_reverse]

/-- The values of a row of ASCII digits. -/
def digitValues (cs : List Char) : List Nat := cs.map fun c => c.toNat - 0x30

theorem digitValues_le {cs : List Char} (h : ∀ c ∈ cs, c.isDigit = true) :
    ∀ d ∈ digitValues cs, d ≤ 9 := by
  intro d hd
  obtain ⟨c, hc, heq⟩ := List.mem_map.mp hd
  have hhigh : c.toNat ≤ 0x39 := (Char.isDigit_iff_toNat.mp (h c hc)).2
  omega

theorem digitsValue_toDigits (n : Nat) : digitsValue (digitValues (Nat.toDigits 10 n)) = n := by
  have hvalue : Nat.ofDigitChars 10 (Nat.toDigits 10 n) 0 = n := Nat.ofDigitChars_ten_toDigits
  unfold digitsValue digitValues
  rw [List.foldl_map]
  exact hvalue

theorem isDigit_of_mem_toDigits {n : Nat} : ∀ c ∈ Nat.toDigits 10 n, c.isDigit = true :=
  fun _ hc => Nat.isDigit_of_mem_toDigits (by decide) (by decide) hc

theorem takeDigits_append {cs rest : List Char} (hcs : ∀ c ∈ cs, c.isDigit = true)
    (hrest : ∀ c ∈ rest.head?, digit? c = none ∧ c ≠ '_') :
    takeDigits digit? (cs ++ rest) = (digitValues cs, rest) := by
  induction cs with
  | nil =>
      cases rest with
      | nil => simp [takeDigits, digitValues]
      | cons c tail =>
          have hc : digit? c = none := (hrest c (by simp)).1
          simp [takeDigits, hc, digitValues]
  | cons c cs ih =>
      have hc : digit? c = some (c.toNat - 0x30) := digit?_of_isDigit (hcs c List.mem_cons_self)
      have hcs' : ∀ d ∈ cs, d.isDigit = true := fun d hd => hcs d (List.mem_cons_of_mem c hd)
      have hline : ∀ d tail, cs ++ rest ≠ '_' :: d :: tail := by
        intro d tail heq
        cases cs with
        | nil =>
            rw [List.nil_append] at heq
            exact (hrest '_' (by simp [heq])).2 rfl
        | cons e es =>
            have he : e = '_' := (List.cons.inj heq).1
            have hdigit := hcs' e List.mem_cons_self
            rw [he] at hdigit
            exact absurd hdigit (by decide)
      rw [List.cons_append, takeDigits_cons hc hline, ih hcs']
      rfl

end Text

namespace Numeral

open Text

/-! ## Numerals of ASCII digits -/

/-- The end of a numeral: no exponent, or one. -/
structure EndsIn (tail : List Char) (exponent : Int) : Prop where
  read : exponent? tail = some exponent
  stops : ∀ c ∈ tail.head?, digit? c = none ∧ c ≠ '_' ∧ c ≠ '.'
  unspaced : ∀ c ∈ tail, isSpace c = false

theorem endsIn_nil : EndsIn [] 0 := ⟨rfl, by simp, by simp⟩

theorem endsIn_exponent {size : List Char} (negative : Bool)
    (hsize : ∀ c ∈ size, c.isDigit = true) (hne : size ≠ []) :
    EndsIn ('e' :: (if negative then '-' else '+') :: size)
      (if negative then -(digitsValue (digitValues size) : Int)
        else digitsValue (digitValues size)) := by
  have htake : takeDigits digit? (size ++ []) = (digitValues size, []) :=
    takeDigits_append hsize (by simp)
  rw [List.append_nil] at htake
  have hall : allDigits? digit? size = some (digitsValue (digitValues size)) := by
    rw [allDigits?_eq_some_iff, htake]
    simp [digitValues, hne]
  constructor
  · rw [exponent?_cons]
    cases negative <;> simp [takeSign, hall]
  · simp only [List.head?_cons, Option.mem_def, Option.some.injEq, forall_eq']
    decide
  · intro c hc
    rcases List.mem_cons.mp hc with heq | hc
    · subst heq
      decide
    · rcases List.mem_cons.mp hc with heq | hc
      · subst heq
        cases negative <;> decide
      · exact isSpace_of_isDigit (hsize c hc)

/-- The text is an unsigned numeral that writes `digits · 10^exponent`. -/
structure Writes (cs : List Char) (digits : List Nat) (exponent : Int) : Prop where
  read : ∀ negative, digits? negative cs = some (Double.ofDecimal negative digits exponent)
  le : ∀ d ∈ digits, d ≤ 9
  unsigned : takeSign cs = (false, cs)
  unspaced : ∀ c ∈ cs, isSpace c = false

theorem takeSign_of_isDigit {c : Char} {rest : List Char} (h : c.isDigit = true) :
    takeSign (c :: rest) = (false, c :: rest) := by
  have hminus : c ≠ '-' := by
    rintro rfl
    exact absurd h (by decide)
  have hplus : c ≠ '+' := by
    rintro rfl
    exact absurd h (by decide)
  simp [takeSign, hminus, hplus]

section Written

variable {whole fraction tail : List Char} {exponent : Int}
  (hwhole : ∀ c ∈ whole, c.isDigit = true) (hne : whole ≠ [])

include hwhole hne

theorem writes_whole (htail : EndsIn tail exponent) :
    Writes (whole ++ tail) (digitValues whole) exponent := by
  have htake := takeDigits_append hwhole fun c hc => ⟨(htail.stops c hc).1, (htail.stops c hc).2.1⟩
  have hpoint : ∀ rest, (takeDigits digit? (whole ++ tail)).2 ≠ '.' :: rest := by
    intro rest heq
    rw [htake] at heq
    simp only at heq
    exact (htail.stops '.' (by simp [heq])).2.2 rfl
  constructor
  · intro negative
    rw [digits?_of_no_point hpoint, htake, htail.read]
    simp [digitValues, hne]
  · exact digitValues_le hwhole
  · obtain ⟨c, rest, heq⟩ := List.exists_cons_of_ne_nil hne
    subst heq
    exact takeSign_of_isDigit (hwhole c List.mem_cons_self)
  · intro c hc
    exact (List.mem_append.mp hc).elim (fun h => isSpace_of_isDigit (hwhole c h))
      (htail.unspaced c)

theorem writes_fraction (hfraction : ∀ c ∈ fraction, c.isDigit = true)
    (htail : EndsIn tail exponent) :
    Writes (whole ++ '.' :: (fraction ++ tail)) (digitValues (whole ++ fraction))
      (exponent - fraction.length) := by
  have htake : takeDigits digit? (whole ++ '.' :: (fraction ++ tail)) =
      (digitValues whole, '.' :: (fraction ++ tail)) := by
    apply takeDigits_append hwhole
    simp only [List.head?_cons, Option.mem_def, Option.some.injEq, forall_eq']
    decide
  have htake' : takeDigits digit? (fraction ++ tail) = (digitValues fraction, tail) :=
    takeDigits_append hfraction fun c hc => ⟨(htail.stops c hc).1, (htail.stops c hc).2.1⟩
  constructor
  · intro negative
    rw [digits?_of_point (congrArg Prod.snd htake), htake, htake', htail.read]
    simp [digitValues, hne]
  · apply digitValues_le
    intro c hc
    exact (List.mem_append.mp hc).elim (hwhole c) (hfraction c)
  · obtain ⟨c, rest, heq⟩ := List.exists_cons_of_ne_nil hne
    subst heq
    exact takeSign_of_isDigit (hwhole c List.mem_cons_self)
  · intro c hc
    simp only [List.mem_append, List.mem_cons] at hc
    rcases hc with hc | heq | hc | hc
    · exact isSpace_of_isDigit (hwhole c hc)
    · subst heq
      decide
    · exact isSpace_of_isDigit (hfraction c hc)
    · exact htail.unspaced c hc

end Written

/-- The numeral, with a sign or without one, stands for the double it denotes. -/
theorem Writes.number?_eq {body : List Char} {digits : List Nat} {exponent : Int}
    (h : Writes body digits exponent) (negative : Bool) :
    (Value.str (String.ofList (if negative then '-' :: body else body))).number? =
      (Double.ofDecimal negative digits exponent).finite? := by
  have hspaces : ∀ c ∈ (if negative then '-' :: body else body), isSpace c = false := by
    intro c hc
    cases negative with
    | false => exact h.unspaced c hc
    | true =>
        rcases List.mem_cons.mp hc with heq | hc
        · subst heq
          decide
        · exact h.unspaced c hc
  have hsign : takeSign (if negative then '-' :: body else body) = (negative, body) := by
    cases negative with
    | false => exact h.unsigned
    | true => rfl
  rw [Value.number?_str, String.toList_ofList, trimChars_eq_self hspaces]
  unfold finite?
  rw [hsign, h.read, Option.bind_some]

end Numeral

/-! ## Integers -/

open Text Numeral

theorem Text.toList_intText (n : Int) :
    (intText n).toList =
      if decide (n < 0) then '-' :: Nat.toDigits 10 n.natAbs else Nat.toDigits 10 n.natAbs := by
  cases n with
  | ofNat m => simp [intText, natText]
  | negSucc m => simp [intText, natText, Int.negSucc_lt_zero]

/-- A printed integer stands for the same number as the integer itself. -/
theorem Value.number?_intText (n : Int) : (str (intText n)).number? = (int n).number? := by
  have hne : Nat.toDigits 10 n.natAbs ≠ [] := Nat.toDigits_ne_nil
  have hwrites : Writes (Nat.toDigits 10 n.natAbs) (digitValues (Nat.toDigits 10 n.natAbs)) 0 := by
    simpa using writes_whole isDigit_of_mem_toDigits hne endsIn_nil
  rw [← String.ofList_toList (s := intText n), toList_intText, hwrites.number?_eq,
    Double.ofDecimal_whole hwrites.le, digitsValue_toDigits]
  rfl

/-! ## Doubles -/

theorem digitValues_append (cs ds : List Char) :
    digitValues (cs ++ ds) = digitValues cs ++ digitValues ds := List.map_append

theorem digitValues_length (cs : List Char) : (digitValues cs).length = cs.length :=
  List.length_map _

theorem digitsValue_zeros (n : Nat) : digitsValue (digitValues (List.replicate n '0')) = 0 := by
  induction n with
  | zero => rfl
  | succ n ih =>
      rw [List.replicate_succ, digitValues, List.map_cons, digitsValue_cons]
      simpa [digitValues] using ih

theorem decimalSize_zeros_append (n : Nat) (ds : List Nat) (e : Int) :
    Double.decimalSize (digitValues (List.replicate n '0') ++ ds) e = Double.decimalSize ds e := by
  unfold Double.decimalSize
  rw [digitsValue_append, digitsValue_zeros]
  simp

theorem decimalSize_append_zeros (n : Nat) (ds : List Nat) (e : Int) :
    Double.decimalSize (ds ++ digitValues (List.replicate n '0')) e =
      Double.decimalSize ds (e + n) := by
  unfold Double.decimalSize
  rw [digitsValue_append, digitsValue_zeros, digitValues_length, List.length_replicate,
    zpow_add₀ (by norm_num), zpow_natCast]
  push_cast
  ring

/-- An exponent is written with its sign and at least two digits. -/
theorem endsIn_written (e : Int) :
    EndsIn ('e' :: (if e < 0 then '-' else '+') ::
      (if (Nat.toDigits 10 e.natAbs).length < 2 then '0' :: Nat.toDigits 10 e.natAbs
        else Nat.toDigits 10 e.natAbs)) e := by
  have hdigits : ∀ c ∈ (if (Nat.toDigits 10 e.natAbs).length < 2 then
      '0' :: Nat.toDigits 10 e.natAbs else Nat.toDigits 10 e.natAbs), c.isDigit = true := by
    intro c hc
    split at hc
    · rcases List.mem_cons.mp hc with heq | hc
      · subst heq
        decide
      · exact isDigit_of_mem_toDigits c hc
    · exact isDigit_of_mem_toDigits c hc
  have hvalue : digitsValue (digitValues (if (Nat.toDigits 10 e.natAbs).length < 2 then
      '0' :: Nat.toDigits 10 e.natAbs else Nat.toDigits 10 e.natAbs)) = e.natAbs := by
    split
    · have hzero : digitValues ('0' :: Nat.toDigits 10 e.natAbs) =
          0 :: digitValues (Nat.toDigits 10 e.natAbs) := rfl
      rw [hzero, digitsValue_cons, digitsValue_toDigits]
      omega
    · exact digitsValue_toDigits _
  have hne : (if (Nat.toDigits 10 e.natAbs).length < 2 then
      '0' :: Nat.toDigits 10 e.natAbs else Nat.toDigits 10 e.natAbs) ≠ [] := by
    split
    · simp
    · exact Nat.toDigits_ne_nil
  have hends := endsIn_exponent (decide (e < 0)) hdigits hne
  rw [hvalue] at hends
  simp only [decide_eq_true_eq] at hends
  have hsigned : (if e < 0 then -(e.natAbs : Int) else e.natAbs) = e := by
    split <;> omega
  rwa [hsigned] at hends

/-- The text is an unsigned numeral for a number of this size. -/
def WritesSize (cs : List Char) (size : ℚ) : Prop :=
  ∃ digits e, Writes cs digits e ∧ Double.decimalSize digits e = size

theorem isDigit_of_mem_zeros (n : Nat) : ∀ c ∈ List.replicate n '0', c.isDigit = true := by
  intro c hc
  rw [(List.mem_replicate.mp hc).2]
  decide

/-- The digits in front of an exponent. -/
def mantissa : List Char → List Char
  | d :: rest@(_ :: _) => d :: '.' :: rest
  | ds => ds

section Layout

variable {ds : List Char} (hds : ∀ c ∈ ds, c.isDigit = true)

include hds

theorem writesSize_small (n : Nat) :
    WritesSize ('0' :: '.' :: (List.replicate n '0' ++ ds))
      (Double.decimalSize (digitValues ds) (-n - ds.length)) := by
  have hfraction : ∀ c ∈ List.replicate n '0' ++ ds, c.isDigit = true :=
    fun c hc => (List.mem_append.mp hc).elim (isDigit_of_mem_zeros n c) (hds c)
  have hwrites := writes_fraction (isDigit_of_mem_zeros 1) (by simp) hfraction endsIn_nil
  rw [List.append_nil] at hwrites
  refine ⟨_, _, hwrites, ?_⟩
  rw [digitValues_append, decimalSize_zeros_append, digitValues_append, decimalSize_zeros_append]
  congr 1
  simp
  omega

theorem writesSize_split {w : Nat} (hpos : 0 < w) (hlong : w < ds.length) :
    WritesSize (ds.take w ++ '.' :: ds.drop w)
      (Double.decimalSize (digitValues ds) (w - ds.length)) := by
  have hfront : ∀ c ∈ ds.take w, c.isDigit = true := fun c hc => hds c (List.mem_of_mem_take hc)
  have hback : ∀ c ∈ ds.drop w, c.isDigit = true := fun c hc => hds c (List.mem_of_mem_drop hc)
  have hwhole : ds.take w ≠ [] := by
    rw [ne_eq, List.take_eq_nil_iff, not_or]
    exact ⟨by omega, List.ne_nil_of_length_pos (by omega)⟩
  have hwrites := writes_fraction hfront hwhole hback endsIn_nil
  rw [List.take_append_drop, List.append_nil] at hwrites
  refine ⟨_, _, hwrites, ?_⟩
  congr 1
  simp
  omega

theorem writesSize_whole (hne : ds ≠ []) (n : Nat) :
    WritesSize (ds ++ List.replicate n '0' ++ ['.', '0'])
      (Double.decimalSize (digitValues ds) n) := by
  have hpadded : ∀ c ∈ ds ++ List.replicate n '0', c.isDigit = true :=
    fun c hc => (List.mem_append.mp hc).elim (hds c) (isDigit_of_mem_zeros n c)
  have hwrites := writes_fraction hpadded (by simp [hne]) (isDigit_of_mem_zeros 1) endsIn_nil
  refine ⟨_, _, hwrites, ?_⟩
  rw [digitValues_append, decimalSize_append_zeros, digitValues_append, decimalSize_append_zeros]
  congr 1
  simp

theorem writesSize_exponent {tail : List Char} {e : Int} (hne : ds ≠ []) (htail : EndsIn tail e) :
    WritesSize (mantissa ds ++ tail) (Double.decimalSize (digitValues ds) (e + 1 - ds.length)) := by
  cases ds with
  | nil => exact absurd rfl hne
  | cons d rest =>
      have hd : ∀ c ∈ [d], c.isDigit = true :=
        List.forall_mem_singleton.mpr (hds d List.mem_cons_self)
      have hrest : ∀ c ∈ rest, c.isDigit = true := fun c hc => hds c (List.mem_cons_of_mem d hc)
      cases rest with
      | nil =>
          have hwrites := writes_whole hd (by simp) htail
          exact ⟨_, _, hwrites, by simp⟩
      | cons r rest =>
          have hwrites := writes_fraction hd (by simp) hrest htail
          refine ⟨_, _, hwrites, ?_⟩
          rw [List.singleton_append]
          congr 1
          simp

/-- Wherever the point is, the digits that are written have the size of the
decimal. -/
theorem writeDigits_writesSize (hne : ds ≠ []) (p : Int) :
    WritesSize (Finite.writeDigits ds p)
      (Double.decimalSize (digitValues ds) (p - ds.length)) := by
  unfold Finite.writeDigits
  split
  · split
    · have hp : p = -((-p).toNat : Int) := by omega
      have hwrites := writesSize_small hds (-p).toNat
      rwa [← hp] at hwrites
    · obtain ⟨w, hw⟩ : ∃ w : Nat, p = w := ⟨p.toNat, by omega⟩
      subst hw
      simp only [Int.toNat_natCast]
      by_cases hlong : w < ds.length
      · have hpadded : ds ++ List.replicate (w - ds.length) '0' = ds := by
          simp [Nat.sub_eq_zero_of_le hlong.le]
        have hfraction : (if (ds.drop w).isEmpty then ['0'] else ds.drop w) = ds.drop w := by
          simp [hlong]
        rw [hpadded, hfraction]
        exact writesSize_split hds (by omega) hlong
      · have hwhole : (ds ++ List.replicate (w - ds.length) '0').take w =
            ds ++ List.replicate (w - ds.length) '0' := by
          apply List.take_of_length_le
          simp
          omega
        have hfraction : ds.drop w = [] := by simpa using hlong
        have hsize : ((w - ds.length : Nat) : Int) = w - ds.length := by omega
        have hwrites := writesSize_whole hds hne (w - ds.length)
        rw [hsize] at hwrites
        rw [hwhole, hfraction]
        exact hwrites
  · have hwrites := writesSize_exponent hds hne (endsIn_written (p - 1))
    rw [Int.sub_add_cancel] at hwrites
    exact hwrites

end Layout

/-- Digits without the zeros they end with; the zeros count for the exponent. -/
theorem withoutZeros_spec {ds : List Char} (hds : ∀ c ∈ ds, c.isDigit = true) (e : Int) :
    (∀ c ∈ (ds.reverse.dropWhile (· == '0')).reverse, c.isDigit = true) ∧
      Double.decimalSize (digitValues (ds.reverse.dropWhile (· == '0')).reverse)
        (ds.length + e - (ds.reverse.dropWhile (· == '0')).reverse.length) =
          Double.decimalSize (digitValues ds) e := by
  have hsplit := List.takeWhile_append_dropWhile (p := (· == '0')) (l := ds.reverse)
  have hzeros : (ds.reverse.takeWhile (· == '0')).reverse =
      List.replicate (ds.reverse.takeWhile (· == '0')).length '0' := by
    apply List.eq_replicate_iff.mpr
    refine ⟨List.length_reverse, fun c hc => ?_⟩
    simpa using List.mem_takeWhile_imp (List.mem_reverse.mp hc)
  have hds' : ds = (ds.reverse.dropWhile (· == '0')).reverse ++
      List.replicate (ds.reverse.takeWhile (· == '0')).length '0' := by
    rw [← hzeros, ← List.reverse_append, hsplit, List.reverse_reverse]
  constructor
  · intro c hc
    apply hds
    rw [hds']
    exact List.mem_append_left _ hc
  · conv_rhs => rw [hds', digitValues_append, decimalSize_append_zeros]
    have hlength := congrArg List.length hds'
    rw [List.length_append, List.length_replicate] at hlength
    congr 1
    omega

end FormRules
