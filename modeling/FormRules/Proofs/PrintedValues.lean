import FormRules.Proofs.IntegerEquality
import FormRules.Proofs.QuotedTexts
import FormRules.Proofs.ReadBackDoubles
import FormRules.Value.Printing
import Mathlib.Data.List.Forall2

/-!
# Printed values say what they are

A printed value is a word, a numeral, a quoted text or a bracket with printed parts
in it.  Its first character tells which of them it is.  Words and numerals hold
nothing that may follow a value, quoted texts and brackets are closed, and so a
printed value ends at one place only.  Different values print differently, whatever
follows.
-/

namespace FormRules

open Text Numeral

/-! ## Texts that say where they end -/

/-- The characters that may follow a value printed within a text. -/
def followers : List Char := [' ', ',', ')', ']', '\x7d']

/-- The characters that quoted texts, lists and objects start with. -/
def openers : List Char := ['\'', '"', '[', '\x7b']

/-- The text is empty or goes on with a character that may follow a value. -/
def Follows (s : List Char) : Prop := ∀ c ∈ s.head?, c ∈ followers

theorem follows_nil : Follows [] := by simp [Follows]

theorem follows_cons {c : Char} {s : List Char} (h : c ∈ followers) : Follows (c :: s) := by
  simpa [Follows] using h

/-- Two things of which one text can be made only when they are related, and then
the text goes on after both of them at the same place. -/
def SplitsAlike {α : Type} (print : α → List Char) (R : α → α → Prop) (x y : α) : Prop :=
  ∀ s t, Follows s → Follows t → print x ++ s = print y ++ t → R x y ∧ s = t

-- Only the characters of the list are looked at; a decision of the statement as it
-- stands may go through all characters there are.
theorem forall_mem_of_all {p : Char → Prop} [DecidablePred p] {cs : List Char}
    (h : cs.all (fun c => decide (p c)) = true) : ∀ c ∈ cs, p c := by
  simpa using h

/-- A text ends at the first character that stops it. -/
theorem run_append_inj {stop : Char → Prop} {a b s t : List Char} (ha : ∀ c ∈ a, ¬ stop c)
    (hb : ∀ c ∈ b, ¬ stop c) (hs : ∀ c ∈ s.head?, stop c) (ht : ∀ c ∈ t.head?, stop c)
    (h : a ++ s = b ++ t) : a = b ∧ s = t := by
  classical
  have hnone : ∀ r : List Char, (∀ c ∈ r.head?, stop c) → r.takeWhile (¬ stop ·) = [] := by
    intro r hr
    cases r with
    | nil => rfl
    | cons c rest => simp [hr c (by simp)]
  have htaken := congrArg (List.takeWhile (¬ stop ·)) h
  rw [List.takeWhile_append_of_pos (by simpa using ha),
    List.takeWhile_append_of_pos (by simpa using hb), hnone s hs, hnone t ht, List.append_nil,
    List.append_nil] at htaken
  rw [htaken] at h
  exact ⟨htaken, List.append_cancel_left h⟩

/-! ## Joined parts -/

section Joined

variable {α : Type} {print : α → List Char} {R : α → α → Prop} {a close : Char}
  {r r' : List Char} {xs ys : List α} {s t : List Char}

theorem intercalate_cons_map (x : α) (xs : List α) :
    (a :: r).intercalate ((x :: xs).map print) =
      print x ++ xs.flatMap fun y => a :: (r ++ print y) := by
  induction xs generalizing x with
  | nil => simp
  | cons y rest ih =>
      rw [List.map_cons, List.map_cons, List.intercalate_cons_cons, ← List.map_cons, ih,
        List.flatMap_cons]
      simp

theorem follows_parts (ha : a ∈ followers) (hclose : close ∈ followers) :
    Follows ((xs.flatMap fun y => a :: (r ++ print y)) ++ close :: s) := by
  cases xs with
  | nil => exact follows_cons hclose
  | cons x rest => exact follows_cons ha

variable (ha : a ∈ followers) (hclose : close ∈ followers) (hne : close ≠ a)
  (hseparators : ∀ u v, r ++ u = r' ++ v → r = r' ∧ u = v)
  (hparts : ∀ x ∈ xs, ∀ y ∈ ys, SplitsAlike print R x y)

include ha hclose hne hseparators hparts

theorem parts_split
    (h : (xs.flatMap fun y => a :: (r ++ print y)) ++ close :: s =
      (ys.flatMap fun y => a :: (r' ++ print y)) ++ close :: t) :
    List.Forall₂ R xs ys ∧ s = t ∧ (r = r' ∨ xs = []) := by
  -- A separator goes before each part, so the closing character ends both rows at once.
  induction xs generalizing ys with
  | nil =>
      cases ys with
      | nil => exact ⟨.nil, (List.cons.inj h).2, .inr rfl⟩
      | cons y ys => exact absurd (List.cons.inj h).1 hne
  | cons x xs ih =>
      cases ys with
      | nil => exact absurd (List.cons.inj h).1.symm hne
      | cons y ys =>
          rw [List.flatMap_cons, List.flatMap_cons, List.append_assoc, List.append_assoc,
            List.cons_append, List.cons_append, List.append_assoc, List.append_assoc] at h
          rcases hseparators _ _ (List.cons.inj h).2 with ⟨hsame, hrest⟩
          rcases hparts x List.mem_cons_self y List.mem_cons_self _ _
            (follows_parts ha hclose) (follows_parts ha hclose) hrest with ⟨hpart, htail⟩
          rcases ih (fun x hx y hy => hparts x (List.mem_cons_of_mem _ hx) y
            (List.mem_cons_of_mem _ hy)) htail with ⟨hforall, hend, -⟩
          exact ⟨.cons hpart hforall, hend, .inl hsame⟩

/-- Of a joined row the parts can be told, and the separator when there are two. -/
theorem joined_split
    (hleft : ∀ x ∈ xs, ∀ u v, print x ++ u ≠ close :: v)
    (hright : ∀ y ∈ ys, ∀ u v, print y ++ u ≠ close :: v)
    (h : (a :: r).intercalate (xs.map print) ++ close :: s =
      (a :: r').intercalate (ys.map print) ++ close :: t) :
    List.Forall₂ R xs ys ∧ s = t ∧ (r = r' ∨ xs.length ≤ 1) := by
  cases xs with
  | nil =>
      cases ys with
      | nil => exact ⟨.nil, by simpa using h, .inr (by simp)⟩
      | cons y ys =>
          rw [intercalate_cons_map, List.append_assoc] at h
          exact absurd h.symm (hright y List.mem_cons_self _ _)
  | cons x xs =>
      cases ys with
      | nil =>
          rw [intercalate_cons_map, List.append_assoc] at h
          exact absurd h (hleft x List.mem_cons_self _ _)
      | cons y ys =>
          rw [intercalate_cons_map, intercalate_cons_map, List.append_assoc,
            List.append_assoc] at h
          rcases hparts x List.mem_cons_self y List.mem_cons_self _ _
            (follows_parts ha hclose) (follows_parts ha hclose) h with ⟨hpart, htail⟩
          rcases parts_split ha hclose hne hseparators
            (fun x hx y hy => hparts x (List.mem_cons_of_mem _ hx) y (List.mem_cons_of_mem _ hy))
            htail with ⟨hforall, hend, hsame⟩
          exact ⟨.cons hpart hforall, hend, hsame.imp id fun hnil => by simp [hnil]⟩

end Joined

/-- Parts that are listed with commas can be told when each of them can. -/
theorem listed_append_inj {α : Type} {print : α → List Char} {close : Char} {xs ys : List α}
    {s t : List Char} (hclose : close ∈ followers) (hne : close ≠ ',')
    (hparts : ∀ x ∈ xs, ∀ y ∈ ys, SplitsAlike print Eq x y)
    (hstart : ∀ x u v, print x ++ u ≠ close :: v)
    (h : [',', ' '].intercalate (xs.map print) ++ [close] ++ s =
      [',', ' '].intercalate (ys.map print) ++ [close] ++ t) : xs = ys ∧ s = t := by
  have hcomma : ',' ∈ followers := by decide
  have hseparators : ∀ u v, [' '] ++ u = [' '] ++ v → [' '] = [' '] ∧ u = v :=
    fun u v h => ⟨rfl, List.append_cancel_left h⟩
  rw [List.append_assoc, List.append_assoc] at h
  rcases joined_split hcomma hclose hne hseparators hparts
    (fun x _ => hstart x) (fun y _ => hstart y) h with ⟨hforall, hend, -⟩
  rw [List.forall₂_eq_eq_eq] at hforall
  exact ⟨hforall, hend⟩

/-! ## The forms of a value -/

namespace Value

/-- How a value prints: as a word or numeral, quoted, or in brackets. -/
inductive Form where
  | scalar
  | text
  | list
  | object
deriving DecidableEq

def form : Value → Form
  | .str _ => .text
  | .list _ => .list
  | .obj _ => .object
  | _ => .scalar

theorem exists_str_of_form {v : Value} (h : v.form = .text) : ∃ s, v = .str s := by
  cases v <;> first | exact ⟨_, rfl⟩ | cases h

theorem exists_list_of_form {v : Value} (h : v.form = .list) : ∃ items, v = .list items := by
  cases v <;> first | exact ⟨_, rfl⟩ | cases h

theorem exists_obj_of_form {v : Value} (h : v.form = .object) : ∃ fields, v = .obj fields := by
  cases v <;> first | exact ⟨_, rfl⟩ | cases h

/-- Induction on values, by their forms. -/
theorem induction_parts {motive : Value → Prop}
    (scalar : ∀ v, v.form = .scalar → motive v) (text : ∀ s, motive (.str s))
    (list : ∀ items, (∀ v ∈ items, motive v) → motive (.list items))
    (object : ∀ fields, (∀ entry ∈ fields, motive entry.2) → motive (.obj fields)) (v : Value) :
    motive v := by
  cases v with
  | absent => exact scalar _ rfl
  | null => exact scalar _ rfl
  | bool b => exact scalar _ rfl
  | int n => exact scalar _ rfl
  | float x => exact scalar _ rfl
  | str s => exact text s
  | list items =>
      exact list items fun v hv => induction_parts scalar text list object v
  | obj fields =>
      exact object fields fun entry hentry => induction_parts scalar text list object entry.2
termination_by sizeOf v
decreasing_by
  · have hlt := List.sizeOf_lt_of_mem hv
    simp_all
    omega
  · have hlt := List.sizeOf_lt_of_mem hentry
    rcases entry with ⟨key, v⟩
    simp_all
    omega

end Value

/-! ## Words and numerals -/

namespace Value

def words : List Value :=
  [.absent, .null, .bool true, .bool false, .float (.infinite true), .float (.infinite false),
    .float .nan]

theorem scalar_cases {v : Value} (h : v.form = .scalar) :
    v ∈ words ∨ (∃ n, v = .int n) ∨ ∃ x, v = .float (.finite x) := by
  cases v with
  | absent | null => exact .inl (by decide)
  | bool b => cases b <;> exact .inl (by decide)
  | int n => exact .inr (.inl ⟨n, rfl⟩)
  | float x =>
      cases x with
      | finite x => exact .inr (.inr ⟨x, rfl⟩)
      | infinite negative => cases negative <;> exact .inl (by decide)
      | nan => exact .inl (by decide)
  | str s => cases h
  | list items => cases h
  | obj fields => cases h

theorem words_chars {v : Value} (hv : v ∈ words) :
    ∀ c ∈ v.shown.toList, c ∉ followers ++ openers := by
  have hall : ∀ v ∈ words,
      v.shown.toList.all (fun c => decide (c ∉ followers ++ openers)) = true := by decide
  exact forall_mem_of_all (hall v hv)

theorem words_shown_injective : ∀ v ∈ words, ∀ w ∈ words, v.shown = w.shown → v = w := by decide

theorem words_other_char {v : Value} (hv : v ∈ words) :
    ∃ c ∈ v.shown.toList, isNumeralChar c = false := by
  have hany : ∀ v ∈ words, v.shown.toList.any (fun c => !isNumeralChar c) = true := by decide
  simpa using hany v hv

theorem numeralChar_not_mem {c : Char} (h : isNumeralChar c = true ∧ isSpace c = false) :
    c ∉ followers ++ openers := by
  have hother : ∀ c ∈ followers ++ openers, ¬ (isNumeralChar c = true ∧ isSpace c = false) :=
    forall_mem_of_all (by decide)
  exact fun hmem => hother c hmem h

theorem intText_chars (n : Int) : ∀ c ∈ (intText n).toList, c.isDigit = true ∨ c = '-' := by
  intro c hc
  rw [toList_intText] at hc
  split at hc
  · rcases List.mem_cons.mp hc with heq | hc
    · exact .inr heq
    · exact .inl (isDigit_of_mem_toDigits c hc)
  · exact .inl (isDigit_of_mem_toDigits c hc)

theorem intText_numeralChars (n : Int) :
    ∀ c ∈ (intText n).toList, isNumeralChar c = true ∧ isSpace c = false := by
  intro c hc
  rcases intText_chars n c hc with hdigit | heq
  · exact ⟨isNumeralChar_of_digit (by simp [digit?_of_isDigit hdigit]), isSpace_of_isDigit hdigit⟩
  · rw [heq]
    decide

theorem finiteText_numeralChars (x : Finite) :
    ∀ c ∈ x.text.toList, isNumeralChar c = true ∧ isSpace c = false := by
  intro c hc
  refine ⟨number?_str_chars (by simp [x.number?_text]) c hc, ?_⟩
  rcases x.text_writes with ⟨body, digits, e, htext, hwrites, -⟩
  rw [htext, String.toList_ofList] at hc
  split at hc
  · rcases List.mem_cons.mp hc with heq | hc
    · rw [heq]
      decide
    · exact hwrites.unspaced c hc
  · exact hwrites.unspaced c hc

theorem finiteText_marked (x : Finite) : '.' ∈ x.text.toList ∨ 'e' ∈ x.text.toList := by
  have hdigits : ∀ ds p, '.' ∈ Finite.writeDigits ds p ∨ 'e' ∈ Finite.writeDigits ds p := by
    intro ds p
    unfold Finite.writeDigits
    split
    · split <;> exact .inl (by simp)
    · exact .inr (by simp)
  have hsigned : ∀ body : List Char, '.' ∈ body ∨ 'e' ∈ body →
      '.' ∈ (if x.negative then '-' :: body else body) ∨
        'e' ∈ (if x.negative then '-' :: body else body) := by
    intro body h
    split
    · exact h.imp (List.mem_cons_of_mem _) (List.mem_cons_of_mem _)
    · exact h
  rw [Finite.text, String.toList_ofList]
  apply hsigned
  split
  · exact .inl (by decide)
  · exact hdigits _ _

theorem finiteText_ne_intText (x : Finite) (n : Int) : x.text ≠ intText n := by
  intro h
  have hmarked := finiteText_marked x
  rw [h] at hmarked
  rcases hmarked with hpoint | hletter
  · exact absurd (intText_chars n _ hpoint) (by decide)
  · exact absurd (intText_chars n _ hletter) (by decide)

/-- Words and numerals hold nothing that follows a value or starts another form. -/
theorem scalar_chars {v : Value} (h : v.form = .scalar) :
    ∀ c ∈ v.shown.toList, c ∉ followers ++ openers := by
  rcases scalar_cases h with hword | ⟨n, rfl⟩ | ⟨x, rfl⟩
  · exact words_chars hword
  · exact fun c hc => numeralChar_not_mem (intText_numeralChars n c hc)
  · exact fun c hc => numeralChar_not_mem (finiteText_numeralChars x c hc)

theorem word_shown_ne {v w : Value} (hv : v ∈ words)
    (hw : ∀ c ∈ w.shown.toList, isNumeralChar c = true ∧ isSpace c = false) :
    v.shown ≠ w.shown := by
  intro h
  rcases words_other_char hv with ⟨c, hc, hother⟩
  rw [h] at hc
  have hnumeral := (hw c hc).1
  rw [hother] at hnumeral
  cases hnumeral

/-- Different values that are no texts, lists or objects are shown
differently. -/
theorem scalar_shown_injective {v w : Value} (hv : v.form = .scalar) (hw : w.form = .scalar)
    (h : v.shown = w.shown) : v = w := by
  rcases scalar_cases hv with hvword | ⟨m, rfl⟩ | ⟨x, rfl⟩
  · rcases scalar_cases hw with hwword | ⟨n, rfl⟩ | ⟨y, rfl⟩
    · exact words_shown_injective v hvword w hwword h
    · exact absurd h (word_shown_ne hvword (intText_numeralChars n))
    · exact absurd h (word_shown_ne hvword (finiteText_numeralChars y))
  · rcases scalar_cases hw with hwword | ⟨n, rfl⟩ | ⟨y, rfl⟩
    · exact absurd h.symm (word_shown_ne hwword (intText_numeralChars m))
    · exact congrArg int (intText_injective h)
    · exact absurd h.symm (finiteText_ne_intText y m)
  · rcases scalar_cases hw with hwword | ⟨n, rfl⟩ | ⟨y, rfl⟩
    · exact absurd h.symm (word_shown_ne hwword (finiteText_numeralChars x))
    · exact absurd h (finiteText_ne_intText x n)
    · exact congrArg (fun z => float (.finite z)) (Finite.text_injective h)

theorem scalar_shown_ne_nil {v : Value} (h : v.form = .scalar) : v.shown.toList ≠ [] := by
  rcases scalar_cases h with hword | ⟨n, rfl⟩ | ⟨x, rfl⟩
  · have hwords : ∀ v ∈ words, v.shown.toList ≠ [] := by decide
    exact hwords v hword
  · have hdigits : Nat.toDigits 10 n.natAbs ≠ [] := Nat.toDigits_ne_nil
    rw [shown, toList_intText]
    split
    · exact List.cons_ne_nil _ _
    · exact hdigits
  · intro hempty
    have hmarked := finiteText_marked x
    rw [show x.text.toList = [] from hempty] at hmarked
    simp at hmarked

/-! ## Printed values -/

/-- The form that the first character of a printed value tells. -/
def leadForm (c : Char) : Form :=
  if c = '\'' ∨ c = '"' then .text
  else if c = '[' then .list
  else if c = '\x7b' then .object
  else .scalar

theorem leadForm_of_not_mem {c : Char} (h : c ∉ openers) : leadForm c = .scalar := by
  simp only [openers, List.mem_cons, List.not_mem_nil, or_false, not_or] at h
  simp [leadForm, h]

theorem toList_shown_list (items : List Value) :
    (list items).shown.toList =
      '[' :: ([',', ' '].intercalate (items.map fun v => v.shown.toList) ++ [']']) := by
  simp [shown, shownItems_eq_map, Function.comp_def]

def entryChars (entry : String × Value) : List Char :=
  (quoted entry.1).toList ++ ([':', ' '] ++ entry.2.shown.toList)

theorem toList_shown_obj (fields : List (String × Value)) :
    (obj fields).shown.toList =
      '\x7b' :: ([',', ' '].intercalate (fields.map entryChars) ++ ['\x7d']) := by
  have hfields : (shownFields fields).map String.toList = fields.map entryChars := by
    induction fields with
    | nil => rfl
    | cons entry rest ih => simp [shownFields, ih, entryChars]
  simp [shown, hfields]

theorem exists_lead (v : Value) :
    ∃ c rest, v.shown.toList = c :: rest ∧ leadForm c = v.form ∧ c ∉ followers := by
  cases hform : v.form with
  | scalar =>
      rcases List.exists_cons_of_ne_nil (scalar_shown_ne_nil hform) with ⟨c, rest, heq⟩
      have hc := scalar_chars hform c (by simp [heq])
      rw [List.mem_append, not_or] at hc
      exact ⟨c, rest, heq, leadForm_of_not_mem hc.2, hc.1⟩
  | text =>
      rcases exists_str_of_form hform with ⟨s, rfl⟩
      refine ⟨_, _, toList_quoted s, ?_⟩
      rcases quoteFor_cases s.toList with hquote | hquote
      · rw [hquote]
        decide
      · rw [hquote]
        decide
  | list =>
      rcases exists_list_of_form hform with ⟨items, rfl⟩
      exact ⟨_, _, toList_shown_list items, by decide, by decide⟩
  | object =>
      rcases exists_obj_of_form hform with ⟨fields, rfl⟩
      exact ⟨_, _, toList_shown_obj fields, by decide, by decide⟩

theorem shown_append_ne {c : Char} (hc : c ∈ followers) (v : Value) (s t : List Char) :
    v.shown.toList ++ s ≠ c :: t := by
  rcases v.exists_lead with ⟨d, rest, heq, -, hd⟩
  intro h
  rw [heq] at h
  rw [← (List.cons.inj h).1] at hc
  exact hd hc

theorem form_eq_of_shown_append {v w : Value} {s t : List Char}
    (h : v.shown.toList ++ s = w.shown.toList ++ t) : v.form = w.form := by
  rcases v.exists_lead with ⟨c, rest, hv, hvform, -⟩
  rcases w.exists_lead with ⟨d, rest', hw, hwform, -⟩
  rw [hv, hw] at h
  rw [← hvform, ← hwform, (List.cons.inj h).1]

theorem scalar_splitsAlike {v w : Value} (hv : v.form = .scalar) (hw : w.form = .scalar) :
    SplitsAlike (fun v => v.shown.toList) Eq v w := by
  intro s t hs ht h
  have hchars : ∀ {v : Value}, v.form = .scalar → ∀ c ∈ v.shown.toList, c ∉ followers :=
    fun h c hc hmem => scalar_chars h c hc (List.mem_append_left _ hmem)
  rcases run_append_inj (hchars hv) (hchars hw) hs ht h with ⟨htext, hend⟩
  exact ⟨scalar_shown_injective hv hw (String.toList_inj.mp htext), hend⟩

theorem entry_splitsAlike {x y : String × Value}
    (h : SplitsAlike (fun v => v.shown.toList) Eq x.2 y.2) : SplitsAlike entryChars Eq x y := by
  intro s t hs ht heq
  simp only [entryChars, List.append_assoc] at heq
  rcases quoted_append_inj heq with ⟨hkey, hrest⟩
  rcases h s t hs ht (List.append_cancel_left hrest) with ⟨hvalue, hend⟩
  exact ⟨Prod.ext hkey hvalue, hend⟩

theorem entry_append_ne (x : String × Value) (s t : List Char) :
    entryChars x ++ s ≠ '\x7d' :: t := by
  intro h
  rw [entryChars, toList_quoted] at h
  have hquote : quoteFor x.1.toList = '\x7d' := (List.cons.inj h).1
  rcases quoteFor_cases x.1.toList with hcase | hcase
  · simp [hcase] at hquote
  · simp [hcase] at hquote

/-- Different values print differently, and each ends at one place. -/
theorem shown_splitsAlike (v w : Value) : SplitsAlike (fun v => v.shown.toList) Eq v w := by
  induction v using induction_parts generalizing w with
  | scalar v hv =>
      intro s t hs ht h
      have hw : w.form = .scalar := (form_eq_of_shown_append h).symm.trans hv
      exact scalar_splitsAlike hv hw s t hs ht h
  | text a =>
      intro s t hs ht h
      rcases exists_str_of_form (form_eq_of_shown_append h).symm with ⟨b, rfl⟩
      rcases quoted_append_inj h with ⟨htext, hend⟩
      exact ⟨congrArg str htext, hend⟩
  | list items ih =>
      intro s t hs ht h
      rcases exists_list_of_form (form_eq_of_shown_append h).symm with ⟨others, rfl⟩
      simp only [toList_shown_list] at h
      rcases listed_append_inj (by decide) (by decide)
        (fun x hx y _ => ih x hx y) (shown_append_ne (by decide)) (List.cons.inj h).2 with
        ⟨hitems, hend⟩
      exact ⟨congrArg list hitems, hend⟩
  | object fields ih =>
      intro s t hs ht h
      rcases exists_obj_of_form (form_eq_of_shown_append h).symm with ⟨others, rfl⟩
      simp only [toList_shown_obj] at h
      rcases listed_append_inj (by decide) (by decide)
        (fun x hx y _ => entry_splitsAlike (ih x hx y.2)) entry_append_ne (List.cons.inj h).2 with
        ⟨hfields, hend⟩
      exact ⟨congrArg obj hfields, hend⟩

end Value

end FormRules
