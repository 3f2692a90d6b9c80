import FormRules.Condition.Description
import FormRules.Proofs.ConditionMeaning
import FormRules.Proofs.ConditionTrees
import FormRules.Proofs.PrintedValues

/-!
# What a description says

The description of a tree without unknown operators, whose fields have no white
space, quotes or brackets in them, can be taken apart again: into the field, the
operator and the value of a leaf, and into the children of a group.  The operator of
a group shows before the bracket or between two children.  So trees with one
description are alike but for the operators of groups with fewer than two children,
and such an operator makes no difference unless the group is empty: an empty group
means true or false by its operator, which its description leaves out.
-/

namespace FormRules

open Text

namespace Comparator

theorem symbol_injective {op op' : Comparator} (h : op.symbol = op'.symbol) : op = op' := by
  have hall : ∀ op ∈ all, ∀ op' ∈ all, op.symbol = op'.symbol → op = op' := by decide
  exact hall op (mem_all op) op' (mem_all op') h

theorem symbol_chars (op : Comparator) : ∀ c ∈ op.symbol.toList, c ∉ followers ∧ c ≠ '(' := by
  cases op <;> exact forall_mem_of_all (by decide)

theorem symbol_ne_nil (op : Comparator) : op.symbol.toList ≠ [] := by
  cases op <;> decide

/-- The characters a comparison ends with, after the sign of the operator. -/
def expectedChars (op : Comparator) (expected : Value) : List Char :=
  if op.isValueless then [] else ' ' :: expected.shown.toList

theorem toList_describe (op : Comparator) (field : String) (expected : Value) :
    (op.describe field expected).toList =
      field.toList ++ ' ' :: (op.symbol.toList ++ op.expectedChars expected) := by
  cases op <;> simp [describe, expectedChars, isValueless, symbol]

theorem follows_expectedChars {s : List Char} (hs : Follows s) (op : Comparator)
    (expected : Value) : Follows (op.expectedChars expected ++ s) := by
  unfold expectedChars
  split
  · exact hs
  · exact follows_cons (by decide)

theorem holds_of_isValueless {op : Comparator} (h : op.isValueless = true) (mode : CaseMode)
    (value expected expected' : Value) :
    op.holds mode value expected = op.holds mode value expected' := by
  cases op <;> first | rfl | cases h

end Comparator

namespace Condition

/-! ## Trees that can be shown -/

/-- White space, a quote or a bracket. -/
def IsMark (c : Char) : Prop :=
  isSpace c = true ∨ c ∈ ['\'', '"', '(', ')', '[', ']', '\x7b', '\x7d']

instance : DecidablePred IsMark := fun _ => inferInstanceAs (Decidable (_ ∨ _))

def UnmarkedFields (c : Condition) : Prop :=
  ∀ field ∈ c.references, ∀ ch ∈ field.toList, ¬ IsMark ch

/-- Every operator of the tree is known, and every field a text without marks. -/
inductive Showable : Condition → Prop where
  | leaf {field : String} {op : Comparator} {value : Value} (hne : field ≠ "")
      (hfield : ∀ ch ∈ field.toList, ¬ IsMark ch) : Showable (.leaf field (.known op) value)
  | group {op : Connective} {children : List Condition} (h : ∀ c ∈ children, Showable c) :
      Showable (.group (.known op) children)

theorem Storable.showable {c : Condition} (h : c.Storable)
    (hknown : ∀ d ∈ c.walk, d.unsupportedOperator? = none)
    (hfields : ∀ d ∈ c.walk, ∀ field ∈ d.field?, ∀ ch ∈ field.toList, ¬ IsMark ch) :
    c.Showable := by
  induction h with
  | @leaf field operator value hne _ =>
      have hself := hknown _ (mem_walk_self _)
      cases operator with
      | known op => exact .leaf hne (hfields _ (mem_walk_self _) field rfl)
      | named name => cases hself
      | numbered n => cases hself
  | @group operator children _ _ ih =>
      have hself := hknown _ (mem_walk_self _)
      cases operator with
      | known op =>
          apply Showable.group
          intro child hchild
          exact ih child hchild (fun d hd => hknown d (mem_walk_group hchild hd))
            (fun d hd => hfields d (mem_walk_group hchild hd))
      | named name => cases hself
      | numbered n => cases hself

theorem showable_of_readEither {v : Value} {c : Condition} (hread : readEither v = .ok c)
    (hsupported : c.unsupportedOperators = []) (hfields : c.UnmarkedFields) : c.Showable := by
  apply (readEither_storable hread).showable
  · exact fun d hd => unsupportedOperator?_eq_none hsupported hd
  · intro d hd field hfield
    exact hfields field (mem_references_iff.mpr ⟨d, hd, hfield⟩)

theorem isBlank_of_unmarked {field : String} (hne : field ≠ "")
    (hfield : ∀ ch ∈ field.toList, ¬ IsMark ch) : isBlank field = false := by
  rcases List.exists_cons_of_ne_nil (mt String.toList_eq_nil_iff.mp hne) with ⟨ch, rest, hchars⟩
  have hspace : isSpace ch ≠ true := fun h => hfield ch (by simp [hchars]) (.inl h)
  simp [isBlank, hchars, hspace]

theorem Showable.named {c : Condition} (h : c.Showable) :
    ∀ field ∈ c.references, isBlank field = false := by
  intro field hfield
  rcases mem_references_iff.mp hfield with ⟨d, hd, hof⟩
  induction h with
  | @leaf own op value hne hchars =>
      have heq : d = Condition.leaf own (.known op) value := by
        simpa [walk_eq_preorder, preorder] using hd
      subst heq
      cases hof
      exact isBlank_of_unmarked hne hchars
  | group _ ih =>
      rw [walk_eq_preorder, preorder] at hd
      rcases List.mem_cons.mp hd with heq | hd
      · subst heq
        cases hof
      · rcases mem_preorderAll_iff.mp hd with ⟨child, hchild, hdchild⟩
        rw [← walk_eq_preorder] at hdchild
        exact ih child hchild (mem_references_iff.mpr ⟨d, hdchild, hof⟩) hdchild

/-- Two trees with one description: their leaves compare alike, and their groups
join alike when there is something to join. -/
inductive LooksAlike : Condition → Condition → Prop where
  | leaf {field : String} {op : Comparator} {value value' : Value}
      (h : op.isValueless = true ∨ value = value') :
      LooksAlike (.leaf field (.known op) value) (.leaf field (.known op) value')
  | group {op op' : Connective} {children children' : List Condition}
      (hop : op = op' ∨ op ≠ .negation ∧ op' ≠ .negation ∧ children.length ≤ 1)
      (h : List.Forall₂ LooksAlike children children') :
      LooksAlike (.group (.known op) children) (.group (.known op') children')

/-! ## Taking a description apart -/

/-! ### Leaves -/

theorem toList_describe_leaf (field : String) (op : Comparator) (value : Value) (s : List Char) :
    (leaf field (.known op) value).describe.toList ++ s =
      field.toList ++ ' ' :: (op.symbol.toList ++ (op.expectedChars value ++ s)) := by
  rw [describe, OperatorId.describe, Comparator.toList_describe]
  simp

theorem head_space (s : List Char) : ∀ c ∈ (' ' :: s).head?, IsMark c := by
  simp only [List.head?_cons, Option.mem_def, Option.some.injEq, forall_eq']
  decide

/-- The text of a leaf tells its field, its operator and its value, unless the
operator takes none. -/
theorem leaf_splitsAlike {field field' : String} {op op' : Comparator} {value value' : Value}
    (hfield : ∀ ch ∈ field.toList, ¬ IsMark ch) (hfield' : ∀ ch ∈ field'.toList, ¬ IsMark ch) :
    SplitsAlike (fun c => c.describe.toList) LooksAlike (.leaf field (.known op) value)
      (.leaf field' (.known op') value') := by
  intro s t hs ht h
  simp only [toList_describe_leaf] at h
  rcases run_append_inj hfield hfield' (head_space _) (head_space _) h with ⟨hfields, hcomparison⟩
  rcases run_append_inj (fun c hc => (op.symbol_chars c hc).1)
    (fun c hc => (op'.symbol_chars c hc).1) (Comparator.follows_expectedChars hs op value)
    (Comparator.follows_expectedChars ht op' value') (List.cons.inj hcomparison).2 with
    ⟨hsymbols, hexpected⟩
  have hfield_eq : field = field' := String.toList_inj.mp hfields
  have hop_eq : op = op' := Comparator.symbol_injective (String.toList_inj.mp hsymbols)
  subst hfield_eq hop_eq
  unfold Comparator.expectedChars at hexpected
  split at hexpected
  · rename_i hvalueless
    exact ⟨.leaf (.inl hvalueless), hexpected⟩
  · rcases Value.shown_splitsAlike value value' s t hs ht (List.cons.inj hexpected).2 with
      ⟨hvalue, hend⟩
    exact ⟨.leaf (.inr hvalue), hend⟩

theorem leaf_append_ne {field : String} {op : Comparator} {value : Value} (hne : field ≠ "")
    (hfield : ∀ ch ∈ field.toList, ¬ IsMark ch) {mark : Char} (hmark : IsMark mark)
    (s t : List Char) : (leaf field (.known op) value).describe.toList ++ s ≠ mark :: t := by
  rcases List.exists_cons_of_ne_nil (mt String.toList_eq_nil_iff.mp hne) with ⟨ch, rest, hchars⟩
  intro h
  rw [toList_describe_leaf, hchars] at h
  rw [← (List.cons.inj h).1] at hmark
  exact hfield ch (by simp [hchars]) hmark

/-! ### Groups -/

/-- What the description of a group starts with. -/
def openingChars : Connective → List Char
  | .negation => ['N', 'O', 'T', ' ', '(']
  | _ => ['(']

/-- What stands between two children, after the first space. -/
def joinerChars : Connective → List Char
  | .disjunction => ['O', 'R', ' ']
  | _ => ['A', 'N', 'D', ' ']

theorem toList_describe_group (op : Connective) (children : List Condition) (s : List Char) :
    (group (.known op) children).describe.toList ++ s =
      openingChars op ++ ((' ' :: joinerChars op).intercalate
        (children.map fun c => c.describe.toList) ++ ')' :: s) := by
  rw [describe, describeAll_eq_map]
  cases op <;> simp [OperatorId.describeGroup, openingChars, joinerChars, Function.comp_def]

theorem openingChars_append_inj {op op' : Connective} {s t : List Char}
    (h : openingChars op ++ s = openingChars op' ++ t) :
    (op = .negation ↔ op' = .negation) ∧ s = t := by
  cases op <;> cases op' <;> simp_all [openingChars]

theorem joinerChars_append_inj {op op' : Connective} {s t : List Char}
    (h : joinerChars op ++ s = joinerChars op' ++ t) :
    joinerChars op = joinerChars op' ∧ s = t := by
  cases op <;> cases op' <;> simp_all [joinerChars]

theorem connective_cases {op op' : Connective} {n : Nat}
    (hopening : op = .negation ↔ op' = .negation)
    (hjoiner : joinerChars op = joinerChars op' ∨ n ≤ 1) :
    op = op' ∨ op ≠ .negation ∧ op' ≠ .negation ∧ n ≤ 1 := by
  cases op <;> cases op' <;> simp_all [joinerChars]

/-- No leaf begins like a group. -/
theorem leaf_ne_group {field : String} {op : Comparator} {value : Value} {op' : Connective}
    {children : List Condition} (hne : field ≠ "") (hfield : ∀ ch ∈ field.toList, ¬ IsMark ch)
    (s t : List Char) :
    (leaf field (.known op) value).describe.toList ++ s ≠
      (group (.known op') children).describe.toList ++ t := by
  rw [toList_describe_group]
  cases op' with
  | conjunction => exact leaf_append_ne hne hfield (by decide) _ _
  | disjunction => exact leaf_append_ne hne hfield (by decide) _ _
  | negation =>
      -- A field may be the word that a negation starts with, but a sign is no bracket.
      intro h
      have hword : ∀ ch ∈ ['N', 'O', 'T'], ¬ IsMark ch := forall_mem_of_all (by decide)
      rw [toList_describe_leaf] at h
      rcases run_append_inj hfield hword (head_space _) (head_space _) h with ⟨-, hsign⟩
      rcases List.exists_cons_of_ne_nil op.symbol_ne_nil with ⟨ch, rest, hsymbol⟩
      have hchars := op.symbol_chars ch (by simp [hsymbol])
      rw [hsymbol] at hsign
      exact hchars.2 (List.cons.inj (List.cons.inj hsign).2).1

theorem describe_append_ne {c : Condition} (hc : c.Showable) (s t : List Char) :
    c.describe.toList ++ s ≠ ')' :: t := by
  cases hc with
  | leaf hne hfield => exact leaf_append_ne hne hfield (by decide) s t
  | @group op children h =>
      rw [toList_describe_group]
      cases op <;> simp [openingChars]

/-- Trees that can be shown look alike when they are described alike. -/
theorem describe_splitsAlike {c d : Condition} (hc : c.Showable) (hd : d.Showable) :
    SplitsAlike (fun c => c.describe.toList) LooksAlike c d := by
  -- On the first tree; what follows is left open, since a child has others behind it.
  induction c using induction_children generalizing d with
  | leaf field operator value =>
      cases hc with
      | leaf hne hfield =>
          cases hd with
          | leaf hne' hfield' => exact leaf_splitsAlike hfield hfield'
          | group hchildren' =>
              intro s t hs ht h
              exact absurd h (leaf_ne_group hne hfield s t)
  | group operator children ih =>
      cases hc with
      | group hchildren =>
          cases hd with
          | leaf hne' hfield' =>
              intro s t hs ht h
              exact absurd h.symm (leaf_ne_group hne' hfield' t s)
          | @group op' children' hchildren' =>
              intro s t hs ht h
              simp only [toList_describe_group] at h
              rcases openingChars_append_inj h with ⟨hopening, hrest⟩
              rcases joined_split (by decide) (by decide) (by decide)
                (fun u v h => joinerChars_append_inj h)
                (fun x hx y hy => ih x hx (hchildren x hx) (hchildren' y hy))
                (fun x hx => describe_append_ne (hchildren x hx))
                (fun y hy => describe_append_ne (hchildren' y hy)) hrest with
                ⟨halike, hend, hjoiner⟩
              exact ⟨.group (connective_cases hopening hjoiner) halike, hend⟩

/-! ## Empty groups -/

def emptyGroup? : Condition → Option (OperatorId Connective)
  | .group operator [] => some operator
  | _ => none

/-- The operators of the empty groups of a tree, in the order they are visited. -/
def emptyGroups (c : Condition) : List (OperatorId Connective) := c.walk.filterMap emptyGroup?

theorem emptyGroups_leaf (field : String) (operator : OperatorId Comparator) (value : Value) :
    (leaf field operator value).emptyGroups = [] := by
  rw [emptyGroups, walk_eq_preorder]
  rfl

theorem emptyGroups_group (operator : OperatorId Connective) (children : List Condition) :
    (group operator children).emptyGroups =
      (emptyGroup? (group operator children)).toList ++ children.flatMap emptyGroups := by
  unfold emptyGroups
  simp only [walk_eq_preorder]
  exact filterMap_preorder_group emptyGroup? operator children

/-- Induction on trees that look alike, with the property for the children. -/
@[elab_as_elim]
theorem LooksAlike.induction_children
    {motive : (c d : Condition) → LooksAlike c d → Prop}
    (leaf : ∀ field op value value' (h : op.isValueless = true ∨ value = value'),
      motive (.leaf field (.known op) value) (.leaf field (.known op) value') (.leaf h))
    (group : ∀ op op' children children'
      (hop : op = op' ∨ op ≠ .negation ∧ op' ≠ .negation ∧ children.length ≤ 1)
      (hchildren : List.Forall₂ LooksAlike children children'),
      List.Forall₂ (fun c d => ∃ h, motive c d h) children children' →
      motive (.group (.known op) children) (.group (.known op') children') (.group hop hchildren))
    {c d : Condition} (h : LooksAlike c d) : motive c d h := by
  induction c using Condition.induction_children generalizing d with
  | leaf field operator value =>
      cases h with
      | leaf h => exact leaf _ _ _ _ h
  | group operator children ih =>
      cases h with
      | group hop hchildren =>
          apply group _ _ _ _ hop hchildren
          clear hop
          induction hchildren with
          | nil => exact .nil
          | cons hfirst _ ihrest =>
              exact .cons ⟨hfirst, ih _ List.mem_cons_self hfirst⟩
                (ihrest fun child hchild => ih child (List.mem_cons_of_mem _ hchild))

theorem LooksAlike.length_emptyGroups {c d : Condition} (h : LooksAlike c d) :
    c.emptyGroups.length = d.emptyGroups.length := by
  induction h using LooksAlike.induction_children with
  | leaf field op value value' h => rw [emptyGroups_leaf, emptyGroups_leaf]
  | group op op' children children' hop hchildren ih =>
      have hbelow : (children.flatMap emptyGroups).length =
          (children'.flatMap emptyGroups).length := by
        clear hop hchildren
        induction ih with
        | nil => rfl
        | cons hfirst _ ih =>
            rcases hfirst with ⟨-, hlength⟩
            simp only [List.flatMap_cons, List.length_append, hlength, ih]
      rw [emptyGroups_group, emptyGroups_group, List.length_append, List.length_append, hbelow]
      cases hchildren <;> rfl

/-! ## The same meaning -/

/-- What a group means, from what its children mean. -/
def combine : Connective → List Bool → Bool
  | .conjunction, bs => bs.all id
  | .disjunction, bs => bs.any id
  | .negation, bs => !bs.all id

section Meaning

variable {e : Evaluator} {data : FormData}

theorem meaning_group (op : Connective) (children : List Condition) :
    (group (.known op) children).meaning e data =
      combine op (children.map (meaning e data)) := by
  cases op with
  | conjunction => simp [(meaning_isPlain e data).conjunction, combine, List.all_map]
  | disjunction => simp [(meaning_isPlain e data).disjunction, combine, List.any_map]
  | negation => simp [(meaning_isPlain e data).negation, combine, List.all_map]

theorem combine_singleton {op op' : Connective} (hop : op ≠ .negation) (hop' : op' ≠ .negation)
    (b : Bool) : combine op [b] = combine op' [b] := by
  cases op <;> cases op' <;> simp_all [combine]

theorem map_meaning_eq {children children' : List Condition}
    (h : List.Forall₂ (fun c d => ∃ _ : LooksAlike c d,
      c.emptyGroups = d.emptyGroups → c.meaning e data = d.meaning e data) children children')
    (hempty : children.flatMap emptyGroups = children'.flatMap emptyGroups) :
    children.map (meaning e data) = children'.map (meaning e data) := by
  induction h with
  | nil => rfl
  | cons hfirst _ ih =>
      rcases hfirst with ⟨hlook, hmeaning⟩
      rw [List.flatMap_cons, List.flatMap_cons] at hempty
      rcases List.append_inj hempty hlook.length_emptyGroups with ⟨hhere, hrest⟩
      rw [List.map_cons, List.map_cons, hmeaning hhere, ih hrest]

/-- Conditions that look alike and have the same empty groups mean the same. -/
theorem LooksAlike.meaning_eq {c d : Condition} (h : LooksAlike c d)
    (hempty : c.emptyGroups = d.emptyGroups) : c.meaning e data = d.meaning e data := by
  induction h using LooksAlike.induction_children with
  | leaf field op value value' h =>
      rw [(meaning_isPlain e data).leaf, (meaning_isPlain e data).leaf]
      rcases h with hvalueless | hvalue
      · exact Comparator.holds_of_isValueless hvalueless _ _ _ _
      · rw [hvalue]
  | group op op' children children' hop hchildren ih =>
      rw [emptyGroups_group, emptyGroups_group] at hempty
      have hhead : (emptyGroup? (Condition.group (.known op) children)).toList.length =
          (emptyGroup? (Condition.group (.known op') children')).toList.length := by
        cases hchildren <;> rfl
      -- The operator counts only where nothing is joined, and there it is the same.
      rcases List.append_inj hempty hhead with ⟨hhere, hbelow⟩
      have hmeanings := map_meaning_eq ih hbelow
      rw [meaning_group, meaning_group, hmeanings]
      rcases hop with hsame | ⟨hop, hop', hfew⟩
      · rw [hsame]
      · cases hchildren with
        | nil =>
            have hsame : op = op' := by simpa [emptyGroup?] using hhere
            rw [hsame]
        | cons _ hrest =>
            cases hrest with
            | nil => exact combine_singleton hop hop' _
            | cons _ _ => simp at hfew

end Meaning

end Condition

namespace Evaluator

open Condition

/-- Trees that are described alike, with the same empty groups, are decided alike. -/
theorem evaluate_eq_of_describe_eq {v w : Value} {c d : Condition} (hc : readEither v = .ok c)
    (hd : readEither w = .ok d) (hcsupported : c.unsupportedOperators = [])
    (hdsupported : d.unsupportedOperators = []) (hcfields : c.UnmarkedFields)
    (hdfields : d.UnmarkedFields) (htext : c.describe = d.describe)
    (hempty : c.emptyGroups = d.emptyGroups) (e : Evaluator) (data : FormData)
    (hcdepth : c.depth ≤ e.maxDepth) (hddepth : d.depth ≤ e.maxDepth) :
    ∃ b, e.evaluate data c = .ok b ∧ e.evaluate data d = .ok b := by
  have hcshown := showable_of_readEither hc hcsupported hcfields
  have hdshown := showable_of_readEither hd hdsupported hdfields
  have hcfaultless : c.Faultless e.maxDepth := ⟨hcsupported, hcshown.named, hcdepth⟩
  have hdfaultless : d.Faultless e.maxDepth := ⟨hdsupported, hdshown.named, hddepth⟩
  have hchars : c.describe.toList ++ [] = d.describe.toList ++ [] := by rw [htext]
  have hlook := (describe_splitsAlike hcshown hdshown [] [] follows_nil follows_nil hchars).1
  refine ⟨c.meaning e data, evaluate_of_faultless hcfaultless data, ?_⟩
  rw [evaluate_of_faultless hdfaultless data, hlook.meaning_eq hempty]

/-- A group of one child: the negation of a comparison, with a text and a double in its
list, and of a disjunction of nothing. -/
def storedWrapped (op : Connective) : Value :=
  .obj [("logicalOp", .str op.name), ("conditions", .list [
    .obj [("logicalOp", .str "Not"), ("conditions", .list [
      .obj [("field", .str "f"), ("operator", .str "In"),
        ("value", .list [.str "it's", .float (.finite .zero)])],
      .obj [("logicalOp", .str "Or")]])]])]

def wrapped (op : Connective) : Condition :=
  .group (.known op) [.group (.known .negation)
    [.leaf "f" (.known .isIn) (.list [.str "it's", .float (.finite .zero)]), anyOf []]]

theorem readEither_storedWrapped (op : Connective) :
    readEither (storedWrapped op) = .ok (wrapped op) := by
  cases op <;> with_unfolding_all rfl

theorem wrapped_supported (op : Connective) : (wrapped op).unsupportedOperators = [] := by
  rw [unsupportedOperators, walk_eq_preorder]
  rfl

theorem wrapped_unmarked (op : Connective) : (wrapped op).UnmarkedFields := by
  have hreferences : (wrapped op).references = ["f"] := by
    rw [references, walk_eq_preorder]
    rfl
  unfold UnmarkedFields
  rw [hreferences]
  exact List.forall_mem_singleton.mpr (forall_mem_of_all (by decide))

theorem wrapped_emptyGroups (op : Connective) :
    (wrapped op).emptyGroups = [.known .disjunction] := by
  rw [emptyGroups, walk_eq_preorder]
  rfl

/-- With one child the description leaves the operator out, and rightly so. -/
theorem evaluate_eq_of_describe_eq_wrapped :
    (∀ op, readEither (storedWrapped op) = .ok (wrapped op)) ∧
      (wrapped .conjunction).describe = "(NOT (f In [\"it's\", 0.0] AND ()))" ∧
      (wrapped .conjunction).describe = (wrapped .disjunction).describe ∧
      ∃ b, Evaluator.evaluate ⟨.folded, 3, "current"⟩ .empty (wrapped .conjunction) = .ok b ∧
        Evaluator.evaluate ⟨.folded, 3, "current"⟩ .empty (wrapped .disjunction) = .ok b := by
  have hgroups : (wrapped .conjunction).emptyGroups = (wrapped .disjunction).emptyGroups := by
    rw [wrapped_emptyGroups, wrapped_emptyGroups]
  refine ⟨readEither_storedWrapped, by decide, by decide, ?_⟩
  exact evaluate_eq_of_describe_eq (readEither_storedWrapped .conjunction)
    (readEither_storedWrapped .disjunction) (wrapped_supported _) (wrapped_supported _)
    (wrapped_unmarked _) (wrapped_unmarked _) (by decide) hgroups _ _ (by decide) (by decide)

/-- The conjunction and the disjunction of nothing are described alike and decided
differently. -/
theorem emptyGroups_described_alike :
    (∀ c ∈ [allOf [], anyOf []], readEither c.stored = .ok c ∧ c.unsupportedOperators = [] ∧
      c.UnmarkedFields ∧ c.depth ≤ 1 ∧ c.describe = "()") ∧
      Evaluator.evaluate ⟨.folded, 1, "current"⟩ .empty (allOf []) = .ok true ∧
      Evaluator.evaluate ⟨.folded, 1, "current"⟩ .empty (anyOf []) = .ok false := by
  have hempty : ∀ op, (group (.known op) []).unsupportedOperators = [] ∧
      (group (.known op) []).UnmarkedFields := by
    intro op
    rw [UnmarkedFields, unsupportedOperators, references, walk_eq_preorder]
    exact ⟨rfl, fun field hfield => absurd hfield List.not_mem_nil⟩
  refine ⟨List.forall_mem_cons.mpr ⟨?_, List.forall_mem_singleton.mpr ?_⟩, rfl, rfl⟩
  · have hread : readEither (allOf []).stored = .ok (allOf []) := by with_unfolding_all rfl
    exact ⟨hread, (hempty .conjunction).1, (hempty .conjunction).2, by decide, by decide⟩
  · have hread : readEither (anyOf []).stored = .ok (anyOf []) := by with_unfolding_all rfl
    exact ⟨hread, (hempty .disjunction).1, (hempty .disjunction).2, by decide, by decide⟩

end Evaluator

end FormRules
