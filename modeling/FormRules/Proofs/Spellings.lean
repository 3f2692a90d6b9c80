import FormRules.Hierarchy.Node
import Mathlib.Tactic

/-!
# Spellings of stored values

The keys of stored conditions, rules and nodes may be spelled in several ways,
and so may the names of known operators.  Two values are spellings of one
another when they differ in nothing else, at any depth of the conditions and
rules they hold; what a condition compares with, or what a node carries along,
is no part of that structure and stays as it is.

Among the spellings of a value there is one in which every key is the preferred
one of its field and every known operator goes by its name.  Values are
spellings of one another exactly when that one is the same for both.
-/

namespace FormRules

deriving instance DecidableEq for FieldKey

namespace Stored

/-- The stored objects whose keys can be spelled in several ways. -/
inductive Layout where
  | condition
  | rule
  | node
deriving DecidableEq

/-- What the value of an entry stands for. -/
inductive Role where
  /-- A value that is taken as it is. -/
  | plain
  | comparator
  | connective
  | one (layout : Layout)
  | many (layout : Layout)
deriving DecidableEq

/-- The fields of a stored object; those of a condition may be of either shape. -/
def Layout.fields : Layout → List (FieldKey × Role)
  | condition =>
    [(Condition.fieldKey, .plain), (Condition.operatorKey, .comparator),
      (Condition.valueKey, .plain), (Condition.connectiveKey, .connective),
      (Condition.childrenKey, .many condition)]
  | rule =>
    [(Rule.idKey, .plain), (Rule.descriptionKey, .plain), (Rule.conditionKey, .one condition),
      (Rule.actionKey, .plain), (Rule.targetFieldKey, .plain), (Rule.targetStepKey, .plain),
      (Rule.targetModuleKey, .plain), (Rule.priorityKey, .plain), (Rule.isActiveKey, .plain),
      (Rule.categoryKey, .plain), (Rule.tagsKey, .plain)]
  | node =>
    [(Node.idKey, .plain), (Node.parentKey, .plain), (Node.typeKey, .plain),
      (Node.orderKey, .plain), (Node.dependenciesKey, .plain), (Node.rulesKey, .many rule),
      (Node.payloadKey, .plain)]

def Layout.keys (layout : Layout) : List FieldKey := layout.fields.map (·.1)

mutual

/-- The second value is the first with keys and known operators spelled in
another way. -/
inductive Respelled : Role → Value → Value → Prop where
  | same (role : Role) (v : Value) : Respelled role v v
  | comparator {s t : String} (hknown : (Comparator.ofName? s).isSome = true)
      (hname : Text.sameName s t = true) : Respelled .comparator (.str s) (.str t)
  | connective {s t : String} (hknown : (Connective.ofName? s).isSome = true)
      (hname : Text.sameName s t = true) : Respelled .connective (.str s) (.str t)
  | one {layout : Layout} {fields others : Fields} (h : RespelledEntries layout fields others) :
      Respelled (.one layout) (.obj fields) (.obj others)
  | many {layout : Layout} {items others : List Value} (h : RespelledItems layout items others) :
      Respelled (.many layout) (.list items) (.list others)

inductive RespelledEntries : Layout → Fields → Fields → Prop where
  | nil (layout : Layout) : RespelledEntries layout [] []
  | field {layout : Layout} {key : FieldKey} {role : Role} {k l : String} {v w : Value}
      {rest others : Fields} (hfield : (key, role) ∈ layout.fields) (hk : k ∈ key.spellings)
      (hl : l ∈ key.spellings) (hvalue : Respelled role v w)
      (hrest : RespelledEntries layout rest others) :
      RespelledEntries layout ((k, v) :: rest) ((l, w) :: others)
  | other {layout : Layout} {rest others : Fields} (entry : String × Value)
      (hrest : RespelledEntries layout rest others) :
      RespelledEntries layout (entry :: rest) (entry :: others)

inductive RespelledItems : Layout → List Value → List Value → Prop where
  | nil (layout : Layout) : RespelledItems layout [] []
  | cons {layout : Layout} {v w : Value} {rest others : List Value}
      (hitem : Respelled (.one layout) v w) (hrest : RespelledItems layout rest others) :
      RespelledItems layout (v :: rest) (w :: others)

end

/-! ## The plain spelling -/

/-- The field a key is a spelling of. -/
def Layout.field? (layout : Layout) (k : String) : Option (FieldKey × Role) :=
  layout.fields.find? fun f => f.1.spellings.contains k

/-- The name of the operator a text stands for, and otherwise the text. -/
def operatorName {Known : Type} (name : Known → String) (ofName? : String → Option Known)
    (s : String) : String :=
  ((ofName? s).map name).getD s

mutual

/-- The value with preferred keys and with the names of its known operators. -/
def plainForm : Role → Value → Value
  | .comparator, .str s => .str (operatorName Comparator.name Comparator.ofName? s)
  | .connective, .str s => .str (operatorName Connective.name Connective.ofName? s)
  | .one layout, .obj fields => .obj (plainEntries layout fields)
  | .many layout, .list items => .list (plainItems layout items)
  | _, v => v

def plainEntries (layout : Layout) : Fields → Fields
  | [] => []
  | (k, v) :: rest =>
    (match layout.field? k with
      | some (key, role) => (key.preferred, plainForm role v)
      | none => (k, v)) :: plainEntries layout rest

def plainItems (layout : Layout) : List Value → List Value
  | [] => []
  | v :: rest => plainForm (.one layout) v :: plainItems layout rest

end

section Entry

variable {layout : Layout} {key : FieldKey} {role : Role} {k : String}

theorem field?_of_mem : ∀ layout : Layout, ∀ f ∈ layout.fields, ∀ k ∈ f.1.spellings,
    layout.field? k = some f := by
  intro layout
  cases layout <;> decide

theorem mem_of_field? (h : layout.field? k = some (key, role)) :
    (key, role) ∈ layout.fields ∧ k ∈ key.spellings := by
  refine ⟨List.mem_of_find?_eq_some h, ?_⟩
  simpa using List.find?_some h

theorem field?_eq_some_iff :
    layout.field? k = some (key, role) ↔ (key, role) ∈ layout.fields ∧ k ∈ key.spellings :=
  ⟨mem_of_field?, fun h => field?_of_mem layout (key, role) h.1 k h.2⟩

/-- An entry with its key and its value in the plain spelling. -/
def plainEntry (layout : Layout) (entry : String × Value) : String × Value :=
  match layout.field? entry.1 with
  | some (key, role) => (key.preferred, plainForm role entry.2)
  | none => entry

theorem plainEntries_eq_map (layout : Layout) (fields : Fields) :
    plainEntries layout fields = fields.map (plainEntry layout) := by
  induction fields with
  | nil => rfl
  | cons entry rest ih =>
      rw [plainEntries, ih, List.map_cons]
      rfl

theorem plainEntry_of_field {entry : String × Value} (hfield : (key, role) ∈ layout.fields)
    (hk : entry.1 ∈ key.spellings) :
    plainEntry layout entry = (key.preferred, plainForm role entry.2) := by
  unfold plainEntry
  rw [field?_eq_some_iff.mpr ⟨hfield, hk⟩]

theorem plainEntry_of_other {entry : String × Value} (h : layout.field? entry.1 = none) :
    plainEntry layout entry = entry := by
  unfold plainEntry
  rw [h]

theorem field?_plainEntry (layout : Layout) (entry : String × Value) :
    layout.field? (plainEntry layout entry).1 = layout.field? entry.1 := by
  cases hfield : layout.field? entry.1 with
  | none => rw [plainEntry_of_other hfield, hfield]
  | some f =>
      rcases mem_of_field? hfield with ⟨hmem, hk⟩
      rw [plainEntry_of_field hmem hk]
      exact field?_eq_some_iff.mpr ⟨hmem, List.mem_cons_self⟩

/-- The plain spelling of a key belongs to the same fields. -/
theorem plainEntry_mem_spellings_iff (hfield : (key, role) ∈ layout.fields)
    (entry : String × Value) :
    (plainEntry layout entry).1 ∈ key.spellings ↔ entry.1 ∈ key.spellings := by
  have hiff : ∀ k, k ∈ key.spellings ↔ layout.field? k = some (key, role) := by
    intro k
    rw [field?_eq_some_iff]
    exact (and_iff_right hfield).symm
  rw [hiff, hiff, field?_plainEntry]

end Entry

/-! ## Values with one plain spelling -/

section Operators

variable {Known : Type} {name : Known → String} {ofName? : String → Option Known} {s t : String}

/-- The texts that stand for an operator are the spellings of its name. -/
structure Spells (name : Known → String) (ofName? : String → Option Known) : Prop where
  ofName?_name : ∀ op, ofName? (name op) = some op
  sameName : ∀ s op, ofName? s = some op → Text.sameName (name op) s = true
  congr : ∀ s t, Text.sameName s t = true → ofName? s = ofName? t

theorem sameName_iff : Text.sameName s t = true ↔ Text.spellingKey s = Text.spellingKey t :=
  beq_iff_eq

theorem spells_of_find? {all : List Known} (hname : ∀ op, ofName? (name op) = some op)
    (hfind : ∀ s, ofName? s = all.find? fun op => Text.sameName (name op) s) :
    Spells name ofName? := by
  constructor
  · exact hname
  · intro s op hop
    rw [hfind] at hop
    exact List.find?_some (p := fun op => Text.sameName (name op) s) hop
  · intro s t hst
    have hkey := sameName_iff.mp hst
    rw [hfind, hfind]
    unfold Text.sameName
    rw [hkey]

theorem spells_comparator : Spells Comparator.name Comparator.ofName? :=
  spells_of_find? (by intro op; cases op <;> decide) fun _ => rfl

theorem spells_connective : Spells Connective.name Connective.ofName? :=
  spells_of_find? (by intro op; cases op <;> decide) fun _ => rfl

/-- Two names have the same preferred spelling when they are the same or name
one known operator. -/
theorem Spells.operatorName_eq_iff (h : Spells name ofName?) :
    operatorName name ofName? s = operatorName name ofName? t ↔
      s = t ∨ ((ofName? s).isSome = true ∧ Text.sameName s t = true) := by
  unfold operatorName
  constructor
  · intro heq
    cases hs : ofName? s with
    | none =>
        cases ht : ofName? t with
        | none => exact .inl (by simpa [hs, ht] using heq)
        | some b =>
            have hst : s = name b := by simpa [hs, ht] using heq
            rw [hst, h.ofName?_name] at hs
            simp at hs
    | some a =>
        cases ht : ofName? t with
        | none =>
            have hst : name a = t := by simpa [hs, ht] using heq
            rw [← hst, h.ofName?_name] at ht
            simp at ht
        | some b =>
            have hnames : name a = name b := by simpa [hs, ht] using heq
            have ha := sameName_iff.mp (h.sameName s a hs)
            have hb := sameName_iff.mp (h.sameName t b ht)
            exact .inr ⟨rfl, sameName_iff.mpr (by rw [← ha, ← hb, hnames])⟩
  · intro hcase
    rcases hcase with heq | ⟨hknown, hst⟩
    · rw [heq]
    · rcases Option.isSome_iff_exists.mp hknown with ⟨op, hop⟩
      rw [← h.congr s t hst, hop]
      rfl

end Operators

theorem plainForm_plain (v : Value) : plainForm .plain v = v := by
  cases v <;> rfl

/-- Whether a value is more than taken as it is. -/
def structured : Role → Value → Bool
  | .comparator, .str _ => true
  | .connective, .str _ => true
  | .one _, .obj _ => true
  | .many _, .list _ => true
  | _, _ => false

theorem structured_plainForm (role : Role) (v : Value) :
    structured role (plainForm role v) = structured role v := by
  cases role <;> cases v <;> rfl

theorem plainForm_of_not_structured {role : Role} {v : Value} (h : structured role v = false) :
    plainForm role v = v := by
  cases role <;> cases v <;> first | rfl | cases h

theorem plainEntries_cons (layout : Layout) (entry : String × Value) (rest : Fields) :
    plainEntries layout (entry :: rest) =
      plainEntry layout entry :: plainEntries layout rest := rfl

mutual

theorem Respelled.plainForm_eq {role : Role} {v w : Value} :
    Respelled role v w → plainForm role v = plainForm role w
  | .same _ _ => rfl
  | .comparator hknown hname => by
      have hnames := spells_comparator.operatorName_eq_iff.mpr (.inr ⟨hknown, hname⟩)
      rw [plainForm, plainForm, hnames]
  | .connective hknown hname => by
      have hnames := spells_connective.operatorName_eq_iff.mpr (.inr ⟨hknown, hname⟩)
      rw [plainForm, plainForm, hnames]
  | .one h => by rw [plainForm, plainForm, h.plainEntries_eq]
  | .many h => by rw [plainForm, plainForm, h.plainItems_eq]

theorem RespelledEntries.plainEntries_eq {layout : Layout} {fields others : Fields} :
    RespelledEntries layout fields others →
      plainEntries layout fields = plainEntries layout others
  | .nil _ => rfl
  | .field hfield hk hl hvalue hrest => by
      rw [plainEntries_cons, plainEntries_cons, plainEntry_of_field hfield hk,
        plainEntry_of_field hfield hl, hvalue.plainForm_eq, hrest.plainEntries_eq]
  | .other _ hrest => by rw [plainEntries_cons, plainEntries_cons, hrest.plainEntries_eq]

theorem RespelledItems.plainItems_eq {layout : Layout} {items others : List Value} :
    RespelledItems layout items others → plainItems layout items = plainItems layout others
  | .nil _ => rfl
  | .cons hitem hrest => by
      rw [plainItems, plainItems, hitem.plainForm_eq, hrest.plainItems_eq]

end

theorem respelled_comparator {s t : String}
    (h : operatorName Comparator.name Comparator.ofName? s =
      operatorName Comparator.name Comparator.ofName? t) :
    Respelled .comparator (.str s) (.str t) := by
  rcases spells_comparator.operatorName_eq_iff.mp h with heq | ⟨hknown, hname⟩
  · rw [heq]
    exact .same _ _
  · exact .comparator hknown hname

theorem respelled_connective {s t : String}
    (h : operatorName Connective.name Connective.ofName? s =
      operatorName Connective.name Connective.ofName? t) :
    Respelled .connective (.str s) (.str t) := by
  rcases spells_connective.operatorName_eq_iff.mp h with heq | ⟨hknown, hname⟩
  · rw [heq]
    exact .same _ _
  · exact .connective hknown hname

mutual

theorem respelled_of_plainForm_eq (role : Role) (v w : Value)
    (h : plainForm role v = plainForm role w) : Respelled role v w := by
  have hsame : structured role v = structured role w := by
    rw [← structured_plainForm role v, h, structured_plainForm]
  cases hv : structured role v with
  | false =>
      rw [plainForm_of_not_structured hv, plainForm_of_not_structured (hsame ▸ hv)] at h
      rw [h]
      exact .same role w
  | true =>
      have hw : structured role w = true := hsame ▸ hv
      cases role with
      | plain => cases v <;> cases hv
      | comparator =>
          cases v with
          | str s =>
              cases w with
              | str t => exact respelled_comparator (by simpa [plainForm] using h)
              | _ => cases hw
          | _ => cases hv
      | connective =>
          cases v with
          | str s =>
              cases w with
              | str t => exact respelled_connective (by simpa [plainForm] using h)
              | _ => cases hw
          | _ => cases hv
      | one layout =>
          cases v with
          | obj fields =>
              cases w with
              | obj others =>
                  have hentries : plainEntries layout fields = plainEntries layout others := by
                    simpa [plainForm] using h
                  exact .one (respelled_of_plainEntries_eq layout fields others hentries)
              | _ => cases hw
          | _ => cases hv
      | many layout =>
          cases v with
          | list items =>
              cases w with
              | list others =>
                  have hitems : plainItems layout items = plainItems layout others := by
                    simpa [plainForm] using h
                  exact .many (respelled_of_plainItems_eq layout items others hitems)
              | _ => cases hw
          | _ => cases hv

theorem respelled_of_plainEntries_eq (layout : Layout) (fields others : Fields)
    (h : plainEntries layout fields = plainEntries layout others) :
    RespelledEntries layout fields others := by
  match fields, others with
  | [], [] => exact .nil layout
  | [], _ :: _ => simp [plainEntries] at h
  | _ :: _, [] => simp [plainEntries] at h
  | (k, v) :: rest, (l, w) :: others =>
      rw [plainEntries_cons, plainEntries_cons] at h
      rcases List.cons.inj h with ⟨hentry, hrest⟩
      have hothers := respelled_of_plainEntries_eq layout rest others hrest
      have hfields : layout.field? k = layout.field? l := by
        have hk := field?_plainEntry layout (k, v)
        have hl := field?_plainEntry layout (l, w)
        rw [hentry] at hk
        exact hk.symm.trans hl
      cases hk : layout.field? k with
      | none =>
          rw [plainEntry_of_other hk, plainEntry_of_other (hfields ▸ hk)] at hentry
          rw [hentry]
          exact .other _ hothers
      | some f =>
          rcases mem_of_field? hk with ⟨hmem, hspelled⟩
          rcases mem_of_field? (hfields ▸ hk) with ⟨-, hspelled'⟩
          rw [plainEntry_of_field hmem hspelled, plainEntry_of_field hmem hspelled'] at hentry
          have hvalue := respelled_of_plainForm_eq f.2 v w (Prod.mk.inj hentry).2
          exact .field hmem hspelled hspelled' hvalue hothers

theorem respelled_of_plainItems_eq (layout : Layout) (items others : List Value)
    (h : plainItems layout items = plainItems layout others) :
    RespelledItems layout items others := by
  match items, others with
  | [], [] => exact .nil layout
  | [], _ :: _ => simp [plainItems] at h
  | _ :: _, [] => simp [plainItems] at h
  | v :: rest, w :: others =>
      rw [plainItems, plainItems] at h
      rcases List.cons.inj h with ⟨hitem, hrest⟩
      exact .cons (respelled_of_plainForm_eq (.one layout) v w hitem)
        (respelled_of_plainItems_eq layout rest others hrest)

end

/-- Two values are spellings of each other exactly when their preferred spelling
is the same. -/
theorem respelled_iff {role : Role} {v w : Value} :
    Respelled role v w ↔ plainForm role v = plainForm role w :=
  ⟨Respelled.plainForm_eq, respelled_of_plainForm_eq role v w⟩

instance (role : Role) (v w : Value) : Decidable (Respelled role v w) :=
  decidable_of_iff _ respelled_iff.symm

/-! ## Fields given twice -/

/-- The number of entries under any spelling of a field. -/
def timesGiven (key : FieldKey) (fields : Fields) : Nat :=
  fields.countP fun entry => key.spellings.contains entry.1

mutual

/-- Whether no object of the structure gives a field under two spellings. -/
def unambiguous : Role → Value → Bool
  | .one layout, .obj fields =>
    (layout.keys.all fun key => decide (timesGiven key fields ≤ 1)) &&
      unambiguousEntries layout fields
  | .many layout, .list items => unambiguousItems layout items
  | _, _ => true

def unambiguousEntries (layout : Layout) : Fields → Bool
  | [] => true
  | (k, v) :: rest =>
    (match layout.field? k with
      | some (_, role) => unambiguous role v
      | none => true) && unambiguousEntries layout rest

def unambiguousItems (layout : Layout) : List Value → Bool
  | [] => true
  | v :: rest => unambiguous (.one layout) v && unambiguousItems layout rest

end

section Unambiguous

variable {layout : Layout} {key : FieldKey} {role : Role} {fields : Fields} {items : List Value}

theorem timesGiven_plainEntries (hfield : (key, role) ∈ layout.fields) (fields : Fields) :
    timesGiven key (plainEntries layout fields) = timesGiven key fields := by
  unfold timesGiven
  rw [plainEntries_eq_map, List.countP_map]
  apply List.countP_congr
  intro entry _
  simpa using plainEntry_mem_spellings_iff hfield entry

theorem unambiguousItems_iff :
    unambiguousItems layout items = true ↔ ∀ v ∈ items, unambiguous (.one layout) v = true := by
  induction items with
  | nil => simp [unambiguousItems]
  | cons v rest ih => simp [unambiguousItems, ih]

theorem unambiguous_value_of_mem (hfield : (key, role) ∈ layout.fields)
    (h : unambiguousEntries layout fields = true) {entry : String × Value} (hentry : entry ∈ fields)
    (hk : entry.1 ∈ key.spellings) : unambiguous role entry.2 = true := by
  induction fields with
  | nil => simp at hentry
  | cons first rest ih =>
      rw [unambiguousEntries, Bool.and_eq_true] at h
      rcases List.mem_cons.mp hentry with heq | hrest
      · subst heq
        have hvalue := h.1
        rwa [field?_eq_some_iff.mpr ⟨hfield, hk⟩] at hvalue
      · exact ih h.2 hrest

theorem unambiguous_one_iff :
    unambiguous (.one layout) (.obj fields) = true ↔
      (∀ key ∈ layout.keys, timesGiven key fields ≤ 1) ∧
        unambiguousEntries layout fields = true := by
  simp [unambiguous]

end Unambiguous

mutual

theorem unambiguous_plainForm (role : Role) (v : Value) :
    unambiguous role (plainForm role v) = unambiguous role v := by
  cases role with
  | one layout =>
      cases v with
      | obj fields =>
          have hkeys : ∀ key ∈ layout.keys,
              timesGiven key (plainEntries layout fields) = timesGiven key fields := by
            intro key hkey
            rcases List.mem_map.mp hkey with ⟨f, hf, rfl⟩
            exact timesGiven_plainEntries hf fields
          rw [plainForm, Bool.eq_iff_iff, unambiguous_one_iff, unambiguous_one_iff,
            unambiguousEntries_plainEntries layout fields]
          exact and_congr_left' (forall₂_congr fun key hkey => by rw [hkeys key hkey])
      | _ => rfl
  | many layout =>
      cases v with
      | list items =>
          rw [plainForm, unambiguous, unambiguous, unambiguousItems_plainItems layout items]
      | _ => rfl
  | plain => rw [plainForm_plain]
  | comparator => cases v <;> rfl
  | connective => cases v <;> rfl

theorem unambiguousEntries_plainEntries (layout : Layout) (fields : Fields) :
    unambiguousEntries layout (plainEntries layout fields) = unambiguousEntries layout fields := by
  match fields with
  | [] => rfl
  | (k, v) :: rest =>
      rw [plainEntries_cons, unambiguousEntries, unambiguousEntries, field?_plainEntry,
        unambiguousEntries_plainEntries layout rest]
      cases hfield : layout.field? k with
      | none => rfl
      | some f =>
          rcases mem_of_field? hfield with ⟨hmem, hk⟩
          rw [plainEntry_of_field hmem hk]
          simp only [unambiguous_plainForm f.2 v]

theorem unambiguousItems_plainItems (layout : Layout) (items : List Value) :
    unambiguousItems layout (plainItems layout items) = unambiguousItems layout items := by
  match items with
  | [] => rfl
  | v :: rest =>
      rw [plainItems, unambiguousItems, unambiguousItems, unambiguous_plainForm (.one layout) v,
        unambiguousItems_plainItems layout rest]

end

end Stored

end FormRules
