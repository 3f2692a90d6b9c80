import FormRules.FormData.Change
import FormRules.Proofs.QualifiedReferences

/-!
# Captured data after changes

A field holds what was written to it last, and what it held at the start when
nothing was; a module is there when it was at the start or any of its fields was
written.  A run without one of its writes leaves every other field as the whole run
does.

References read the same fields.  One with a module reads the field of that module,
whatever the current one is.  One without reads the module that was entered last,
and the default one when that was null or empty.
-/

namespace FormRules

namespace FormData

variable {data data' : FormData} {module field other name : String} {value : Value}

/-! ## One write -/

/-- What stands in a field of a module, a null included. -/
def stored? (data : FormData) (module field : String) : Option Value :=
  (data.module? module).bind fun fields => Assoc.get? fields field

/-- What a look-up makes of an entry: a null counts as never captured. -/
def captured : Option Value → Value
  | some .null => .absent
  | some v => v
  | none => .absent

theorem valueAt_eq_captured (data : FormData) (module field : String) :
    data.valueAt module field = captured (data.stored? module field) := by
  have hstored : (data.modules.get? module).bind (fun fields => Assoc.get? fields field) =
      data.stored? module field := rfl
  unfold valueAt
  rw [hstored]
  cases data.stored? module field with
  | none => rfl
  | some v => cases v <;> rfl

theorem stored?_set (data : FormData) (module field : String) (value : Value)
    (other name : String) : (data.set module field value).stored? other name =
      if other = module ∧ name = field then some value else data.stored? other name := by
  unfold stored? module? set
  by_cases hmodule : other = module
  · subst hmodule
    rw [Assoc.get?_set_self, Option.bind_some]
    by_cases hfield : name = field
    · subst hfield
      rw [Assoc.get?_set_self, if_pos ⟨rfl, rfl⟩]
    · rw [Assoc.get?_set_of_ne value hfield, if_neg fun h => hfield h.2]
      cases Assoc.get? data.modules other <;> rfl
  · rw [Assoc.get?_set_of_ne _ hmodule, if_neg fun h => hmodule h.1]

theorem valueAt_set_of_ne (value : Value) (hne : other ≠ module ∨ name ≠ field) :
    (data.set module field value).valueAt other name = data.valueAt other name := by
  rw [valueAt_eq_captured, valueAt_eq_captured, stored?_set, if_neg (not_and_or.mpr hne)]

theorem hasModule_set (data : FormData) (module field : String) (value : Value) (other : String) :
    (data.set module field value).hasModule other =
      if other = module then true else data.hasModule other := by
  have hhas : ∀ entries : Assoc Fields, entries.has other = (entries.get? other).isSome :=
    fun _ => rfl
  unfold hasModule set
  rw [hhas, hhas]
  by_cases hmodule : other = module
  · subst hmodule
    rw [Assoc.get?_set_self, if_pos rfl, Option.isSome_some]
  · rw [Assoc.get?_set_of_ne _ hmodule, if_neg hmodule]

/-- Apart from one field, and from its module being there, two sets of data are alike. -/
structure AlikeBut (module field : String) (data data' : FormData) : Prop where
  stored : ∀ other name, other ≠ module ∨ name ≠ field →
    data.stored? other name = data'.stored? other name
  hasModule : ∀ other, other ≠ module → data.hasModule other = data'.hasModule other
  current : data.current = data'.current

theorem alikeBut_set (data : FormData) (module field : String) (value : Value) :
    AlikeBut module field (data.set module field value) data := by
  constructor
  · intro other name hne
    rw [stored?_set, if_neg (not_and_or.mpr hne)]
  · intro other hne
    rw [hasModule_set, if_neg hne]
  · rfl

/-! ## Runs of changes -/

variable {changes : List Change}

theorem after_append (data : FormData) (before later : List Change) :
    data.after (before ++ later) = (data.after before).after later := by
  unfold after
  rw [List.foldl_append]

/-- A difference in one field stays one in that field through any change. -/
theorem AlikeBut.apply (h : AlikeBut module field data data') (change : Change) :
    AlikeBut module field (change.apply data) (change.apply data') := by
  cases change with
  | enter entered => exact ⟨h.stored, h.hasModule, rfl⟩
  | write written key value =>
      constructor
      · intro other name hne
        simp only [Change.apply, stored?_set, h.stored other name hne]
      · intro other hne
        simp only [Change.apply, hasModule_set, h.hasModule other hne]
      · exact h.current

theorem AlikeBut.after (h : AlikeBut module field data data') (changes : List Change) :
    AlikeBut module field (data.after changes) (data'.after changes) := by
  induction changes generalizing data data' with
  | nil => exact h
  | cons change rest ih => exact ih (h.apply change)

/-- No change writes the field. -/
def Unwritten (changes : List Change) (module field : String) : Prop :=
  ∀ value, .write module field value ∉ changes

/-- The field is written, and this is the value it gets last. -/
def WrittenLast (changes : List Change) (module field : String) (value : Value) : Prop :=
  ∃ before later, changes = before ++ .write module field value :: later ∧
    Unwritten later module field

/-- Every field is left alone by all changes, or one write to it is the last. -/
theorem unwritten_or_writtenLast (changes : List Change) (module field : String) :
    Unwritten changes module field ∨ ∃ value, WrittenLast changes module field value := by
  by_cases hwritten : ∃ value, .write module field value ∈ changes
  · right
    induction changes with
    | nil => simp at hwritten
    | cons change rest ih =>
        by_cases hrest : ∃ value, .write module field value ∈ rest
        · rcases ih hrest with ⟨value, before, later, heq, hlater⟩
          exact ⟨value, change :: before, later, by rw [heq, List.cons_append], hlater⟩
        · rcases hwritten with ⟨value, hmem⟩
          have hfirst : .write module field value = change :=
            (List.mem_cons.mp hmem).resolve_right fun h => hrest ⟨value, h⟩
          exact ⟨value, [], rest, by rw [hfirst, List.nil_append], not_exists.mp hrest⟩
  · exact .inl (not_exists.mp hwritten)

theorem stored?_after_of_unwritten (data : FormData) (h : Unwritten changes module field) :
    (data.after changes).stored? module field = data.stored? module field := by
  induction changes generalizing data with
  | nil => rfl
  | cons change rest ih =>
      have hrest : Unwritten rest module field :=
        fun value hmem => h value (List.mem_cons_of_mem change hmem)
      have hstep : (change.apply data).stored? module field = data.stored? module field := by
        cases change with
        | enter entered => rfl
        | write written key value =>
            have haway : ¬ (module = written ∧ field = key) := by
              rintro ⟨hmodule, hfield⟩
              rw [hmodule, hfield] at h
              exact h value List.mem_cons_self
            rw [Change.apply, stored?_set, if_neg haway]
      exact (ih (change.apply data) hrest).trans hstep

theorem stored?_after_of_writtenLast (data : FormData)
    (h : WrittenLast changes module field value) :
    (data.after changes).stored? module field = some value := by
  rcases h with ⟨before, later, hchanges, hlater⟩
  have hwrite : ((Change.write module field value).apply (data.after before)).stored? module field =
      some value := by
    rw [Change.apply, stored?_set, if_pos ⟨rfl, rfl⟩]
  rw [hchanges, after_append]
  exact (stored?_after_of_unwritten _ hlater).trans hwrite

theorem hasModule_after_iff (data : FormData) (changes : List Change) :
    (data.after changes).hasModule module = true ↔ data.hasModule module = true ∨
      ∃ field value, .write module field value ∈ changes := by
  induction changes generalizing data with
  | nil => simp [after]
  | cons change rest ih =>
      refine (ih (change.apply data)).trans ?_
      cases change with
      | enter entered =>
          simp only [List.mem_cons, reduceCtorEq, false_or]
          exact Iff.rfl
      | write written key value =>
          rw [Change.apply, hasModule_set]
          by_cases hsame : module = written
          · subst hsame
            rw [if_pos rfl]
            exact iff_of_true (.inl rfl) (.inr ⟨key, value, List.mem_cons_self⟩)
          · have hother : ∀ name other, Change.write module name other ≠ .write written key value :=
              fun name other heq => hsame (Change.write.inj heq).1
            simp only [if_neg hsame, List.mem_cons, hother, false_or]

/-- This module was entered last, or none was entered and it was there at the start. -/
def EnteredLast (start : FormData) (changes : List Change) (module : Value) : Prop :=
  (∃ before later, changes = before ++ .enter module :: later ∧ ∀ other, .enter other ∉ later) ∨
    start.current = module ∧ ∀ other, .enter other ∉ changes

theorem current_after_of_not_entered (data : FormData) (h : ∀ other, .enter other ∉ changes) :
    (data.after changes).current = data.current := by
  induction changes generalizing data with
  | nil => rfl
  | cons change rest ih =>
      have hrest : ∀ other, .enter other ∉ rest :=
        fun other hmem => h other (List.mem_cons_of_mem change hmem)
      have hstep : (change.apply data).current = data.current := by
        cases change with
        | write written key value => rfl
        | enter entered => exact absurd List.mem_cons_self (h entered)
      exact (ih (change.apply data) hrest).trans hstep

theorem current_after {entered : Value} (h : EnteredLast data changes entered) :
    (data.after changes).current = entered := by
  rcases h with ⟨before, later, hchanges, hlater⟩ | ⟨hstart, hnever⟩
  · rw [hchanges, after_append]
    exact current_after_of_not_entered _ hlater
  · rw [current_after_of_not_entered data hnever, hstart]

/-! ## What references read -/

section References

variable {defaultModule : String}

theorem value_some (data : FormData) (defaultModule module field : String) :
    data.value defaultModule (some module) field = captured (data.stored? module field) :=
  valueAt_eq_captured data module field

theorem resolve_of_splits {s : String} (h : Reference.Splits s module field) :
    (Reference.read? s).map (data.resolve defaultModule) =
      some (data.value defaultModule (some module) field) := by
  rw [(Reference.readsAtFirstDot.qualified s module field).mpr h]
  rfl

theorem resolve_of_plain {s : String} (hblank : Text.isBlank s = false)
    (hplain : ∀ module field, ¬ Reference.Splits s module field)
    (hcurrent : data.effectiveModule? defaultModule = some module) :
    (Reference.read? s).map (data.resolve defaultModule) =
      some (data.value defaultModule (some module) s) := by
  rw [(Reference.readsAtFirstDot.unqualified s s).mpr ⟨hblank, rfl, hplain⟩, Option.map_some]
  unfold resolve FormData.value
  rw [hcurrent]
  rfl

theorem effectiveModule?_of_named (hcurrent : data.current = .str module) (hmodule : module ≠ "") :
    data.effectiveModule? defaultModule = some module := by
  have hnamed : (Value.str module).isVoid = false := by simpa [Value.isVoid] using hmodule
  unfold effectiveModule?
  rw [hcurrent, hnamed]
  rfl

theorem effectiveModule?_of_unnamed (hcurrent : data.current = .null ∨ data.current = .str "") :
    data.effectiveModule? defaultModule = some defaultModule := by
  unfold effectiveModule?
  rcases hcurrent with hnull | hempty
  · rw [hnull]
    rfl
  · rw [hempty]
    rfl

end References

/-- What data holds after changes from a start, and what references to it read. -/
structure KeepsLastWrites (start : FormData) (changes : List Change) (data : FormData) : Prop where
  either : ∀ module field,
    Unwritten changes module field ∨ ∃ value, WrittenLast changes module field value
  written : ∀ module field value, WrittenLast changes module field value → ∀ defaultModule,
    data.value defaultModule (some module) field = captured (some value)
  unwritten : ∀ module field, Unwritten changes module field → ∀ defaultModule,
    data.value defaultModule (some module) field = captured (start.stored? module field)
  hasModule : ∀ module, data.hasModule module = true ↔ start.hasModule module = true ∨
    ∃ field value, .write module field value ∈ changes
  /-- Without one of the writes the data would be the same but for its field and module. -/
  apart : ∀ before later module field value,
    changes = before ++ .write module field value :: later →
      AlikeBut module field data (start.after (before ++ later))
  qualified : ∀ module field, module ≠ "" → '.' ∉ module.toList → field ≠ "" →
    ∀ entered defaultModule,
      (Reference.read? (module ++ "." ++ field)).map
          ((data.setCurrent entered).resolve defaultModule) =
        some (data.value defaultModule (some module) field)
  plain : ∀ s, Text.isBlank s = false → (∀ module field, ¬ Reference.Splits s module field) →
    ∀ module, module ≠ "" → EnteredLast start changes (.str module) → ∀ defaultModule,
      (Reference.read? s).map (data.resolve defaultModule) =
        some (data.value defaultModule (some module) s)
  plainInDefault : ∀ s, Text.isBlank s = false →
    (∀ module field, ¬ Reference.Splits s module field) →
    EnteredLast start changes .null ∨ EnteredLast start changes (.str "") → ∀ defaultModule,
      (Reference.read? s).map (data.resolve defaultModule) =
        some (data.value defaultModule (some defaultModule) s)

/-- Whatever changes are made to whatever data, each field holds its last write
or what it held before, and a reference reads the same value by its module or
through the current one. -/
theorem after_keepsLastWrites (start : FormData) (changes : List Change) :
    KeepsLastWrites start changes (start.after changes) := by
  constructor
  · exact unwritten_or_writtenLast changes
  · intro module field value hlast defaultModule
    rw [value_some, stored?_after_of_writtenLast start hlast]
  · intro module field hnever defaultModule
    rw [value_some, stored?_after_of_unwritten start hnever]
  · intro module
    exact hasModule_after_iff start changes
  · intro before later module field value hchanges
    rw [hchanges, after_append, after_append]
    exact (alikeBut_set (start.after before) module field value).after later
  · intro module field hmodule hfree hfield entered defaultModule
    have hsplits : Reference.Splits (module ++ "." ++ field) module field :=
      ⟨rfl, hmodule, hfree, hfield⟩
    exact resolve_of_splits hsplits
  · intro s hblank hplain module hmodule hentered defaultModule
    exact resolve_of_plain hblank hplain
      (effectiveModule?_of_named (current_after hentered) hmodule)
  · intro s hblank hplain hentered defaultModule
    have hcurrent := hentered.imp current_after current_after
    exact resolve_of_plain hblank hplain (effectiveModule?_of_unnamed hcurrent)

/-- A module with a dot in its name is read when it is the current one only. -/
example :
    let data := FormData.empty.after [.write "a.b" "c" (.int 1), .write "a" "b.c" (.int 2),
      .enter (.str "a.b"), .write "a" "b.c" .null]
    (Reference.read? "c").map (data.resolve "d") = some (.int 1) ∧
      (Reference.read? "a.b.c").map (data.resolve "d") = some .absent ∧
      data.hasModule "d" = false := by
  decide

end FormData

end FormRules
