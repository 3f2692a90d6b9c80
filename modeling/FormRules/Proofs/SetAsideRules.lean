import FormRules.Proofs.RuleCheck
import FormRules.Proofs.StoredLists
import FormRules.Proofs.WrittenNodes

/-!
# Rules that are set aside

The rules of a stored node are read one by one, whatever their list holds.  What
can be read is a rule of the node, in the order of the list; of the rest, the
node keeps where it stands and how much is wrong with it.  The list has no other
effect: without its entries, the object reads as the same node or has the same
faults.  So a rule that cannot be read makes neither its node nor the list of the
node unreadable, and the check of the rules reports it as an error.
-/

namespace FormRules

/-- What is known of a rule of a node that an issue says cannot be read. -/
def Issue.rejectionAt? (id : String) : Issue → Option RejectedRule
  | .rejectedRule other rejected => if other = id then some rejected else none
  | _ => none

namespace Node

/-- The values that can be read as rules, in order. -/
def readableRules (defaultPriority : Reading Int) (items : List Value) : List Rule :=
  items.filterMap fun v => (Rule.read defaultPriority v).value?

def rejection? (defaultPriority : Reading Int) (entry : Value × Nat) : Option RejectedRule :=
  match Rule.read defaultPriority entry.1 with
  | .ok _ => none
  | .faulty faults => some ⟨entry.2, rejectedId entry.1, faults.length⟩

/-- What is known of the other values, in order and with their positions. -/
def rejections (defaultPriority : Reading Int) (start : Nat) (items : List Value) :
    List RejectedRule :=
  (items.zipIdx start).filterMap (rejection? defaultPriority)

/-- What the list of rules under a key of an object contributes to reading it. -/
structure SetsRulesAside (defaultPriority : Reading Int) (fields : Fields) (k : String)
    (items : List Value) : Prop where
  /-- With its list emptied, the object has the same faults or reads as the same
  node but for the rules. -/
  read_eq : read defaultPriority (.obj fields) =
    (read defaultPriority (.obj (fields.set k (.list [])))).map fun bare =>
      { bare with
        rules := readableRules defaultPriority items
        rejected := rejections defaultPriority 0 items
        source := fields }
  counted : (readableRules defaultPriority items).length +
    (rejections defaultPriority 0 items).length = items.length
  rejected_iff : ∀ rejected, rejected ∈ rejections defaultPriority 0 items ↔
    ∃ v faults, items[rejected.position]? = some v ∧ Rule.read defaultPriority v = .faulty faults ∧
      rejected.id = rejectedId v ∧ rejected.faults = faults.length
  positions : ((rejections defaultPriority 0 items).map RejectedRule.position).Pairwise (· < ·)
  /-- Each rejected entry of a first node is reported once, in order. -/
  reported : ∀ node nodes, read defaultPriority (.obj fields) = .ok node →
    node ∈ Nodes.firsts nodes →
    (Nodes.ruleIssues nodes).filterMap (Issue.rejectionAt? node.id) =
      rejections defaultPriority 0 items
  asError : ∀ id issue, (Issue.rejectionAt? id issue).isSome = true →
    issue.kind = .invalidRule ∧ issue.isError = true ∧ issue.nodeId? = some id
  usable_iff : ∀ before after,
    (Value.list (before ++ .obj fields :: after)).Usable (read defaultPriority) ↔
      (Value.list (before ++ .obj (fields.set k (.list [])) :: after)).Usable
        (read defaultPriority)

variable {defaultPriority : Reading Int} {fields : Fields} {k : String} {items : List Value}

/-! ## The entries of the list -/

theorem readableRules_cons (v : Value) (rest : List Value) :
    readableRules defaultPriority (v :: rest) =
      (Rule.read defaultPriority v).value?.toList ++ readableRules defaultPriority rest := by
  unfold readableRules
  rw [List.filterMap_cons]
  cases (Rule.read defaultPriority v).value? <;> rfl

theorem rejections_cons (start : Nat) (v : Value) (rest : List Value) :
    rejections defaultPriority start (v :: rest) =
      (rejection? defaultPriority (v, start)).toList ++
        rejections defaultPriority (start + 1) rest := by
  unfold rejections
  rw [List.zipIdx_cons, List.filterMap_cons]
  cases rejection? defaultPriority (v, start) <;> rfl

/-- Reading a list of rules keeps the readable ones in order and sets the others
aside. -/
theorem readRulesFrom_eq (start : Nat) (items : List Value) :
    readRulesFrom defaultPriority start items =
      (readableRules defaultPriority items, rejections defaultPriority start items) := by
  induction items generalizing start with
  | nil => rfl
  | cons v rest ih =>
      rw [readableRules_cons, rejections_cons]
      unfold readRulesFrom rejection?
      rw [ih]
      cases Rule.read defaultPriority v <;> rfl

/-- An entry is kept or rejected, and not both. -/
theorem length_readableRules_add_rejections (start : Nat) (items : List Value) :
    (readableRules defaultPriority items).length +
      (rejections defaultPriority start items).length = items.length := by
  induction items generalizing start with
  | nil => rfl
  | cons v rest ih =>
      have hentry : (Rule.read defaultPriority v).value?.toList.length +
          (rejection? defaultPriority (v, start)).toList.length = 1 := by
        unfold rejection?
        cases Rule.read defaultPriority v <;> rfl
      rw [readableRules_cons, rejections_cons, List.length_append, List.length_append,
        List.length_cons, ← ih (start + 1)]
      omega

theorem mem_rejections_iff {items : List Value} {rejected : RejectedRule} :
    rejected ∈ rejections defaultPriority 0 items ↔
      ∃ v faults, items[rejected.position]? = some v ∧
        Rule.read defaultPriority v = .faulty faults ∧
        rejected.id = rejectedId v ∧ rejected.faults = faults.length := by
  unfold rejections rejection?
  rw [List.mem_filterMap]
  constructor
  · intro hmem
    rcases hmem with ⟨entry, hentry, hrejected⟩
    rw [List.mem_zipIdx_iff_getElem?] at hentry
    cases hread : Rule.read defaultPriority entry.1 with
    | ok rule => simp [hread] at hrejected
    | faulty faults =>
        rw [hread] at hrejected
        have heq := Option.some.inj hrejected
        subst heq
        exact ⟨entry.1, faults, hentry, hread, rfl, rfl⟩
  · intro hstored
    rcases hstored with ⟨v, faults, hentry, hread, hid, hfaults⟩
    refine ⟨(v, rejected.position), List.mem_zipIdx_iff_getElem?.mpr hentry, ?_⟩
    dsimp only
    rw [hread, ← hid]
    dsimp only
    rw [← hfaults]

theorem positions_rejections (start : Nat) (items : List Value) :
    ((rejections defaultPriority start items).map RejectedRule.position).Pairwise (· < ·) := by
  have hplaces : (items.zipIdx start).Pairwise fun a b => a.2 < b.2 := by
    rw [← List.pairwise_map (f := Prod.snd), List.zipIdx_map_snd]
    exact List.pairwise_lt_range'
  have hposition : ∀ {entry rejected}, rejection? defaultPriority entry = some rejected →
      rejected.position = entry.2 := by
    intro entry rejected hrejected
    unfold rejection? at hrejected
    split at hrejected
    · contradiction
    · rw [← Option.some.inj hrejected]
  rw [List.pairwise_map]
  refine hplaces.filterMap _ fun a b hlt x hx y hy => ?_
  rw [hposition hx, hposition hy]
  exact hlt

/-! ## The object without its rules -/

section Emptied

variable (hfound : rulesKey.find? fields = some (k, .list items))

include hfound

theorem find?_rulesKey_set (value : Value) :
    rulesKey.find? (fields.set k value) = some (k, value) :=
  Assoc.first?_set_of_first? hfound

theorem unknownEntries_set_rules (value : Value) :
    Reading.unknownEntries (fields.set k value) keys = Reading.unknownEntries fields keys := by
  refine unknownEntries_set (by simp [keys]) (Assoc.mem_of_first? hfound).1
    (find?_rulesKey_set hfound value) fun entry _ => ?_
  rw [hfound]
  simp

/-- The list of rules has no part in whether an object reads as a node. -/
theorem read_eq_map_emptied : read defaultPriority (.obj fields) =
    (read defaultPriority (.obj (fields.set k (.list [])))).map fun bare =>
      { bare with
        rules := readableRules defaultPriority items
        rejected := rejections defaultPriority 0 items
        source := fields } := by
  have hk : k ∈ rulesKey.spellings := (Assoc.mem_of_first? hfound).1
  have hother := @find?_set_beside fields rulesKey k (by simp [keys]) hk (.list [])
  have hrules : readRules defaultPriority fields =
      .ok (readableRules defaultPriority items, rejections defaultPriority 0 items) := by
    unfold readRules
    rw [hfound, ← readRulesFrom_eq]
  have hnone : readRules defaultPriority (fields.set k (.list [])) = .ok ([], []) := by
    unfold readRules
    rw [find?_rulesKey_set hfound]
    rfl
  have hid := Reading.required_congr (hother idKey (by simp [keys]) (by decide)) Reading.text
  have hparent := Reading.nullableField_congr
    (hother parentKey (by simp [keys]) (by decide)) Reading.text
  have htype := Reading.nullableField_congr
    (hother typeKey (by simp [keys]) (by decide)) Reading.text
  have horder := Reading.optional_congr (hother orderKey (by simp [keys]) (by decide)) 0
    Reading.integer
  have hdependencies := Reading.optional_congr
    (hother dependenciesKey (by simp [keys]) (by decide)) [] Reading.texts
  have hpayload := Reading.optional_congr (hother payloadKey (by simp [keys]) (by decide)) []
    Reading.object
  have hextra := unknownEntries_set_rules hfound (.list [])
  simp only [read]
  rw [hrules, hnone, hid, hparent, htype, horder, hdependencies, hpayload]
  unfold ofRead
  rw [hextra]
  -- Either every other field can be read, or the faults are those of the other fields.
  cases Reading.required fields idKey Reading.text <;>
    cases Reading.nullableField fields parentKey Reading.text <;>
    cases Reading.nullableField fields typeKey Reading.text <;>
    cases Reading.optional fields orderKey 0 Reading.integer <;>
    cases Reading.optional fields dependenciesKey [] Reading.texts <;>
    cases Reading.optional fields payloadKey [] Reading.object <;> rfl

end Emptied

end Node

/-! ## Reports -/

/-- Where all other elements give nothing, one gives all there is. -/
theorem flatMap_eq_of_only {α β : Type} {f : α → List β} {xs : List α} {a : α}
    (hnodup : xs.Nodup) (ha : a ∈ xs) (hother : ∀ b ∈ xs, b ≠ a → f b = []) :
    xs.flatMap f = f a := by
  rcases List.append_of_mem ha with ⟨before, after, hsplit⟩
  subst hsplit
  have hfresh := (List.nodup_cons.mp (List.nodup_middle.mp hnodup)).1
  have hnothing : ∀ b ∈ before ++ after, f b = [] := by
    intro b hb
    apply hother b
    · simp only [List.mem_append, List.mem_cons] at hb ⊢
      exact hb.imp_right .inr
    · intro heq
      exact hfresh (heq ▸ hb)
  rw [List.forall_mem_append] at hnothing
  rw [List.flatMap_append, List.flatMap_cons, List.flatMap_eq_nil_iff.mpr hnothing.1,
    List.flatMap_eq_nil_iff.mpr hnothing.2, List.nil_append, List.append_nil]

namespace Nodes

open Issue

variable {nodes : List Node}

theorem rejectionAt_ruleIssuesOf (ids : List String) (id other : String) (rule : Rule) :
    (ruleIssuesOf ids id rule).filterMap (rejectionAt? other) = [] := by
  rw [List.filterMap_eq_nil_iff]
  intro issue hissue
  unfold ruleIssuesOf at hissue
  rcases List.mem_append.mp hissue with hfront | hfield
  · rcases List.mem_append.mp hfront with hoperator | htarget
    · rcases List.mem_map.mp hoperator with ⟨_, -, heq⟩
      rw [← heq]
      rfl
    · split at htarget
      · split at htarget
        · simp at htarget
        · rw [List.mem_singleton.mp htarget]
          rfl
      · simp at htarget
  · rcases List.mem_map.mp hfield with ⟨_, -, heq⟩
    rw [← heq]
    rfl

/-- The check reports of a first node each rejected rule, once and in order. -/
theorem rejectionAt_ruleIssues {node : Node} (hnode : node ∈ firsts nodes) :
    (ruleIssues nodes).filterMap (rejectionAt? node.id) = node.rejected := by
  have hrules : ∀ other : Node, (other.rules.flatMap (ruleIssuesOf (ids nodes) other.id)).filterMap
      (rejectionAt? node.id) = [] := by
    intro other
    rw [List.filterMap_flatMap, List.flatMap_eq_nil_iff]
    exact fun rule _ => rejectionAt_ruleIssuesOf _ _ _ rule
  have helsewhere : ∀ other ∈ firsts nodes, other ≠ node →
      (other.rejected.map (rejectedRule other.id) ++
        other.rules.flatMap (ruleIssuesOf (ids nodes) other.id)).filterMap
          (rejectionAt? node.id) = [] := by
    intro other hother hne
    have hid : other.id ≠ node.id := fun heq => hne (firsts_unique hother hnode heq)
    rw [List.filterMap_append, hrules, List.append_nil, List.filterMap_map,
      List.filterMap_eq_nil_iff]
    intro rejected _
    exact if_neg hid
  have hnodup : (firsts nodes).Nodup := List.Nodup.of_map _ (nodup_ids nodes)
  unfold ruleIssues
  rw [List.filterMap_flatMap, flatMap_eq_of_only hnodup hnode helsewhere,
    List.filterMap_append, hrules, List.append_nil, List.filterMap_map]
  have hsame : ∀ rejected, (rejectionAt? node.id ∘ rejectedRule node.id) rejected =
      some rejected := fun rejected => if_pos rfl
  rw [funext hsame, List.filterMap_some]

end Nodes

theorem Value.usable_congr {α : Type} {read : Value → Reading α} {v w : Value}
    (h : (∃ a, read v = .ok a) ↔ ∃ a, read w = .ok a) (before after : List Value) :
    (Value.list (before ++ v :: after)).Usable read ↔
      (Value.list (before ++ w :: after)).Usable read := by
  unfold Usable
  simp only [reduceCtorEq, false_or, Value.list.injEq, exists_eq_left', List.forall_mem_append,
    List.forall_mem_cons, h]

theorem Issue.isError_of_rejectionAt {id : String} {issue : Issue}
    (h : (rejectionAt? id issue).isSome = true) :
    issue.kind = .invalidRule ∧ issue.isError = true ∧ issue.nodeId? = some id := by
  cases issue with
  | rejectedRule other rejected =>
      by_cases heq : other = id
      · subst heq
        exact ⟨rfl, rfl, rfl⟩
      · simp [rejectionAt?, heq] at h
  | _ => contradiction

namespace Node

/-- Rules that cannot be read are set aside, counted and reported one by one,
and make neither the node nor the list it is in unreadable. -/
theorem read_setsRulesAside (hfound : rulesKey.find? fields = some (k, .list items)) :
    SetsRulesAside defaultPriority fields k items := by
  have hread := @read_eq_map_emptied defaultPriority _ _ _ hfound
  constructor
  · exact hread
  · exact length_readableRules_add_rejections 0 items
  · exact fun rejected => mem_rejections_iff
  · exact positions_rejections 0 items
  · intro node nodes hnode hfirst
    rw [Nodes.rejectionAt_ruleIssues hfirst]
    rw [hread] at hnode
    cases hbare : read defaultPriority (.obj (fields.set k (.list []))) with
    | faulty faults => simp [hbare] at hnode
    | ok bare =>
        rw [hbare, Reading.map_ok] at hnode
        rw [← Reading.ok.inj hnode]
  · exact fun id issue => Issue.isError_of_rejectionAt
  · apply Value.usable_congr
    rw [hread]
    cases read defaultPriority (.obj (fields.set k (.list []))) <;> simp

/-- One of four entries can be read; the list under the other key is no list of rules. -/
theorem read_setsRulesAside_garbled :
    let items := [.null, Nodes.storedRule (Nodes.storedLeaf "b"), .str "x", .obj [("id", .str "r")]]
    let fields : Fields := [("id", .str "a"), ("conditional_rules", .list [.int 1]),
      ("conditionalRules", .list items)]
    ∃ node, read (.ok 100) (.obj fields) = .ok node ∧
      node.rejected = [⟨0, none, 1⟩, ⟨2, none, 1⟩, ⟨3, some "r", 2⟩] ∧
      node.rules = [Nodes.showRule (Nodes.leafOn "b")] ∧
      SetsRulesAside (.ok 100) fields "conditionalRules" items := by
  intro items fields
  refine ⟨_, rfl, by with_unfolding_all rfl, by with_unfolding_all rfl, ?_⟩
  exact read_setsRulesAside rfl

end Node

end FormRules
