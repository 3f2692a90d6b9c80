import FormRules.Proofs.ConditionMeaning

/-!
# The walk through a condition

A tree may be walked with a stack of the trees still to be visited: each turn visits
the last one and puts its children in its place, the first of them last.  What is on
the stack, read from its end, is what is to come in the order of recursion, and a turn
takes the first condition off it.  So the walk ends after as many turns as the tree
has conditions, and has then met each of them once, by the paths to them in order.

The references of a tree and the operators it cannot be evaluated with are read off
this order.  An operator is listed exactly where the evaluation of its condition
alone, without the children, fails for the operator, and in a tree that was read that
is where no spelling of a known one was found.
-/

namespace FormRules

/-! ## First occurrences -/

theorem pairwise_idxOf_distinct (texts : List String) :
    (distinct texts).Pairwise fun s t => texts.idxOf s < texts.idxOf t := by
  unfold distinct
  induction texts with
  | nil => exact List.Pairwise.nil
  | cons first rest ih =>
      have hlater : ∀ s, s ≠ first → (first :: rest).idxOf s = rest.idxOf s + 1 :=
        fun s hne => List.idxOf_cons_ne rest hne.symm
      rw [distinctBy, List.pairwise_cons]
      constructor
      · intro s hs
        have hne : s ≠ first := by simpa using (List.mem_filter.mp hs).2
        change (first :: rest).idxOf first < (first :: rest).idxOf s
        rw [List.idxOf_cons_self, hlater s hne]
        exact Nat.succ_pos _
      · refine (ih.filter _).imp_of_mem ?_
        intro s t hs ht hlt
        have hs' : s ≠ first := by simpa using (List.mem_filter.mp hs).2
        have ht' : t ≠ first := by simpa using (List.mem_filter.mp ht).2
        rw [hlater s hs', hlater t ht']
        exact Nat.succ_lt_succ hlt

namespace Condition

/-! ## Turns of a walk -/

/-- What a walk has visited, and the trees it has still to visit, the next one last. -/
structure StackWalk where
  visited : List Condition
  stack : List Condition

namespace StackWalk

/-- Visits the last tree and puts its children in its place, the first of them last. -/
def turn (w : StackWalk) : StackWalk :=
  match w.stack.getLast? with
  | none => w
  | some c => ⟨w.visited ++ [c], w.stack.dropLast ++ c.children.reverse⟩

/-- The conditions on the stack in the order of recursion. -/
def coming (w : StackWalk) : List Condition := preorderAll w.stack.reverse

theorem coming_eq_nil_iff {w : StackWalk} : w.coming = [] ↔ w.stack = [] := by
  unfold coming
  constructor
  · intro hnone
    cases hstack : w.stack.reverse with
    | nil => exact List.reverse_eq_nil_iff.mp hstack
    | cons c rest => simp [hstack, preorderAll, preorder_eq] at hnone
  · intro hstack
    rw [hstack]
    rfl

/-- A turn visits the first condition that is to come. -/
theorem turn_visits_next (w : StackWalk) :
    w.turn.visited = w.visited ++ w.coming.take 1 ∧ w.turn.coming = w.coming.drop 1 := by
  obtain ⟨visited, stack⟩ := w
  rcases List.eq_nil_or_concat stack with hstack | ⟨rest, c, hstack⟩
  · subst hstack
    simp [turn, coming, preorderAll]
  · rw [List.concat_eq_append] at hstack
    subst hstack
    have hcoming : coming ⟨visited, rest ++ [c]⟩ =
        c :: (preorderAll c.children ++ preorderAll rest.reverse) := by
      simp [coming, preorderAll, preorder_eq]
    rw [hcoming]
    simp [turn, coming, preorderAll_append]

/-- After any number of turns that many conditions have been visited, and those
still to come are the rest. -/
theorem iterate_turn (n : Nat) (w : StackWalk) :
    (turn^[n] w).visited = w.visited ++ w.coming.take n ∧
      (turn^[n] w).coming = w.coming.drop n := by
  induction n with
  | zero => simp
  | succ n ih =>
      obtain ⟨hvisited, hcoming⟩ := turn_visits_next (turn^[n] w)
      rw [Function.iterate_succ_apply', hvisited, hcoming, ih.1, ih.2]
      constructor
      · rw [List.append_assoc, List.take_add]
      · rw [List.drop_drop]

end StackWalk

theorem length_preorderAll {children : List Condition}
    (h : ∀ c ∈ children, c.preorder.length = c.size) :
    (preorderAll children).length = sizeOfAll children := by
  induction children with
  | nil => rfl
  | cons c rest ih =>
      obtain ⟨hc, hrest⟩ := List.forall_mem_cons.mp h
      rw [preorderAll, List.length_append, sizeOfAll, hc, ih hrest]

theorem length_preorder (c : Condition) : c.preorder.length = c.size := by
  induction c using Condition.induction_children with
  | leaf field operator value => rfl
  | group operator children ih => rw [preorder, List.length_cons, length_preorderAll ih, size]

/-! ## Paths to conditions -/

/-- The part of a tree that the positions of a path lead to, each among the children. -/
def part? (c : Condition) : List Nat → Option Condition
  | [] => some c
  | i :: path => c.children[i]?.bind fun child => child.part? path

mutual

/-- The parts of a tree with the paths to them, a group before its children. -/
def occurrences : Condition → List (List Nat × Condition)
  | .leaf field operator value => [([], .leaf field operator value)]
  | .group operator children => ([], .group operator children) :: occurrencesFrom 0 children

/-- The same of the children of a group from some position on. -/
def occurrencesFrom (position : Nat) : List Condition → List (List Nat × Condition)
  | [] => []
  | c :: rest =>
    (c.occurrences.map fun o => (position :: o.1, o.2)) ++ occurrencesFrom (position + 1) rest

end

theorem mem_occurrencesFrom_iff {children : List Condition} {position : Nat} {path : List Nat}
    {d : Condition} : (path, d) ∈ occurrencesFrom position children ↔
      ∃ i below child, path = (position + i) :: below ∧ children[i]? = some child ∧
        (below, d) ∈ child.occurrences := by
  induction children generalizing position with
  | nil => simp [occurrencesFrom]
  | cons c rest ih =>
      rw [occurrencesFrom, List.mem_append, List.mem_map, ih]
      constructor
      · rintro (⟨⟨below, part⟩, hbelow, heq⟩ | ⟨i, below, child, hpath, hchild, hbelow⟩)
        · cases heq
          exact ⟨0, below, c, rfl, rfl, hbelow⟩
        · refine ⟨i + 1, below, child, ?_, hchild, hbelow⟩
          rw [hpath, Nat.add_assoc, Nat.add_comm 1]
      · rintro ⟨_ | i, below, child, hpath, hchild, hbelow⟩
        · cases hchild
          exact .inl ⟨(below, d), hbelow, by rw [hpath]; rfl⟩
        · refine .inr ⟨i, below, child, ?_, hchild, hbelow⟩
          rw [hpath, Nat.add_assoc, Nat.add_comm 1]

/-- The occurrences listed are the conditions that a path leads to. -/
theorem mem_occurrences_iff {c d : Condition} {path : List Nat} :
    (path, d) ∈ c.occurrences ↔ c.part? path = some d := by
  induction c using Condition.induction_children generalizing path with
  | leaf field operator value =>
      cases path with
      | nil => simp [occurrences, part?, eq_comm]
      | cons i below => simp [occurrences, part?, children]
  | group operator children ih =>
      rw [occurrences, List.mem_cons]
      cases path with
      | nil => simp [part?, mem_occurrencesFrom_iff, eq_comm]
      | cons i below =>
          rw [mem_occurrencesFrom_iff, part?, Option.bind_eq_some_iff]
          constructor
          · rintro (heq | ⟨j, rest, child, hpath, hchild, hbelow⟩)
            · cases heq
            · rw [Nat.zero_add] at hpath
              cases hpath
              exact ⟨child, hchild, (ih child (List.mem_of_getElem? hchild)).mp hbelow⟩
          · rintro ⟨child, hchild, hbelow⟩
            have hmem := List.mem_of_getElem? hchild
            exact .inr ⟨i, below, child, by rw [Nat.zero_add], hchild, (ih child hmem).mpr hbelow⟩

theorem map_snd_occurrencesFrom {children : List Condition} (position : Nat)
    (h : ∀ c ∈ children, c.occurrences.map Prod.snd = c.preorder) :
    (occurrencesFrom position children).map Prod.snd = preorderAll children := by
  induction children generalizing position with
  | nil => rfl
  | cons c rest ih =>
      obtain ⟨hc, hrest⟩ := List.forall_mem_cons.mp h
      rw [occurrencesFrom, List.map_append, List.map_map, ih (position + 1) hrest, preorderAll,
        ← hc]
      rfl

theorem map_snd_occurrences (c : Condition) : c.occurrences.map Prod.snd = c.preorder := by
  induction c using Condition.induction_children with
  | leaf field operator value => rfl
  | group operator children ih =>
      rw [occurrences, List.map_cons, map_snd_occurrencesFrom 0 ih, preorder]

theorem pairwise_occurrencesFrom {children : List Condition} (position : Nat)
    (h : ∀ c ∈ children, c.occurrences.Pairwise fun o o' => o.1 < o'.1) :
    (occurrencesFrom position children).Pairwise fun o o' => o.1 < o'.1 := by
  induction children generalizing position with
  | nil => exact List.Pairwise.nil
  | cons c rest ih =>
      obtain ⟨hc, hrest⟩ := List.forall_mem_cons.mp h
      rw [occurrencesFrom, List.pairwise_append]
      refine ⟨?_, ih (position + 1) hrest, ?_⟩
      · rw [List.pairwise_map]
        exact hc.imp fun hlt => List.cons_lt_cons_iff.mpr (.inr ⟨rfl, hlt⟩)
      · intro o ho o' ho'
        obtain ⟨below, -, heq⟩ := List.mem_map.mp ho
        obtain ⟨i, below', child, hpath, -, -⟩ := mem_occurrencesFrom_iff.mp ho'
        rw [← heq, hpath]
        exact List.cons_lt_cons_iff.mpr (.inl (by omega))

/-- The paths to the parts of a tree stand in the order of their positions. -/
theorem pairwise_occurrences (c : Condition) :
    c.occurrences.Pairwise fun o o' => o.1 < o'.1 := by
  induction c using Condition.induction_children with
  | leaf field operator value => exact List.pairwise_singleton _ _
  | group operator children ih =>
      rw [occurrences, List.pairwise_cons]
      refine ⟨?_, pairwise_occurrencesFrom 0 ih⟩
      rintro ⟨path, d⟩ hmem
      obtain ⟨i, below, -, hpath, -, -⟩ := mem_occurrencesFrom_iff.mp hmem
      rw [hpath]
      exact List.nil_lt_cons _ _

/-! ## Conditions by themselves -/

/-- A condition without its children. -/
def alone : Condition → Condition
  | .leaf field operator value => .leaf field operator value
  | .group operator _ => .group operator []

def operatorText : Condition → String
  | .leaf _ operator _ => operator.text Comparator.name
  | .group operator _ => operator.text Connective.name

theorem operatorText_of_unsupported {c : Condition} {name : String}
    (h : c.unsupportedOperator? = some name) : c.operatorText = name := by
  cases c with
  | leaf field operator value | group operator children =>
      rw [unsupportedOperator?] at h
      split at h
      · cases h
      · exact Option.some.inj h

end Condition

/-- The known operator that an identifier stands for, under any spelling. -/
def OperatorId.recognised? {Known : Type} (ofName? : String → Option Known) :
    OperatorId Known → Option Known
  | .known op => some op
  | .named s => ofName? s
  | .numbered _ => none

theorem OperatorId.recognised?_of_settled {Known : Type} {ofName? : String → Option Known}
    {operator : OperatorId Known} (h : operator.Settled ofName?) :
    operator.recognised? ofName? = operator.known? := by
  cases operator with
  | known op => rfl
  | named s => exact h
  | numbered n => rfl

namespace Condition

/-- The operator of a condition, as text, when it is no spelling of a known one. -/
def unrecognisedOperator? : Condition → Option String
  | .leaf _ operator _ =>
    if (operator.recognised? Comparator.ofName?).isSome then none
    else some (operator.text Comparator.name)
  | .group operator _ =>
    if (operator.recognised? Connective.ofName?).isSome then none
    else some (operator.text Connective.name)

theorem unsupportedOperators_of_settled {c : Condition} (h : c.Settled) :
    c.unsupportedOperators = c.walk.filterMap unrecognisedOperator? := by
  unfold unsupportedOperators
  apply List.filterMap_congr
  intro d hd
  have hoperator := h d hd
  cases d with
  | leaf field operator value | group operator children =>
      rw [unsupportedOperator?, unrecognisedOperator?, OperatorId.recognised?_of_settled hoperator]

end Condition

/-- The operator that a failure names. -/
def EvaluationError.operator? : EvaluationError → Option String
  | .unsupportedComparator name => some name
  | .unsupportedConnective name => some name
  | .tooDeep _ => none
  | .blankReference => none
  | .notACondition _ => none

namespace Evaluator

open Condition

variable {e : Evaluator} {data : FormData} {level : Nat} {c : Condition}

/-- The operator for which an evaluation refuses a condition without its children. -/
def refusedOperator? (e : Evaluator) (data : FormData) (level : Nat) (c : Condition) :
    Option String :=
  match e.evaluateAt data level c.alone with
  | .ok _ => none
  | .error err => err.operator?

/-- The operators that evaluation refuses are those listed as unsupported. -/
theorem refusedOperator?_eq (hlevel : level ≤ e.maxDepth) (c : Condition) :
    e.refusedOperator? data level c = c.unsupportedOperator? := by
  have hopen : ¬ e.maxDepth < level := not_lt.mpr hlevel
  unfold refusedOperator?
  cases c with
  | leaf field operator value =>
      rw [alone, evaluateAt_leaf hopen, leafHolds, unsupportedOperator?]
      cases operator.known? with
      | none => rfl
      | some op => cases Reference.read? field <;> rfl
  | group operator children =>
      cases operator with
      | known op =>
          rw [alone, evaluateAt_known hopen]
          cases op <;> rfl
      | named name | numbered n =>
          rw [alone, evaluateAt_unknown hopen rfl]
          rfl

/-- The children make no difference to a group that is refused for its operator. -/
theorem evaluateAt_of_refused (hlevel : level ≤ e.maxDepth) {name : String}
    (h : e.refusedOperator? data level c = some name) :
    e.evaluateAt data level c = e.evaluateAt data level c.alone := by
  have hopen : ¬ e.maxDepth < level := not_lt.mpr hlevel
  cases c with
  | leaf field operator value => rfl
  | group operator children =>
      cases hknown : operator.known? with
      | none => rw [alone, evaluateAt_unknown hopen hknown, evaluateAt_unknown hopen hknown]
      | some op => simp [refusedOperator?_eq hlevel, unsupportedOperator?, hknown] at h

/-- Otherwise nothing but a blank reference can fail a condition alone. -/
theorem evaluateAt_alone_of_not_refused (hlevel : level ≤ e.maxDepth)
    (h : e.refusedOperator? data level c = none) :
    (∃ b, e.evaluateAt data level c.alone = .ok b) ∨
      e.evaluateAt data level c.alone = .error .blankReference ∧
        ∃ field, c.field? = some field ∧ Text.isBlank field = true := by
  have hopen : ¬ e.maxDepth < level := not_lt.mpr hlevel
  rw [refusedOperator?_eq hlevel] at h
  cases c with
  | leaf field operator value =>
      rw [alone, evaluateAt_leaf hopen, leafHolds]
      cases hknown : operator.known? with
      | none => simp [unsupportedOperator?, hknown] at h
      | some op =>
          cases hread : Reference.read? field with
          | none => exact .inr ⟨rfl, field, rfl, Reference.read?_eq_none_iff.mp hread⟩
          | some reference => exact .inl ⟨_, rfl⟩
  | group operator children =>
      cases operator with
      | known op =>
          rw [alone, evaluateAt_known hopen]
          cases op <;> exact .inl ⟨_, rfl⟩
      | named name | numbered n => simp [unsupportedOperator?, OperatorId.known?] at h

end Evaluator

namespace Condition

/-! ## What the walk gives -/

/-- The walk of a tree, and what is listed along it. -/
structure WalkedInOrder (c : Condition) : Prop where
  recursive : c.walk = c.preorder
  once : c.walk = c.occurrences.map Prod.snd
  mem_occurrences : ∀ path d, (path, d) ∈ c.occurrences ↔ c.part? path = some d
  byPath : c.occurrences.Pairwise fun o o' => o.1 < o'.1
  turns : ∀ n, (StackWalk.turn^[n] ⟨[], [c]⟩).visited = c.walk.take n
  ends : ∀ n, (StackWalk.turn^[n] ⟨[], [c]⟩).stack = [] ↔ c.size ≤ n
  mem_references : ∀ field, field ∈ c.references ↔
    ∃ path operator value, c.part? path = some (.leaf field operator value)
  nodup_references : c.references.Nodup
  /-- Each reference stands where its first occurrence does. -/
  firstSeen : c.references.Pairwise fun s t =>
    (c.walk.filterMap field?).idxOf s < (c.walk.filterMap field?).idxOf t
  byName : c.Settled → c.unsupportedOperators = c.walk.filterMap unrecognisedOperator?
  listed : ∀ (e : Evaluator) data (level : Nat), level ≤ e.maxDepth →
    c.unsupportedOperators = c.walk.filterMap (e.refusedOperator? data level)
  refused : ∀ (e : Evaluator) data (level : Nat), level ≤ e.maxDepth → ∀ d ∈ c.walk, ∀ name,
    e.refusedOperator? data level d = some name →
      d.operatorText = name ∧ e.evaluateAt data level d = e.evaluateAt data level d.alone
  notRefused : ∀ (e : Evaluator) data (level : Nat), level ≤ e.maxDepth → ∀ d ∈ c.walk,
    e.refusedOperator? data level d = none → (∃ b, e.evaluateAt data level d.alone = .ok b) ∨
      e.evaluateAt data level d.alone = .error .blankReference ∧
        ∃ field, d.field? = some field ∧ Text.isBlank field = true

theorem mem_walk_iff {c d : Condition} : d ∈ c.walk ↔ ∃ path, c.part? path = some d := by
  rw [walk_eq_preorder, ← map_snd_occurrences, List.mem_map]
  constructor
  · rintro ⟨⟨path, part⟩, hmem, heq⟩
    subst heq
    exact ⟨path, mem_occurrences_iff.mp hmem⟩
  · rintro ⟨path, hpart⟩
    exact ⟨(path, d), mem_occurrences_iff.mpr hpart, rfl⟩

theorem field?_eq_some_iff {c : Condition} {field : String} :
    c.field? = some field ↔ ∃ operator value, c = .leaf field operator value := by
  cases c <;> simp [field?, eq_comm]

theorem mem_references_iff_part {c : Condition} {field : String} : field ∈ c.references ↔
    ∃ path operator value, c.part? path = some (.leaf field operator value) := by
  rw [mem_references_iff]
  constructor
  · rintro ⟨d, hd, hfield⟩
    obtain ⟨path, hpart⟩ := mem_walk_iff.mp hd
    obtain ⟨operator, value, hleaf⟩ := field?_eq_some_iff.mp hfield
    exact ⟨path, operator, value, hleaf ▸ hpart⟩
  · rintro ⟨path, operator, value, hpart⟩
    exact ⟨_, mem_walk_iff.mpr ⟨path, hpart⟩, rfl⟩

/-- The walk with a stack visits every occurrence of a condition once and in
preorder, references are listed as they are first seen, and the operators listed
are those that evaluation refuses. -/
theorem walk_inOrder (c : Condition) : c.WalkedInOrder := by
  have hcoming : StackWalk.coming ⟨[], [c]⟩ = c.walk := by
    rw [walk_eq_preorder]
    simp [StackWalk.coming, preorderAll]
  constructor
  · exact walk_eq_preorder c
  · rw [walk_eq_preorder, map_snd_occurrences]
  · exact fun path d => mem_occurrences_iff
  · exact pairwise_occurrences c
  · intro n
    rw [(StackWalk.iterate_turn n ⟨[], [c]⟩).1, hcoming, List.nil_append]
  · intro n
    rw [← StackWalk.coming_eq_nil_iff, (StackWalk.iterate_turn n ⟨[], [c]⟩).2, hcoming,
      List.drop_eq_nil_iff, walk_eq_preorder, length_preorder]
  · exact fun field => mem_references_iff_part
  · have hnodup := nodup_map_distinctBy id (c.walk.filterMap field?)
    rwa [List.map_id] at hnodup
  · exact pairwise_idxOf_distinct (c.walk.filterMap field?)
  · exact unsupportedOperators_of_settled
  · intro e data level hlevel
    have hsame : e.refusedOperator? data level = unsupportedOperator? :=
      funext (Evaluator.refusedOperator?_eq hlevel)
    rw [hsame]
    rfl
  · intro e data level hlevel d _ name hrefused
    have hlisted : d.unsupportedOperator? = some name := by
      rw [← hrefused, Evaluator.refusedOperator?_eq hlevel]
    exact ⟨operatorText_of_unsupported hlisted, Evaluator.evaluateAt_of_refused hlevel hrefused⟩
  · exact fun e data level hlevel d _ => Evaluator.evaluateAt_alone_of_not_refused hlevel

end Condition

end FormRules
