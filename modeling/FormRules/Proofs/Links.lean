import Mathlib.Data.Nat.Find
import Mathlib.Logic.Relation
import Mathlib.Tactic

/-!
# Chains of single links

When every element links to at most one other, following links gives a chain
that either ends or runs into exactly one cycle.  A cycle is entered at the
first of its elements that the chain meets, and the element in front of that
one on the cycle is the one whose link closes it.

Given a list of starts, each cycle they run into is closed by exactly one
element: the first start that runs into the cycle decides where it is entered.
Cutting the links of the closing elements leaves those cycles that no start
runs into and no others.
-/

namespace FormRules

open Relation

variable {α : Type} {r s : α → α → Prop}

def OnCycle (r : α → α → Prop) (a : α) : Prop := TransGen r a a

def RunsIntoCycle (r : α → α → Prop) (a : α) : Prop :=
  ∃ b, ReflTransGen r a b ∧ OnCycle r b

/-- The first element on a cycle that is met from `a` on is `entry`. -/
inductive EntersCycleAt (r : α → α → Prop) : α → α → Prop where
  | here {a : α} (hcycle : OnCycle r a) : EntersCycleAt r a a
  | step {a b entry : α} (hoff : ¬ OnCycle r a) (hlink : r a b)
      (hrest : EntersCycleAt r b entry) : EntersCycleAt r a entry

/-- An element of a cycle whose link leads to where the first of the starts
that runs into the cycle enters it. -/
def ClosesCycle (r : α → α → Prop) (starts : List α) (a : α) : Prop :=
  OnCycle r a ∧ ∃ before start after entry,
    starts = before ++ start :: after ∧
      (∀ earlier ∈ before, ¬ ReflTransGen r earlier a) ∧
      EntersCycleAt r start entry ∧ r a entry

/-- The links that are left when the elements with a property lose theirs. -/
def CutAt (r : α → α → Prop) (cut : α → Prop) (a b : α) : Prop := r a b ∧ ¬ cut a

theorem OnCycle.mono {a : α} (hsub : ∀ a b, s a b → r a b) (ha : OnCycle s a) :
    OnCycle r a :=
  TransGen.mono hsub a a ha

theorem OnCycle.exists_link {a : α} (ha : OnCycle r a) :
    ∃ b, r a b ∧ ReflTransGen r b a ∧ OnCycle r b := by
  obtain ⟨b, hab, hba⟩ := TransGen.head'_iff.mp ha
  exact ⟨b, hab, hba, TransGen.tail' hba hab⟩

theorem RunsIntoCycle.exists_link {a : α} (ha : RunsIntoCycle r a) :
    ∃ b, r a b ∧ RunsIntoCycle r b := by
  obtain ⟨c, hac, hc⟩ := ha
  rcases hac.cases_head with heq | ⟨b, hab, hbc⟩
  · subst c
    obtain ⟨b, hab, -, hb⟩ := hc.exists_link
    exact ⟨b, hab, b, .refl, hb⟩
  · exact ⟨b, hab, c, hbc, hc⟩

namespace EntersCycleAt

theorem onCycle {a entry : α} (h : EntersCycleAt r a entry) : OnCycle r entry := by
  induction h with
  | here hcycle => exact hcycle
  | step _ _ _ ih => exact ih

theorem reaches {a entry : α} (h : EntersCycleAt r a entry) :
    ReflTransGen r a entry := by
  induction h with
  | here _ => exact .refl
  | step _ hlink _ ih => exact .head hlink ih

theorem unique (hr : Relator.RightUnique r) {a b c : α}
    (hb : EntersCycleAt r a b) (hc : EntersCycleAt r a c) : b = c := by
  induction hb with
  | here hcycle =>
      cases hc with
      | here _ => rfl
      | step hoff _ _ => exact absurd hcycle hoff
  | step hoff hlink _ ih =>
      cases hc with
      | here hcycle => exact absurd hcycle hoff
      | step _ hlink' hrest =>
          have heq := hr hlink hlink'
          subst heq
          exact ih hrest

end EntersCycleAt

theorem RunsIntoCycle.exists_entry {a : α} (ha : RunsIntoCycle r a) :
    ∃ entry, EntersCycleAt r a entry := by
  obtain ⟨c, hac, hc⟩ := ha
  induction hac using ReflTransGen.head_induction_on with
  | refl => exact ⟨c, .here hc⟩
  | @head a b hab _ ih =>
      by_cases ha : OnCycle r a
      · exact ⟨a, .here ha⟩
      · obtain ⟨entry, hentry⟩ := ih
        exact ⟨entry, .step ha hab hentry⟩

/-- A chain that never comes to an element uses no link to it. -/
theorem avoids_or_reaches {a b : α} (c : α) (h : TransGen r a b) :
    TransGen (fun x y => r x y ∧ y ≠ c) a b ∨ ReflTransGen r a c := by
  induction h with
  | @single b hab =>
      by_cases hbc : b = c
      · subst hbc
        exact .inr (.single hab)
      · exact .inl (.single ⟨hab, hbc⟩)
  | @tail b d hab hbd ih =>
      rcases ih with havoids | hreaches
      · by_cases hdc : d = c
        · subst hdc
          exact .inr (hab.to_reflTransGen.tail hbd)
        · exact .inl (havoids.tail ⟨hbd, hdc⟩)
      · exact .inr hreaches

/-! ## Single-valued links -/

section SingleValued

variable (hr : Relator.RightUnique r)

include hr

/-- A cycle of some of the links takes in all that its elements lead to. -/
theorem OnCycle.of_reaches_sub {a b : α} (hsub : ∀ a b, s a b → r a b)
    (ha : OnCycle s a) (hab : ReflTransGen r a b) : OnCycle s b := by
  induction hab with
  | refl => exact ha
  | tail _ hbc ih =>
      obtain ⟨d, hbd, -, hd⟩ := ih.exists_link
      have heq := hr hbc (hsub _ _ hbd)
      subst heq
      exact hd

theorem OnCycle.of_reaches {a b : α} (ha : OnCycle r a) (hab : ReflTransGen r a b) :
    OnCycle r b :=
  ha.of_reaches_sub hr (fun _ _ h => h) hab

theorem OnCycle.reaches_back {a b : α} (ha : OnCycle r a) (hab : ReflTransGen r a b) :
    ReflTransGen r b a := by
  induction hab with
  | refl => exact .refl
  | tail hab hbc ih =>
      obtain ⟨d, hbd, hdb, -⟩ := (ha.of_reaches hr hab).exists_link
      have heq := hr hbc hbd
      subst heq
      exact hdb.trans ih

/-- All of a chain leads to the cycle it runs into. -/
theorem OnCycle.reached_from_chain {a b c : α} (hc : OnCycle r c)
    (hac : ReflTransGen r a c) (hab : ReflTransGen r a b) : ReflTransGen r b c := by
  rcases hab.total_of_right_unique hr hac with hbc | hcb
  · exact hbc
  · exact hc.reaches_back hr hcb

theorem EntersCycleAt.of_sub {a entry : α} (hsub : ∀ a b, s a b → r a b)
    (h : EntersCycleAt s a entry) : EntersCycleAt r a entry := by
  induction h with
  | here hcycle => exact .here (hcycle.mono hsub)
  | @step a b entry hoff hlink hrest ih =>
      refine .step (fun ha => hoff ?_) (hsub _ _ hlink) ih
      have hreach : ReflTransGen r a entry := .head (hsub _ _ hlink) ih.reaches
      exact hrest.onCycle.of_reaches_sub hr hsub (ha.reaches_back hr hreach)

end SingleValued

/-! ## Elements of a cycle have one predecessor on it -/

/-- Following exactly `n` links leads from one element to another. -/
def LinkSteps (r : α → α → Prop) : Nat → α → α → Prop
  | 0, a, b => a = b
  | n + 1, a, b => ∃ c, r a c ∧ LinkSteps r n c b

namespace LinkSteps

theorem exists_of_reaches {a b : α} (h : ReflTransGen r a b) :
    ∃ n, LinkSteps r n a b := by
  induction h using ReflTransGen.head_induction_on with
  | refl => exact ⟨0, rfl⟩
  | @head a c hac _ ih =>
      obtain ⟨n, hn⟩ := ih
      exact ⟨n + 1, c, hac, hn⟩

theorem tail {n : Nat} {a b c : α} (h : LinkSteps r n a b) (hbc : r b c) :
    LinkSteps r (n + 1) a c := by
  induction n generalizing a with
  | zero =>
      have heq : a = b := h
      subst heq
      exact ⟨c, hbc, rfl⟩
  | succ n ih =>
      obtain ⟨d, had, hd⟩ := h
      exact ⟨d, had, ih hd⟩

theorem drop (hr : Relator.RightUnique r) {m k : Nat} {a b c : α}
    (hb : LinkSteps r m a b) (hc : LinkSteps r (m + k) a c) : LinkSteps r k b c := by
  induction m generalizing a with
  | zero =>
      have heq : a = b := hb
      subst heq
      simpa using hc
  | succ m ih =>
      rw [Nat.succ_add] at hc
      obtain ⟨d, had, hd⟩ := hb
      obtain ⟨d', had', hd'⟩ := hc
      have heq := hr had had'
      subst heq
      exact ih hd hd'

theorem unique (hr : Relator.RightUnique r) {n : Nat} {a b c : α}
    (hb : LinkSteps r n a b) (hc : LinkSteps r n a c) : b = c :=
  hb.drop hr (k := 0) hc

/-- When `m` steps lead to an element that links back to the start, the first
visit of any element comes no later. -/
theorem first_visit_le (hr : Relator.RightUnique r) {m n : Nat} {entry a b : α}
    (ha : LinkSteps r m entry a) (hback : r a entry) (hb : LinkSteps r n entry b)
    (hfirst : ∀ k < n, ¬ LinkSteps r k entry b) : n ≤ m := by
  by_contra hlt
  -- A visit after the round is over repeats one made a round earlier.
  have hround : LinkSteps r (m + 1) entry entry := ha.tail hback
  have hsplit : n = (m + 1) + (n - (m + 1)) := by omega
  rw [hsplit] at hb
  exact hfirst (n - (m + 1)) (by omega) (hround.drop hr hb)

end LinkSteps

/-- Only one element of a cycle links to an element of it. -/
theorem OnCycle.eq_of_common_link (hr : Relator.RightUnique r) {a b entry : α}
    (ha : OnCycle r a) (hb : OnCycle r b) (hae : r a entry) (hbe : r b entry) :
    a = b := by
  classical
  have hentrya : ∃ n, LinkSteps r n entry a :=
    LinkSteps.exists_of_reaches (ha.reaches_back hr (.single hae))
  have hentryb : ∃ n, LinkSteps r n entry b :=
    LinkSteps.exists_of_reaches (hb.reaches_back hr (.single hbe))
  have hfinda := Nat.find_spec hentrya
  have hfindb := Nat.find_spec hentryb
  -- Each is first met no later than the other, so both after as many steps.
  have hle : Nat.find hentryb ≤ Nat.find hentrya :=
    LinkSteps.first_visit_le hr hfinda hae hfindb fun k hk => Nat.find_min hentryb hk
  have hge : Nat.find hentrya ≤ Nat.find hentryb :=
    LinkSteps.first_visit_le hr hfindb hbe hfinda fun k hk => Nat.find_min hentrya hk
  rw [Nat.le_antisymm hle hge] at hfindb
  exact hfinda.unique hr hfindb

theorem OnCycle.exists_predecessor {entry : α} (hentry : OnCycle r entry) :
    ∃ a, r a entry ∧ ReflTransGen r entry a := by
  obtain ⟨a, hreach, hlink⟩ := TransGen.tail'_iff.mp hentry
  exact ⟨a, hlink, hreach⟩

/-! ## Chains that never end -/

theorem LinkSteps.reaches {n : Nat} {a b : α} (h : LinkSteps r n a b) :
    ReflTransGen r a b := by
  induction n generalizing a with
  | zero =>
      have heq : a = b := h
      rw [heq]
  | succ n ih =>
      rcases h with ⟨c, hac, hcb⟩
      exact .head hac (ih hcb)

theorem LinkSteps.mem_targets {targets : List α} (htargets : ∀ a b, r a b → b ∈ targets)
    {n : Nat} {a b : α} (h : LinkSteps r (n + 1) a b) : b ∈ targets := by
  induction n generalizing a with
  | zero =>
      rcases h with ⟨c, hac, heq⟩
      have heq' : c = b := heq
      exact heq' ▸ htargets a c hac
  | succ n ih =>
      rcases h with ⟨c, -, hcb⟩
      exact ih hcb

/-- The chain from `a` on never comes to an end. -/
def Endless (r : α → α → Prop) (a : α) : Prop := ∀ n, ∃ b, LinkSteps r n a b

theorem RunsIntoCycle.endless {a : α} (ha : RunsIntoCycle r a) : Endless r a := by
  intro n
  induction n generalizing a with
  | zero => exact ⟨a, rfl⟩
  | succ n ih =>
      rcases ha.exists_link with ⟨b, hab, hb⟩
      rcases ih hb with ⟨c, hbc⟩
      exact ⟨c, b, hab, hbc⟩

/-- Links that are followed by another link are enough for an endless chain. -/
theorem Endless.of_inner_links {a : α} (hinner : ∀ a b c, r a b → r b c → s a b)
    (ha : Endless r a) : Endless s a := by
  have hsteps : ∀ n a c, LinkSteps r (n + 1) a c → ∃ b, LinkSteps s n a b := by
    intro n
    induction n with
    | zero => exact fun a c _ => ⟨a, rfl⟩
    | succ n ih =>
        intro a c h
        rcases h with ⟨b, hab, hbc⟩
        rcases ih b c hbc with ⟨d, hbd⟩
        rcases hbc with ⟨e, hbe, -⟩
        exact ⟨d, b, hinner a b e hab hbe, hbd⟩
  intro n
  rcases ha (n + 1) with ⟨c, hac⟩
  exact hsteps n a c hac

/-- Where links lead to finitely many elements, a chain that never ends comes
back to one of them. -/
theorem Endless.runsIntoCycle (hr : Relator.RightUnique r) {targets : List α}
    (htargets : ∀ a b, r a b → b ∈ targets) {a : α} (ha : Endless r a) :
    RunsIntoCycle r a := by
  have hvisit : ∀ n, ∃ b : {b // b ∈ targets}, LinkSteps r (n + 1) a b := by
    intro n
    rcases ha (n + 1) with ⟨b, hab⟩
    exact ⟨⟨b, hab.mem_targets htargets⟩, hab⟩
  choose visit hvisit using hvisit
  have hfinite := (List.finite_toSet targets).to_subtype
  -- Two visits of one element are a whole number of rounds apart.
  have hround : ∀ i j, i < j → visit i = visit j → RunsIntoCycle r a := by
    intro i j hlt heq
    have hlater : LinkSteps r ((i + 1) + ((j - i - 1) + 1)) a (visit i) := by
      have hj := hvisit j
      rw [← heq] at hj
      have hsum : (i + 1) + ((j - i - 1) + 1) = j + 1 := by omega
      rwa [hsum]
    rcases (hvisit i).drop hr hlater with ⟨b, hlink, hback⟩
    exact ⟨visit i, (hvisit i).reaches, TransGen.head' hlink hback.reaches⟩
  rcases @Finite.exists_ne_map_eq_of_infinite _ _ _ hfinite visit with ⟨i, j, hne, heq⟩
  rcases lt_or_gt_of_ne hne with hlt | hgt
  · exact hround i j hlt heq
  · exact hround j i hgt heq.symm

/-- With links to finitely many targets, links never end exactly where they run
into a cycle. -/
theorem endless_iff_runsIntoCycle (hr : Relator.RightUnique r) {targets : List α}
    (htargets : ∀ a b, r a b → b ∈ targets) {a : α} : Endless r a ↔ RunsIntoCycle r a :=
  ⟨fun ha => ha.runsIntoCycle hr htargets, fun ha => ha.endless⟩

/-- Where no element is on a cycle, what holds of an element of a list when it
holds of those of the list that link to it holds of all of them. -/
theorem acyclic_induction {members : List α} {motive : α → Prop}
    (hacyclic : ∀ a, ¬ OnCycle r a)
    (hstep : ∀ a ∈ members, (∀ b ∈ members, r b a → motive b) → motive a) :
    ∀ a ∈ members, motive a := by
  let before : {a // a ∈ members} → {a // a ∈ members} → Prop := fun b a => TransGen r b.1 a.1
  have hfinite := (List.finite_toSet members).to_subtype
  have htrans : IsTrans _ before := ⟨fun _ _ _ hab hbc => hab.trans hbc⟩
  have hirrefl : Std.Irrefl before := ⟨fun a => hacyclic a.1⟩
  have hwf : WellFounded before :=
    @Finite.wellFounded_of_trans_of_irrefl _ hfinite before htrans hirrefl
  intro a ha
  have hall : ∀ b : {a // a ∈ members}, motive b.1 := by
    intro b
    induction b using hwf.induction with
    | _ b ih => exact hstep b.1 b.2 fun c hc hcb => ih ⟨c, hc⟩ (.single hcb)
  exact hall ⟨a, ha⟩

/-! ## Redirecting the link of one element -/

/-- The links when `x` links to `target` and to nothing else. -/
def Redirected (r : α → α → Prop) (x target a b : α) : Prop :=
  a = x ∧ b = target ∨ a ≠ x ∧ r a b

namespace Redirected

variable {x target : α}

theorem rightUnique (hr : Relator.RightUnique r) :
    Relator.RightUnique (Redirected r x target) := by
  intro a b c hab hac
  rcases hab with ⟨ha, hb⟩ | ⟨ha, hb⟩
  · rcases hac with ⟨-, hc⟩ | ⟨hne, -⟩
    · rw [hb, hc]
    · exact absurd ha hne
  · rcases hac with ⟨heq, -⟩ | ⟨-, hc⟩
    · exact absurd heq ha
    · exact hr hb hc

/-- On the way to `x` its own link is not used. -/
theorem reaches_iff {a : α} :
    ReflTransGen (Redirected r x target) a x ↔ ReflTransGen r a x := by
  constructor
  · intro h
    induction h using ReflTransGen.head_induction_on with
    | refl => exact .refl
    | @head a b hab _ ih =>
        rcases hab with ⟨ha, -⟩ | ⟨-, hab⟩
        · rw [ha]
        · exact .head hab ih
  · intro h
    induction h using ReflTransGen.head_induction_on with
    | refl => exact .refl
    | @head a b hab _ ih =>
        by_cases ha : a = x
        · rw [ha]
        · exact .head (.inr ⟨ha, hab⟩) ih

theorem kept_or_reaches {a b : α} (h : TransGen (Redirected r x target) a b) :
    TransGen r a b ∨ ReflTransGen (Redirected r x target) a x := by
  have hlink : ∀ c d, Redirected r x target c d → r c d ∨ c = x := by
    intro c d hcd
    rcases hcd with ⟨hc, -⟩ | ⟨-, hcd⟩
    · exact .inr hc
    · exact .inl hcd
  induction h with
  | @single b hab =>
      rcases hlink a b hab with hkept | heq
      · exact .inl (.single hkept)
      · exact .inr (heq ▸ .refl)
  | @tail b c hab hbc ih =>
      rcases ih with hkept | hreach
      · rcases hlink b c hbc with hlast | heq
        · exact .inl (hkept.tail hlast)
        · exact .inr (heq ▸ hab.to_reflTransGen)
      · exact .inr hreach

/-- The only cycle there can be takes in `x`. -/
theorem reaches_of_onCycle (hacyclic : ∀ a, ¬ OnCycle r a) {a : α}
    (h : OnCycle (Redirected r x target) a) : ReflTransGen (Redirected r x target) a x := by
  rcases kept_or_reaches h with hkept | hreach
  · exact absurd hkept (hacyclic a)
  · exact hreach

variable (hr : Relator.RightUnique r)

include hr

theorem onCycle_iff : OnCycle (Redirected r x target) x ↔ ReflTransGen r target x := by
  have hlink : Redirected r x target x target := .inl ⟨rfl, rfl⟩
  rw [← @reaches_iff _ r x target target]
  constructor
  · intro h
    rcases h.exists_link with ⟨b, hb, hback, -⟩
    have heq : b = target := rightUnique hr hb hlink
    rwa [heq] at hback
  · intro h
    exact TransGen.head' hlink h

theorem runsIntoCycle_iff (hacyclic : ∀ a, ¬ OnCycle r a) {a : α} :
    RunsIntoCycle (Redirected r x target) a ↔ ReflTransGen r target x ∧ ReflTransGen r a x := by
  rw [← onCycle_iff hr, ← @reaches_iff _ r x target a]
  constructor
  · intro h
    rcases h with ⟨b, hab, hb⟩
    have hbx := reaches_of_onCycle hacyclic hb
    exact ⟨hb.of_reaches (rightUnique hr) hbx, hab.trans hbx⟩
  · intro h
    exact ⟨x, h.2, h.1⟩

end Redirected

/-! ## Closing elements -/

theorem exists_first_mem {starts : List α} {p : α → Prop} (h : ∃ start ∈ starts, p start) :
    ∃ before start after, starts = before ++ start :: after ∧
      (∀ earlier ∈ before, ¬ p earlier) ∧ p start := by
  classical
  have hfound : (starts.find? fun start => decide (p start)).isSome := by
    simpa using h
  obtain ⟨start, hstart⟩ := Option.isSome_iff_exists.mp hfound
  obtain ⟨hp, before, after, hstarts, hbefore⟩ := List.find?_eq_some_iff_append.mp hstart
  exact ⟨before, start, after, hstarts, by simpa using hbefore, by simpa using hp⟩

theorem first_mem_unique {starts before before' after after' : List α} {start start' : α}
    {p : α → Prop} (h : starts = before ++ start :: after)
    (hbefore : ∀ earlier ∈ before, ¬ p earlier) (hp : p start)
    (h' : starts = before' ++ start' :: after')
    (hbefore' : ∀ earlier ∈ before', ¬ p earlier) (hp' : p start') : start = start' := by
  classical
  have hfound : starts.find? (fun x => decide (p x)) = some start :=
    List.find?_eq_some_iff_append.mpr
      ⟨by simpa using hp, before, after, h, by simpa using hbefore⟩
  have hfound' : starts.find? (fun x => decide (p x)) = some start' :=
    List.find?_eq_some_iff_append.mpr
      ⟨by simpa using hp', before', after', h', by simpa using hbefore'⟩
  rw [hfound] at hfound'
  exact Option.some.inj hfound'

theorem CutAt.reaches {cut : α → Prop} {a b : α} (hab : ReflTransGen r a b)
    (hkept : ∀ c, ReflTransGen r c b → ¬ cut c) : ReflTransGen (CutAt r cut) a b := by
  induction hab using ReflTransGen.head_induction_on with
  | refl => exact .refl
  | @head a c hac hcb ih => exact .head ⟨hac, hkept a (.head hac hcb)⟩ ih

theorem CutAt.onCycle {cut : α → Prop} {a : α} (ha : OnCycle r a)
    (hkept : ∀ c, ReflTransGen r c a → ¬ cut c) : OnCycle (CutAt r cut) a := by
  obtain ⟨b, hab, hba, -⟩ := ha.exists_link
  exact TransGen.head' ⟨hab, hkept a .refl⟩ (CutAt.reaches hba hkept)

section SingleValued

variable (hr : Relator.RightUnique r) {starts : List α}

include hr

theorem EntersCycleAt.reaches_predecessor {start entry a : α}
    (henters : EntersCycleAt r start entry) (ha : OnCycle r a) (hlink : r a entry) :
    ReflTransGen r start a :=
  henters.reaches.trans (ha.reaches_back hr (.single hlink))

theorem ClosesCycle.exists_start {a : α} (h : ClosesCycle r starts a) :
    ∃ start ∈ starts, ReflTransGen r start a := by
  obtain ⟨ha, before, start, after, entry, hstarts, -, henters, hlink⟩ := h
  refine ⟨start, ?_, henters.reaches_predecessor hr ha hlink⟩
  rw [hstarts]
  simp

/-- Every cycle that a start runs into has a closing element. -/
theorem OnCycle.exists_closesCycle {a : α} (ha : OnCycle r a)
    (hstart : ∃ start ∈ starts, ReflTransGen r start a) :
    ∃ c, ClosesCycle r starts c ∧ ReflTransGen r a c := by
  obtain ⟨before, start, after, hstarts, hbefore, hreach⟩ := exists_first_mem hstart
  obtain ⟨entry, henters⟩ : ∃ entry, EntersCycleAt r start entry :=
    RunsIntoCycle.exists_entry ⟨a, hreach, ha⟩
  obtain ⟨c, hlink, hentryc⟩ := henters.onCycle.exists_predecessor
  have hae : ReflTransGen r a entry :=
    henters.onCycle.reached_from_chain hr henters.reaches hreach
  have hac : ReflTransGen r a c := hae.trans hentryc
  have hc : OnCycle r c := ha.of_reaches hr hac
  refine ⟨c, ⟨hc, before, start, after, entry, hstarts, ?_, henters, hlink⟩, hac⟩
  -- Whatever leads to the closing element leads on to `a`.
  intro earlier hearlier hreachc
  exact hbefore earlier hearlier (hreachc.trans (ha.reaches_back hr hac))

/-- A cycle has no second closing element. -/
theorem ClosesCycle.unique {a b : α} (ha : ClosesCycle r starts a)
    (hb : ClosesCycle r starts b) (hab : ReflTransGen r a b) : a = b := by
  obtain ⟨hacycle, before, start, after, entry, hstarts, hbefore, henters, hlink⟩ := ha
  obtain ⟨hbcycle, before', start', after', entry', hstarts', hbefore', henters', hlink'⟩ := hb
  have hba : ReflTransGen r b a := hacycle.reaches_back hr hab
  have hsame : start = start' := by
    refine first_mem_unique (p := fun s => ReflTransGen r s a) hstarts hbefore
      (henters.reaches_predecessor hr hacycle hlink) hstarts' ?_
      ((henters'.reaches_predecessor hr hbcycle hlink').trans hba)
    intro earlier hearlier hreach
    exact hbefore' earlier hearlier (hreach.trans hab)
  subst hsame
  have hentry : entry = entry' := henters.unique hr henters'
  subst hentry
  exact hacycle.eq_of_common_link hr hbcycle hlink hlink'

/-- Cutting at the closing elements leaves the cycles that no start runs
into. -/
theorem onCycle_cutAt_closesCycle_iff {a : α} :
    OnCycle (CutAt r (ClosesCycle r starts)) a ↔
      OnCycle r a ∧ ∀ start ∈ starts, ¬ ReflTransGen r start a := by
  constructor
  · intro ha
    have hacycle : OnCycle r a := ha.mono fun _ _ h => h.1
    refine ⟨hacycle, fun start hstart hreach => ?_⟩
    obtain ⟨c, hc, hac⟩ := hacycle.exists_closesCycle hr ⟨start, hstart, hreach⟩
    obtain ⟨d, hlink, -, -⟩ := (ha.of_reaches_sub hr (fun _ _ h => h.1) hac).exists_link
    exact hlink.2 hc
  · rintro ⟨ha, hstarts⟩
    refine CutAt.onCycle ha fun c hca hc => ?_
    obtain ⟨start, hstart, hreach⟩ := hc.exists_start hr
    exact hstarts start hstart (hreach.trans hca)

theorem runsIntoCycle_cutAt_closesCycle {a b : α} (hab : ReflTransGen r a b)
    (hb : OnCycle r b) (hstarts : ∀ start ∈ starts, ¬ ReflTransGen r start b) :
    RunsIntoCycle (CutAt r (ClosesCycle r starts)) a := by
  refine ⟨b, CutAt.reaches hab fun c hcb hc => ?_, ?_⟩
  · obtain ⟨start, hstart, hreach⟩ := hc.exists_start hr
    exact hstarts start hstart (hreach.trans hcb)
  · exact (onCycle_cutAt_closesCycle_iff hr).mpr ⟨hb, hstarts⟩

omit hr in
theorem closesCycle_concat_iff {last a : α} :
    ClosesCycle r (starts ++ [last]) a ↔
      ClosesCycle r starts a ∨
        OnCycle r a ∧ (∀ earlier ∈ starts, ¬ ReflTransGen r earlier a) ∧
          ∃ entry, EntersCycleAt r last entry ∧ r a entry := by
  constructor
  · rintro ⟨ha, before, start, after, entry, hstarts, hbefore, henters, hlink⟩
    rcases after.eq_nil_or_concat with hnil | ⟨after', final, hconcat⟩
    · subst hnil
      obtain ⟨hinit, hlast⟩ := List.append_inj' hstarts rfl
      simp only [List.cons.injEq, and_true] at hlast
      subst hinit hlast
      exact .inr ⟨ha, hbefore, entry, henters, hlink⟩
    · subst hconcat
      have hconcat : starts ++ [last] = (before ++ start :: after') ++ [final] := by
        simpa using hstarts
      have hinit : starts = before ++ start :: after' := (List.append_inj' hconcat rfl).1
      exact .inl ⟨ha, before, start, after', entry, hinit, hbefore, henters, hlink⟩
  · rintro (⟨ha, before, start, after, entry, hstarts, hrest⟩ | ⟨ha, hbefore, entry, hrest⟩)
    · exact ⟨ha, before, start, after ++ [last], entry, by simp [hstarts], hrest⟩
    · exact ⟨ha, starts, last, [], entry, rfl, hbefore, hrest⟩

/-- A further start that runs into no cycle that is left closes none. -/
theorem closesCycle_concat_of_not_runs {last a : α}
    (hlast : ¬ RunsIntoCycle (CutAt r (ClosesCycle r starts)) last) :
    ClosesCycle r (starts ++ [last]) a ↔ ClosesCycle r starts a := by
  rw [closesCycle_concat_iff]
  constructor
  · rintro (ha | ⟨ha, hstarts, entry, henters, hlink⟩)
    · exact ha
    · have hreach : ReflTransGen r last a := henters.reaches_predecessor hr ha hlink
      exact absurd (runsIntoCycle_cutAt_closesCycle hr hreach ha hstarts) hlast
  · exact .inl

/-- A further start that runs into a cycle that is left closes it. -/
theorem closesCycle_concat_of_enters {last entry c a : α}
    (henters : EntersCycleAt (CutAt r (ClosesCycle r starts)) last entry)
    (hlink : CutAt r (ClosesCycle r starts) c entry)
    (hc : OnCycle (CutAt r (ClosesCycle r starts)) c) :
    ClosesCycle r (starts ++ [last]) a ↔ ClosesCycle r starts a ∨ a = c := by
  have henters' : EntersCycleAt r last entry := henters.of_sub hr fun _ _ h => h.1
  obtain ⟨hccycle, hstarts⟩ := (onCycle_cutAt_closesCycle_iff hr).mp hc
  rw [closesCycle_concat_iff]
  constructor
  · rintro (ha | ⟨ha, -, other, hother, hlink'⟩)
    · exact .inl ha
    · have heq : other = entry := hother.unique hr henters'
      subst heq
      exact .inr (ha.eq_of_common_link hr hccycle hlink' hlink.1)
  · rintro (ha | heq)
    · exact .inl ha
    · subst heq
      exact .inr ⟨hccycle, hstarts, entry, henters', hlink.1⟩

end SingleValued

end FormRules
